import ReactivePage.Watch.Registry
import ReactivePage.Proofs.Watch.Upkeep

namespace ReactivePage

namespace TargetKey

def Exists (h : Heap) : TargetKey → Prop
  | field owner _ => owner < h.next
  | collection c => (h.contents c).kind ≠ .scalar

instance (h : Heap) : (key : TargetKey) → Decidable (key.Exists h)
  | field owner _ => inferInstanceAs (Decidable (owner < h.next))
  | collection c => inferInstanceAs (Decidable ((h.contents c).kind ≠ .scalar))

end TargetKey

def Observation.Observes (o : Observation) : TargetKey → Prop
  | .field owner path => o.subject = .inl (owner, path)
  | .collection c => ∃ sub, o.subject = .inr (some sub) ∧ sub.container = c

theorem Observation.Observes.congr {o o' : Observation} {key : TargetKey} (h : o.Observes key)
    (hs : o'.subject = o.subject) : o'.Observes key := by
  cases key with
  | field owner path => exact hs.trans h
  | collection c =>
    obtain ⟨sub, hsub, hc⟩ := h
    exact ⟨sub, hs.trans hsub, hc⟩

def TargetKey.kind (h : Heap) : TargetKey → Kind
  | field owner path => ((h.lookup? owner path).map h.kind).getD .scalar
  | collection c => h.kind (.ref c)

theorem Heap.Closed.lt_of_kind_ne {h : Heap} (hc : h.Closed) {c : Handle}
    (hk : (h.contents c).kind ≠ .scalar) : c < h.next := by
  rw [contents] at hk
  cases hcell : h.cells.find? c with
  | none =>
    rw [hcell] at hk
    exact absurd rfl hk
  | some k => exact hc.cells c k hcell

namespace Store

theorem Sound.progress {s t : Store} {id : ObservationId} (S : s.Sound) (P : Progress s t id)
    (h : ∀ o, t.observations.find? id = some o →
      (∀ p, o.holder = some p → p.UpToDate s.heap) ∧ o.Anchored s.heap ∧
        o.Rooted s.heap.next) : t.Sound where
  consistent := by
    refine ⟨P.wired, ?_, ?_⟩
    · intro j o p ho hp
      rw [P.heap]
      by_cases hj : j = id
      · subst hj
        exact (h o ho).1 p hp
      · rw [P.others j hj] at ho
        exact S.consistent.upToDate j o p ho hp
    · intro j o ho
      rw [P.heap]
      by_cases hj : j = id
      · subst hj
        exact (h o ho).2.1
      · rw [P.others j hj] at ho
        exact S.consistent.anchored j o ho
  closed := by
    rw [P.heap]
    exact S.closed
  rooted := by
    intro j o ho
    rw [P.heap]
    by_cases hj : j = id
    · subst hj
      exact (h o ho).2.2
    · rw [P.others j hj] at ho
      exact S.rooted j o ho

theorem progress_begin {s s' t : Store} {id : ObservationId} {o : Observation}
    {new : List Subscription} {hooks : List (Handle × Observer)} (W : s.Wired)
    (R : Rewired s s' [] new hooks) (hnone : s.observations.find? id = none)
    (ht : t = s'.setObservation id o) (hattached : s'.Attached o.subscriptions (o.hooks s.heap id))
    (hnew : ∀ sub ∈ new, sub ∈ o.subscriptions)
    (hhooks : ∀ hook ∈ hooks, hook.2.observation = id) : Progress s t id := by
  subst ht
  have hfind : ∀ j, (s'.setObservation id o).observations.find? j
      = if j = id then some o else s.observations.find? j := by
    intro j
    rw [find?_setObservation, R.observations]
  refine W.replace R (by simp) hhooks R.heap R.nextObservation rfl ?_ ?_ ?_
  · intro j hj
    rw [hfind, if_neg hj]
  · intro o' ho'
    rw [hfind, if_pos rfl] at ho'
    cases ho'
    rw [show (s'.setObservation id o).heap = s.heap from R.heap]
    exact hattached
  · intro sub ob hob hid
    refine ⟨o, by rw [hfind, if_pos rfl], ?_⟩
    rcases R.mem_of_observer? hob with hm | ⟨-, hob⟩
    · exact hnew sub hm
    · obtain ⟨o', ho', -⟩ := W.served sub ob hob
      rw [hid, hnone] at ho'
      cases ho'

theorem Sound.reserve {s : Store} (S : s.Sound) (n : ObservationId) :
    ({ s with nextObservation := n } : Store).Sound where
  consistent := by
    refine ⟨S.consistent.wired.congr rfl rfl rfl, ?_, ?_⟩
    · exact S.consistent.upToDate
    · exact S.consistent.anchored
  closed := S.closed
  rooted := S.rooted

structure Observed (s t : Store) (k : ChannelId) (watch : WatchId) (key : TargetKey) : Prop where
  sound : t.Sound
  heap : t.heap = s.heap
  channels : t.channels = s.channels
  nextObservation : t.nextObservation = s.nextObservation + 1
  others : ∀ j, j ≠ s.nextObservation → t.observations.find? j = s.observations.find? j
  found : ∃ o, t.observations.find? s.nextObservation = some o ∧ o.channel = k ∧ o.watch = watch ∧
    o.kind = key.kind s.heap ∧ o.Observes key

theorem observed_of_progress {s s' : Store} {k : ChannelId} {watch : WatchId} {key : TargetKey}
    {o : Observation} (S : s.Sound) (hchannels : s'.channels = s.channels)
    (P : Progress { s with nextObservation := s.nextObservation + 1 }
      (s'.setObservation s.nextObservation o) s.nextObservation)
    (hk : o.channel = k) (hw : o.watch = watch) (hkind : o.kind = key.kind s.heap)
    (hkey : o.Observes key) (hup : ∀ p, o.holder = some p → p.UpToDate s.heap)
    (ha : o.Anchored s.heap) (hr : o.Rooted s.heap.next) :
    Observed s (s'.setObservation s.nextObservation o) k watch key := by
  have hfind : (s'.setObservation s.nextObservation o).observations.find? s.nextObservation
      = some o := by
    rw [find?_setObservation, if_pos rfl]
  refine ⟨(S.reserve _).progress P ?_, P.heap, hchannels, P.nextObservation, P.others, o, hfind,
    hk, hw, hkind, hkey⟩
  intro o' ho'
  cases hfind.symm.trans ho'
  exact ⟨hup, ha, hr⟩

section ObserveKey

variable {s : Store} (S : s.Sound) (hnone : s.observations.find? s.nextObservation = none)
  (k : ChannelId) (watch : WatchId)

include S hnone

theorem observed_field {owner : Handle} (howner : owner < s.heap.next) (path : Path) :
    Observed s (s.observeKey k watch (.field owner path)).2 k watch (.field owner path) := by
  have S₁ := S.reserve (s.nextObservation + 1)
  have R := Rewired.subscribeContent { s with nextObservation := s.nextObservation + 1 }
    s.nextObservation (((s.heap.lookup? owner path).map s.heap.kind).getD .scalar)
    (s.heap.lookup? owner path)
  have hcontainer := container_subscribeContent { s with nextObservation := s.nextObservation + 1 }
    s.nextObservation (((s.heap.lookup? owner path).map s.heap.kind).getD .scalar)
    (s.heap.lookup? owner path)
  simp only [observeKey]
  generalize ({ s with nextObservation := s.nextObservation + 1 } : Store).subscribeContent
    s.nextObservation (((s.heap.lookup? owner path).map s.heap.kind).getD .scalar)
    (s.heap.lookup? owner path) = x at *
  obtain ⟨content, s₁⟩ := x
  have T := Rewired.linkAll s₁ s.nextObservation 0 (s.heap.chain owner path) path.steps
  have hheap : s₁.heap = s.heap := R.heap
  simp only [hheap] at T ⊢
  generalize s₁.linkAll s.nextObservation 0 (s.heap.chain owner path) path.steps = y at *
  obtain ⟨links, s₂⟩ := y
  simp only at R T hcontainer ⊢
  have hattached := T.attached.append (T.keeps R.attached (by simp))
  rw [← hcontainer] at hattached
  rw [T.heap.trans hheap]
  refine observed_of_progress S (T.channels.trans R.channels) ?_ rfl rfl rfl rfl ?_ ?_ ?_
  · refine progress_begin S₁.consistent.wired (R.trans T (by simp)) hnone rfl hattached ?_ ?_
    · intro sub hm
      exact List.mem_append.2 (List.mem_append.1 hm).symm
    · intro hook hm
      rcases List.mem_append.1 hm with hm | hm
      · obtain ⟨c, -, rfl⟩ := List.mem_map.1 hm
        rfl
      · obtain ⟨i, c, step, -, -, -, rfl⟩ := Heap.mem_linkPlan.1 hm
        rfl
  · intro p hp
    cases hp
    exact ⟨rfl, Value.sameOption_refl _⟩
  · intro p hp
    cases hp
    exact hcontainer
  · exact howner

theorem observed_collection {c : Handle} (hc : (s.heap.contents c).kind ≠ .scalar) :
    Observed s (s.observeKey k watch (.collection c)).2 k watch (.collection c) := by
  have S₁ := S.reserve (s.nextObservation + 1)
  have hcontent : ({ s with nextObservation := s.nextObservation + 1 } : Store).subscribeContent
      s.nextObservation (s.heap.kind (.ref c)) (some (.ref c))
        = (some _, _) := if_pos ⟨hc, rfl⟩
  have R := Rewired.subscribe { s with nextObservation := s.nextObservation + 1 } c
    (.content s.nextObservation)
  simp only [observeKey, hcontent]
  refine observed_of_progress S R.channels ?_ rfl rfl rfl ⟨_, rfl, rfl⟩ ?_ ?_ ?_
  · refine progress_begin S₁.consistent.wired R hnone rfl R.attached (fun sub hm => hm) ?_
    intro hook hm
    cases List.mem_singleton.1 hm
    rfl
  · intro p hp
    cases hp
  · intro p hp
    cases hp
  · intro sub hsub
    cases hsub
    exact S.closed.lt_of_kind_ne hc

theorem observed_observeKey {key : TargetKey} (hkey : key.Exists s.heap) :
    Observed s (s.observeKey k watch key).2 k watch key := by
  cases key with
  | field owner path => exact observed_field S hnone k watch hkey path
  | collection c => exact observed_collection S hnone k watch hkey

end ObserveKey

theorem observeKey_fst (s : Store) (k : ChannelId) (watch : WatchId) (key : TargetKey) :
    (s.observeKey k watch key).1 = s.nextObservation := by
  cases key <;> rfl

structure Ended (s t : Store) (id : ObservationId) : Prop where
  sound : t.Sound
  heap : t.heap = s.heap
  channels : t.channels = s.channels
  nextObservation : t.nextObservation = s.nextObservation
  others : ∀ j, j ≠ id → t.observations.find? j = s.observations.find? j
  gone : t.observations.find? id = none

theorem ended_closeObservation {s : Store} (S : s.Sound) (id : ObservationId) :
    Ended s (s.closeObservation id) id := by
  rw [closeObservation]
  cases ho : s.observations.find? id with
  | none => exact ⟨S, rfl, rfl, rfl, fun _ _ => rfl, ho⟩
  | some o =>
    have R := (Rewired.unsubscribeAll s o.links).trans
      (Rewired.unsubscribeAll (s.unsubscribeAll o.links) o.content.toList) (by simp)
    simp only
    rw [← Observation.links]
    generalize (s.unsubscribeAll o.links).unsubscribeAll o.content.toList = s' at R ⊢
    have hfind : ∀ j, (s'.observations.erase id).find? j
        = if j = id then none else s.observations.find? j := by
      intro j
      rw [R.observations, Dict.find?_erase_eq_ite]
    have P : Progress s { s' with observations := s'.observations.erase id } id := by
      refine S.consistent.wired.replace R ?_ (by simp) R.heap R.nextObservation rfl ?_ ?_ ?_
      · intro sub hm ob hob
        exact S.consistent.wired.observation_of_mem ho hm hob
      · intro j hj
        exact (hfind j).trans (if_neg hj)
      · intro o' ho'
        have hgone := (hfind id).trans (if_pos rfl)
        cases hgone.symm.trans ho'
      · intro sub ob hob hid
        rcases R.mem_of_observer? hob with hm | ⟨hold, hob⟩
        · cases hm
        · exact absurd (S.consistent.wired.mem_subscriptions ho hob hid) hold
    have hgone := (hfind id).trans (if_pos rfl)
    refine ⟨S.progress P ?_, P.heap, R.channels, P.nextObservation, P.others, hgone⟩
    intro o' ho'
    cases hgone.symm.trans ho'

end Store

end ReactivePage
