import ReactivePage.Proofs.Watch.Wiring
import ReactivePage.Proofs.Watch.Sending
import ReactivePage.Proofs.Json.Same

namespace ReactivePage

structure PathWatch.UpToDate (p : PathWatch) (h : Heap) : Prop where
  chain : p.chain = h.chain p.root p.path
  last : Value.sameOption p.last (h.lookup? p.root p.path) = true

namespace Observation

def subject (o : Observation) : Sum (Handle × Path) (Option Subscription) :=
  match o.holder with
  | some p => .inl (p.root, p.path)
  | none => .inr o.content

theorem exists_holder_of_subject {o : Observation} {root : Handle} {path : Path}
    (h : o.subject = .inl (root, path)) :
    ∃ p, o.holder = some p ∧ p.root = root ∧ p.path = path := by
  rw [subject] at h
  cases hp : o.holder with
  | none => simp [hp] at h
  | some p =>
    simp only [hp, Sum.inl.injEq, Prod.mk.injEq] at h
    exact ⟨p, rfl, h⟩

structure Continues (o o' : Observation) : Prop where
  channel : o'.channel = o.channel
  watch : o'.watch = o.watch
  kind : o'.kind = o.kind
  subject : o'.subject = o.subject

theorem Continues.refl (o : Observation) : Continues o o := ⟨rfl, rfl, rfl, rfl⟩

theorem Continues.trans {o₁ o₂ o₃ : Observation} (C : Continues o₁ o₂) (D : Continues o₂ o₃) :
    Continues o₁ o₃ where
  channel := D.channel.trans C.channel
  watch := D.watch.trans C.watch
  kind := D.kind.trans C.kind
  subject := D.subject.trans C.subject

def Anchored (o : Observation) (h : Heap) : Prop :=
  ∀ p, o.holder = some p → o.content.map (·.container) = h.contentOf? o.kind p.last

end Observation

namespace Heap

theorem contentOf?_ref (h : Heap) (kind : Kind) (c : Handle) :
    h.contentOf? kind (some (.ref c))
      = if kind ≠ .scalar ∧ h.kind (.ref c) = kind then some c else none := rfl

theorem contentOf?_congr (h : Heap) (kind : Kind) {v w : Option Value}
    (hs : Value.sameOption v w = true) : h.contentOf? kind v = h.contentOf? kind w := by
  cases w with
  | none => cases v <;> simp [Value.sameOption] at hs ⊢
  | some w =>
    cases w with
    | scalar j =>
      cases v with
      | none => rfl
      | some v =>
        cases v with
        | scalar i => rfl
        | ref c => simp [Value.sameOption, Value.same] at hs
    | ref c => rw [Value.eq_of_sameOption_ref hs]

theorem contentOf?_scalar (h : Heap) (v : Option Value) : h.contentOf? .scalar v = none := by
  cases v with
  | none => rfl
  | some v => cases v <;> rfl

theorem eq_ref_of_contentOf? {h : Heap} {kind : Kind} {v : Option Value} {c : Handle}
    (hc : h.contentOf? kind v = some c) : v = some (.ref c) := by
  cases v with
  | none => cases hc
  | some v =>
    cases v with
    | scalar j => cases hc
    | ref d =>
      rw [contentOf?_ref] at hc
      split at hc
      · cases hc
        rfl
      · cases hc

end Heap

namespace Store

theorem handleOf?_eq_contentOf? (s : Store) {kind : Kind} (hk : kind ≠ .scalar) (v : Option Value) :
    s.handleOf? kind v = s.heap.contentOf? kind v := by
  cases v with
  | none => rfl
  | some v =>
    cases v with
    | scalar j => rfl
    | ref c => simp only [handleOf?, Heap.contentOf?_ref, ne_eq, hk, not_false_eq_true, true_and]

/-- If somebody reads the channel, a change of the watch lies there. -/
def Announces (s : Store) (k : ChannelId) (w : WatchId) : Prop :=
  (s.channel k).isOpen = true → ∃ n : Notification, n.watch = w ∧ .change n ∈ (s.channel k).queue

theorem Announces.mono {s t : Store} {k : ChannelId} {w : WatchId} (h : s.Announces k w)
    (hs : Sends k s t) : t.Announces k w := by
  intro ho
  obtain ⟨n, hn, hm⟩ := h (hs.isOpen.symm.trans ho)
  exact ⟨n, hn, hs.mem_queue hm ho⟩

theorem announces_report (s : Store) (o : Observation) (change : Change) :
    (s.report o change).Announces o.channel o.watch := by
  intro ho
  have hr : Raises o.channel s [.change ⟨o.watch, o.label, change⟩] (s.report o change) :=
    .send s _
  refine ⟨⟨o.watch, o.label, change⟩, rfl, ?_⟩
  rw [hr.queue (hr.isOpen.symm.trans ho)]
  simp

theorem Attached.of_append {s : Store} {subs subs' : List Subscription}
    {hooks hooks' : List (Handle × Observer)} (A : s.Attached (subs ++ subs') (hooks ++ hooks'))
    (h : subs'.length = hooks'.length) : s.Attached subs hooks ∧ s.Attached subs' hooks' := by
  have hlen := List.Forall₂.length_eq A
  rw [List.length_append, List.length_append, h, Nat.add_right_cancel_iff] at hlen
  have htake := List.forall₂_take_append _ _ _ A
  have hdrop := List.forall₂_drop_append _ _ _ A
  rw [← hlen, List.take_left] at htake
  rw [← hlen, List.drop_left] at hdrop
  exact ⟨htake, hdrop⟩

theorem Rewired.keeps {s s' : Store} {old new subs : List Subscription}
    {hooks hooks' : List (Handle × Observer)} (R : Rewired s s' old new hooks)
    (A : s.Attached subs hooks') (hold : ∀ sub ∈ subs, sub ∉ old) : s'.Attached subs hooks' := by
  refine A.congr fun sub hm => ?_
  obtain ⟨hook, -, -, hob⟩ := A.exists_hook hm
  have hnew : sub ∉ new := fun hn => Nat.not_le_of_lt (lt_of_observer? hob) (R.fresh sub hn)
  rw [R.kept sub hnew, if_neg (hold sub hm)]

theorem Rewired.mem_of_observer? {s s' : Store} {old new : List Subscription}
    {hooks : List (Handle × Observer)} (R : Rewired s s' old new hooks) {sub : Subscription}
    {ob : Observer} (hob : s'.observer? sub = some ob) :
    sub ∈ new ∨ sub ∉ old ∧ s.observer? sub = some ob := by
  by_cases hn : sub ∈ new
  · exact .inl hn
  · rw [R.kept sub hn] at hob
    split at hob
    · cases hob
    · next ho => exact .inr ⟨ho, hob⟩

namespace Wired

variable {s : Store} {id : ObservationId} {o : Observation}

theorem attached_links_content (W : s.Wired) (ho : s.observations.find? id = some o) :
    s.Attached o.links (o.linkHooks s.heap id) ∧
      s.Attached o.content.toList (o.contentHooks id) := by
  refine Attached.of_append (W.attached id o ho) ?_
  rw [Observation.contentHooks]
  cases o.content <;> rfl

theorem disjoint_links_content (W : s.Wired) (ho : s.observations.find? id = some o) :
    ∀ sub ∈ o.links, sub ∉ o.content.toList := by
  intro sub hl hc
  have hnodup := (W.attached id o ho).nodup (o.nodup_hooks s.heap id)
  exact (List.disjoint_of_nodup_append hnodup) hl hc

end Wired

theorem Wired.congr {s t : Store} (W : s.Wired) (hheap : t.heap = s.heap)
    (hobs : t.observers = s.observers) (hrec : t.observations = s.observations) : t.Wired := by
  have hsame : ∀ sub, t.observer? sub = s.observer? sub := by
    intro sub
    rw [observer?, observer?, observersOf, observersOf, hobs]
  constructor
  · intro id o ho
    rw [hrec] at ho
    rw [hheap]
    exact (W.attached id o ho).congr fun sub _ => hsame sub
  · intro sub ob hob
    rw [hsame] at hob
    rw [hrec]
    exact W.served sub ob hob

theorem Progress.report {s t : Store} {id : ObservationId} (P : Progress s t id)
    (o : Observation) (change : Change) : Progress s (t.report o change) id where
  wired := P.wired.congr rfl rfl rfl
  heap := P.heap
  nextObservation := P.nextObservation
  later := P.later
  places := P.places
  foreign := P.foreign
  others := P.others

theorem Progress.refl {s : Store} (W : s.Wired) (id : ObservationId) : Progress s s id where
  wired := W
  heap := rfl
  nextObservation := rfl
  later := fun _ => Nat.le_refl _
  places := fun _ _ _ h => h
  foreign := fun _ _ _ h => h
  others := fun _ _ => rfl

section Observation

variable {s : Store} {id : ObservationId} {o : Observation} {p : PathWatch}

theorem find?_setObservation (s : Store) (id j : ObservationId) (o : Observation) :
    (s.setObservation id o).observations.find? j
      = if j = id then some o else s.observations.find? j := by
  rw [setObservation, Dict.find?_insert_eq_ite]

theorem find?_putRelinked (s : Store) (id : ObservationId) (o : Observation) (p : PathWatch)
    (last : Option Value) :
    (s.putRelinked id o p last).observations.find? id = some (s.relinked id o p last) := by
  rw [putRelinked, find?_setObservation, if_pos rfl]

theorem links_of_holder (hp : o.holder = some p) : o.links = p.links := by
  rw [Observation.links, hp]
  rfl

theorem find?_putRelinked_of_ne (last : Option Value) {j : ObservationId} (hj : j ≠ id) :
    (s.putRelinked id o p last).observations.find? j = s.observations.find? j := by
  rw [putRelinked, find?_setObservation, if_neg hj]
  rcases relink_cases s id p with ⟨-, heq⟩ | R
  · rw [heq]
  · rw [R.observations]

theorem progress_putRelinked_of_eq (W : s.Wired) (ho : s.observations.find? id = some o)
    (hp : o.holder = some p) (heq : s.relink id p = (p, s)) (last : Option Value) :
    Progress s (s.putRelinked id o p last) id := by
  have hsub : (s.relinked id o p last).subscriptions = o.subscriptions := by
    rw [Observation.subscriptions, Observation.subscriptions, links_of_holder hp, relinked, heq]
    rfl
  have hhook : (s.relinked id o p last).hooks s.heap id = o.hooks s.heap id := by
    have hhooks : o.linkHooks s.heap id = s.heap.linkPlan id 0 p.chain p.path.steps := by
      rw [Observation.linkHooks, hp]
      rfl
    rw [Observation.hooks, Observation.hooks, hhooks, relinked, heq]
    rfl
  have hput : s.putRelinked id o p last = s.setObservation id (s.relinked id o p last) := by
    rw [putRelinked, heq]
  refine W.replace (Rewired.refl s) (by simp) (by simp) (by rw [hput]; rfl)
    (by rw [hput]; rfl) (by rw [hput]; rfl) (fun j hj => find?_putRelinked_of_ne last hj) ?_ ?_
  · intro o' ho'
    rw [find?_putRelinked] at ho'
    cases ho'
    rw [hput, hsub]
    exact hhook ▸ W.attached id o ho
  · intro sub ob hob hid
    refine ⟨_, (find?_putRelinked s id o p last), ?_⟩
    rw [hsub]
    rw [hput] at hob
    exact W.mem_subscriptions ho hob hid

theorem progress_putRelinked_of_rewired (W : s.Wired) (ho : s.observations.find? id = some o)
    (hp : o.holder = some p) (last : Option Value)
    (R : Rewired s (s.relink id p).2 p.links (s.relink id p).1.links
      (s.heap.linkPlan id 0 (s.heap.chain p.root p.path) p.path.steps)) :
    Progress s (s.putRelinked id o p last) id := by
  have hlinks : o.links = p.links := links_of_holder hp
  have hc := (W.attached_links_content ho).2
  have hheap : (s.putRelinked id o p last).heap = s.heap := heap_relink s id p
  have hsub : (s.relinked id o p last).subscriptions
      = (s.relink id p).1.links ++ o.content.toList := rfl
  have hhook : (s.relinked id o p last).hooks s.heap id
      = s.heap.linkPlan id 0 (s.heap.chain p.root p.path) p.path.steps ++ o.contentHooks id := by
    rw [Observation.hooks, relinked, relink_fst]
    rfl
  refine W.replace R ?_ ?_ hheap R.nextObservation rfl
    (fun j hj => find?_putRelinked_of_ne last hj) ?_ ?_
  · intro sub hm ob hob
    exact W.observation_of_mem ho (List.mem_append_left _ (hlinks ▸ hm)) hob
  · intro hook hm
    obtain ⟨k, c, step, -, -, -, rfl⟩ := Heap.mem_linkPlan.1 hm
    rfl
  · intro o' ho'
    rw [find?_putRelinked] at ho'
    cases ho'
    rw [hheap, hsub, hhook]
    refine R.attached.append (R.keeps hc fun sub hm hn => ?_)
    exact W.disjoint_links_content ho sub (hlinks ▸ hn) hm
  · intro sub ob hob hid
    refine ⟨_, find?_putRelinked s id o p last, ?_⟩
    rw [hsub]
    rcases R.mem_of_observer? hob with hn | ⟨hn, hob⟩
    · exact List.mem_append_left _ hn
    · refine List.mem_append_right _ ?_
      have hm := W.mem_subscriptions ho hob hid
      rw [Observation.subscriptions, hlinks] at hm
      exact (List.mem_append.1 hm).resolve_left hn

theorem progress_putRelinked (W : s.Wired) (ho : s.observations.find? id = some o)
    (hp : o.holder = some p) (last : Option Value) :
    Progress s (s.putRelinked id o p last) id := by
  rcases relink_cases s id p with ⟨-, heq⟩ | R
  · exact progress_putRelinked_of_eq W ho hp heq last
  · exact progress_putRelinked_of_rewired W ho hp last R

theorem continues_relinked (s : Store) (id : ObservationId) (hp : o.holder = some p)
    (last : Option Value) : o.Continues (s.relinked id o p last) where
  channel := rfl
  watch := rfl
  kind := rfl
  subject := by
    rw [relinked, relink_fst]
    simp only [Observation.subject, hp]

theorem rewired_moveContent (W : s.Wired) (ho : s.observations.find? id = some o)
    (new : Option Value) :
    Rewired s ((s.subscribeContent id o.kind new).2.unsubscribeAll o.content.toList)
      o.content.toList (s.subscribeContent id o.kind new).1.toList
      ((s.heap.contentOf? o.kind new).toList.map (·, .content id)) := by
  have R := Rewired.subscribeContent s id o.kind new
  have T := R.trans (Rewired.unsubscribeAll _ o.content.toList) fun sub hm hn => by
    obtain ⟨hook, -, -, hob⟩ := (W.attached_links_content ho).2.exists_hook hm
    exact Nat.not_le_of_lt (lt_of_observer? hob) (R.fresh sub hn)
  simpa using T

theorem find?_moveContent (s : Store) (id : ObservationId) (o : Observation) (new : Option Value) :
    (s.moveContent id o new).observations.find? id
      = some { o with content := (s.subscribeContent id o.kind new).1 } := by
  rw [moveContent, find?_setObservation, if_pos rfl]

theorem progress_moveContent (W : s.Wired) (ho : s.observations.find? id = some o)
    (new : Option Value) : Progress s (s.moveContent id o new) id := by
  have R := rewired_moveContent W ho new
  obtain ⟨hl, hc⟩ := W.attached_links_content ho
  have hheap : (s.moveContent id o new).heap = s.heap := R.heap
  refine W.replace R ?_ ?_ hheap R.nextObservation rfl ?_ ?_ ?_
  · intro sub hm ob hob
    exact W.observation_of_mem ho (List.mem_append_right _ hm) hob
  · intro hook hm
    obtain ⟨c, -, rfl⟩ := List.mem_map.1 hm
    rfl
  · intro j hj
    rw [moveContent, find?_setObservation, if_neg hj, R.observations]
  · intro o' ho'
    rw [find?_moveContent] at ho'
    cases ho'
    rw [hheap]
    refine (R.keeps hl (W.disjoint_links_content ho)).append ?_
    rw [Observation.contentHooks, container_subscribeContent]
    exact R.attached
  · intro sub ob hob hid
    refine ⟨_, find?_moveContent s id o new, ?_⟩
    rcases R.mem_of_observer? hob with hn | ⟨hn, hob⟩
    · exact List.mem_append_right _ hn
    · exact List.mem_append_left _
        ((List.mem_append.1 (W.mem_subscriptions ho hob hid)).resolve_right hn)

theorem followCollection_spec (W : s.Wired) (ho : s.observations.find? id = some o)
    (hp : o.holder = some p) (hk : o.kind ≠ .scalar) (old new : Option Value)
    (hold : o.content.map (·.container) = s.heap.contentOf? o.kind old) :
    Progress s (s.followCollection id o old new) id ∧
      ∃ o', (s.followCollection id o old new).observations.find? id = some o' ∧
        o.Continues o' ∧ o'.holder = some p ∧
        o'.content.map (·.container) = s.heap.contentOf? o.kind new ∧
        (Value.sameOption old new = true ∧ o'.content = o.content ∨
          (s.followCollection id o old new).Announces o.channel o.watch) := by
  rw [followCollection_eq, handleOf?_eq_contentOf? s hk]
  split
  · next h =>
    obtain ⟨hsome, heq⟩ := h
    obtain ⟨c, hc⟩ := Option.isSome_iff_exists.1 hsome
    have hnew := Heap.eq_ref_of_contentOf? hc
    have hlast := Heap.eq_ref_of_contentOf? ((hold.symm.trans heq.symm).trans hc)
    refine ⟨.refl W id, o, ho, .refl o, hp, heq.symm, .inl ⟨?_, rfl⟩⟩
    rw [hlast, hnew]
    exact Value.sameOption_refl _
  · have hmove : ∃ t, t = (if s.heap.contentOf? o.kind new = o.content.map (·.container) then s
        else s.moveContent id o new) ∧ Progress s t id ∧
          ∃ o', t.observations.find? id = some o' ∧ o.Continues o' ∧ o'.holder = some p ∧
            o'.content.map (·.container) = s.heap.contentOf? o.kind new ∧
            (Value.sameOption old new = true → o'.content = o.content) := by
      split
      · next heq => exact ⟨s, rfl, .refl W id, o, ho, .refl o, hp, heq.symm, fun _ => rfl⟩
      · next hne =>
        refine ⟨_, rfl, progress_moveContent W ho new, _, find?_moveContent s id o new,
          ⟨rfl, rfl, rfl, ?_⟩, hp, container_subscribeContent s id o.kind new, ?_⟩
        · simp only [Observation.subject, hp]
        · intro hs
          exact absurd (hold.trans (s.heap.contentOf?_congr o.kind hs)).symm hne
    obtain ⟨t, ht, P, o', ho', hcont, hp', hc', hstay⟩ := hmove
    simp only [← ht]
    split
    · next hs => exact ⟨P, o', ho', hcont, hp', hc', .inl ⟨hs, hstay hs⟩⟩
    · exact ⟨P.report o _, o', ho', hcont, hp', hc', .inr (announces_report t o _)⟩

/-- Looking a path up again leaves it up to date and the observer of a collection where the path
leads; unless it leads to the same value as before, a change has been announced. -/
theorem refresh_spec (W : s.Wired) (ho : s.observations.find? id = some o)
    (hp : o.holder = some p) (ha : o.Anchored s.heap) (direct : Bool) :
    Progress s (s.refresh id direct) id ∧
      ∃ o' p', (s.refresh id direct).observations.find? id = some o' ∧ o.Continues o' ∧
        o'.holder = some p' ∧ p'.UpToDate s.heap ∧ o'.Anchored s.heap ∧
        (Value.sameOption p.last (s.heap.lookup? p.root p.path) = true ∧
            o'.content = o.content ∨
          (s.refresh id direct).Announces o.channel o.watch) := by
  have hput := fun last => progress_putRelinked W ho hp last
  have hfind := fun last => find?_putRelinked s id o p last
  have hcont := fun last => continues_relinked s id hp last
  have hholder : ∀ last, (s.relinked id o p last).holder
      = some ⟨p.root, p.path, (s.relink id p).1.links, s.heap.chain p.root p.path, last⟩ := by
    intro last
    rw [relinked, relink_fst]
  have hanchored := ha p hp
  simp only [refresh_eq ho hp]
  split
  · split
    · next hk =>
      refine ⟨(hput _).report _ _, _, _, hfind _, hcont _, hholder _,
        ⟨rfl, Value.sameOption_refl _⟩, ?_, .inr (announces_report _ _ _)⟩
      intro p' hp'
      have hscalar : (s.relinked id o p (s.heap.lookup? p.root p.path)).kind = .scalar := hk
      rw [hscalar, Heap.contentOf?_scalar]
      rw [hk, Heap.contentOf?_scalar] at hanchored
      exact hanchored
    · next hk =>
      have hheap := (hput (s.heap.lookup? p.root p.path)).heap
      obtain ⟨P, o', ho', hcont', hp', hc', hnews⟩ :=
        followCollection_spec (hput _).wired (hfind _) (hholder _) hk p.last
          (s.heap.lookup? p.root p.path) (hheap ▸ hanchored)
      refine ⟨(hput _).trans P, o', _, ho', (hcont _).trans hcont', hp',
        ⟨rfl, Value.sameOption_refl _⟩, ?_, hnews⟩
      intro p'' hp''
      cases hp'.symm.trans hp''
      rw [hc', hheap, hcont'.kind]
  · next hsame =>
    have hs : Value.sameOption p.last (s.heap.lookup? p.root p.path) = true := by
      simpa using (not_or.1 hsame).2
    refine ⟨hput _, _, _, hfind _, hcont _, hholder _, ⟨rfl, hs⟩, ?_, .inl ⟨hs, rfl⟩⟩
    intro p' hp'
    cases (hholder p.last).symm.trans hp'
    exact hanchored

end Observation

end Store

end ReactivePage
