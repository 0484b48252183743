import ReactivePage.Proofs.Watch.Follow

/-!
What a write does to the observations.

`Consistent` is the state between two operations: every path stands where it leads. A write
disturbs it and the dispatch restores it, observer by observer: `Midway` says what holds between
two deliveries, when some observers of the written container are still pending.
-/

namespace ReactivePage

namespace Store

/-- Every observation stands where its path leads. -/
structure Consistent (s : Store) : Prop where
  wired : s.Wired
  upToDate : ∀ id o p, s.observations.find? id = some o → o.holder = some p → p.UpToDate s.heap
  anchored : ∀ id o, s.observations.find? id = some o → o.Anchored s.heap

theorem consistent_empty : empty.Consistent where
  wired := wired_empty
  upToDate := by
    intro id o p ho
    cases ho
  anchored := by
    intro id o ho
    cases ho

/-- A path is up to date and has announced what it saw, or its links still wait for the event. -/
def Awaits (t : Store) (h : Heap) (c : Handle) (e : Event) (pending : List (Nat × Observer))
    (id : ObservationId) (o₀ o : Observation) : Prop :=
  ∀ p₀, o₀.holder = some p₀ →
    (o.holder = some p₀ ∧ ∀ n i step, t.observer? ⟨c, n⟩ = some (.link id i) →
      p₀.path.steps[i]? = some step → e.touches step = true → (n, .link id i) ∈ pending) ∨
    (∃ p, o.holder = some p ∧ p.UpToDate h) ∧
      (Value.sameOption p₀.last (h.lookup? p₀.root p₀.path) = true ∨
        t.Announces o.channel o.watch)

def AwaitsContent (t : Store) (c : Handle) (pending : List (Nat × Observer)) (id : ObservationId)
    (o₀ o : Observation) : Prop :=
  ∀ n, o₀.content = some ⟨c, n⟩ →
    (o.content = some ⟨c, n⟩ ∧ (n, .content id) ∈ pending) ∨ t.Announces o.channel o.watch

/-- Between two deliveries of an event at a container. -/
structure Midway (s : Store) (h : Heap) (c : Handle) (e : Event) (pending : List (Nat × Observer))
    (t : Store) : Prop where
  wired : t.Wired
  heap : t.heap = h
  nextObservation : t.nextObservation = s.nextObservation
  old : ∀ x ∈ pending, x.1 < t.nextSubscription c ∧
    ∀ ob, t.observer? ⟨c, x.1⟩ = some ob → ob = x.2
  known : ∀ id o, t.observations.find? id = some o → ∃ o₀, s.observations.find? id = some o₀
  followed : ∀ id o₀, s.observations.find? id = some o₀ →
    ∃ o, t.observations.find? id = some o ∧ o₀.Continues o ∧ o.Anchored h ∧
      t.Awaits h c e pending id o₀ o ∧ t.AwaitsContent c pending id o₀ o

namespace Midway

variable {s t t' : Store} {h : Heap} {c : Handle} {e : Event} {x : Nat × Observer}
  {pending : List (Nat × Observer)} {j : ObservationId}

theorem advance (M : Midway s h c e (x :: pending) t) (hx : x.2.observation = j)
    (P : Progress t t' j) (hs : ∀ k, Sends k t t')
    (hknown : ∀ o', t'.observations.find? j = some o' → ∃ o, t.observations.find? j = some o)
    (hj : ∀ o₀ o, t.observations.find? j = some o → o₀.Continues o → o.Anchored h →
      t.Awaits h c e (x :: pending) j o₀ o → t.AwaitsContent c (x :: pending) j o₀ o →
      ∃ o', t'.observations.find? j = some o' ∧ o₀.Continues o' ∧ o'.Anchored h ∧
        t'.Awaits h c e pending j o₀ o' ∧ t'.AwaitsContent c pending j o₀ o') :
    Midway s h c e pending t' where
  wired := P.wired
  heap := P.heap.trans M.heap
  nextObservation := P.nextObservation.trans M.nextObservation
  old := by
    intro y hy
    obtain ⟨hlt, hob⟩ := M.old y (List.mem_cons_of_mem _ hy)
    exact ⟨Nat.lt_of_lt_of_le hlt (P.later c), fun ob h' => hob ob (P.places ⟨c, y.1⟩ ob hlt h')⟩
  known := by
    intro id o ho
    by_cases hid : id = j
    · subst hid
      obtain ⟨o', ho'⟩ := hknown o ho
      exact M.known id o' ho'
    · rw [P.others id hid] at ho
      exact M.known id o ho
  followed := by
    intro id o₀ ho₀
    obtain ⟨o, ho, hcont, ha, hawaits, hcontent⟩ := M.followed id o₀ ho₀
    by_cases hid : id = j
    · subst hid
      exact hj o₀ o ho hcont ha hawaits hcontent
    · refine ⟨o, (P.others id hid).trans ho, hcont, ha, fun p₀ hp₀ => ?_, fun n hn => ?_⟩
      · rcases hawaits p₀ hp₀ with ⟨hp, hlinks⟩ | ⟨hp, hnews⟩
        · refine .inl ⟨hp, fun n i step hob hstep htouch => ?_⟩
          have hold := P.foreign ⟨c, n⟩ (.link id i) hid hob
          refine (List.mem_cons.1 (hlinks n i step hold hstep htouch)).resolve_left ?_
          rintro rfl
          exact hid hx
        · exact .inr ⟨hp, hnews.imp_right fun ha => ha.mono (hs _)⟩
      · rcases hcontent n hn with ⟨hc, hm⟩ | ha
        · refine .inl ⟨hc, (List.mem_cons.1 hm).resolve_left ?_⟩
          rintro rfl
          exact hid hx
        · exact .inr (ha.mono (hs _))

theorem skip (M : Midway s h c e (x :: pending) t)
    (hlink : ∀ id i o p step, x.2 = .link id i → t.observer? ⟨c, x.1⟩ = some x.2 →
      t.observations.find? id = some o → o.holder = some p → p.path.steps[i]? = some step →
      e.touches step = false)
    (hcontent : ∀ id, x.2 = .content id → t.observer? ⟨c, x.1⟩ = none) :
    Midway s h c e pending t := by
  refine M.advance rfl (.refl M.wired _) (fun k => .refl t) (fun o ho => ⟨o, ho⟩) ?_
  intro o₀ o ho hcont ha hawaits hc
  refine ⟨o, ho, hcont, ha, fun p₀ hp₀ => ?_, fun n hn => ?_⟩
  · refine (hawaits p₀ hp₀).imp_left fun ⟨hp, hlinks⟩ => ⟨hp, fun n i step hob hstep htouch => ?_⟩
    refine (List.mem_cons.1 (hlinks n i step hob hstep htouch)).resolve_left fun heq => ?_
    have hx : x.2 = .link x.2.observation i := (congrArg Prod.snd heq).symm
    have hn : x.1 = n := (congrArg Prod.fst heq).symm
    rw [hn, hx] at hlink
    rw [hlink _ i o p₀ step rfl hob ho hp hstep] at htouch
    cases htouch
  · refine (hc n hn).imp_left fun ⟨hco, hm⟩ =>
      ⟨hco, (List.mem_cons.1 hm).resolve_left fun heq => ?_⟩
    have hx : x.2 = .content x.2.observation := (congrArg Prod.snd heq).symm
    have hn : x.1 = n := (congrArg Prod.fst heq).symm
    have hmem : (⟨c, n⟩ : Subscription) ∈ o.subscriptions := by
      rw [Observation.subscriptions, hco]
      simp
    obtain ⟨hook, -, -, hob⟩ := (M.wired.attached _ o ho).exists_hook hmem
    have hnone := hcontent _ hx
    rw [hn, hob] at hnone
    cases hnone

theorem refresh (M : Midway s h c e (x :: pending) t) {i : Nat} (hx : x.2 = .link j i)
    {o : Observation} {p : PathWatch} (ho : t.observations.find? j = some o)
    (hp : o.holder = some p) (ha : o.Anchored h) (direct : Bool) :
    Midway s h c e pending (t.refresh j direct) := by
  have hheap := M.heap
  obtain ⟨P, o', p', ho', hcont', hp', hup, ha', hnews⟩ :=
    refresh_spec M.wired ho hp (hheap.symm ▸ ha) direct
  rw [hheap] at hup ha' hnews
  have hsends : ∀ k, Sends k t (t.refresh j direct) := fun k => .refresh t j direct
  refine M.advance (by rw [hx]; rfl) P hsends (fun _ _ => ⟨o, ho⟩) ?_
  intro o₀ o₁ ho₁ hcont _ hawaits hcontent
  cases ho.symm.trans ho₁
  have hsame : ∀ {t₁ : Store}, t₁.Announces o.channel o.watch → t₁.Announces o'.channel o'.watch :=
    fun hann => hcont'.channel.symm ▸ hcont'.watch.symm ▸ hann
  refine ⟨o', ho', hcont.trans hcont', ha', fun p₀ hp₀ => .inr ⟨⟨p', hp', hup⟩, ?_⟩, fun n hn => ?_⟩
  · rcases hawaits p₀ hp₀ with ⟨hp₁, -⟩ | ⟨-, hnews₁⟩
    · cases hp.symm.trans hp₁
      exact hnews.imp And.left hsame
    · exact hnews₁.imp_right fun ha => hsame (ha.mono (hsends _))
  · rcases hcontent n hn with ⟨hco, hm⟩ | hann
    · rcases hnews with ⟨-, hstay⟩ | hann
      · refine .inl ⟨hstay.trans hco, (List.mem_cons.1 hm).resolve_left fun heq => ?_⟩
        rw [← heq] at hx
        cases hx
      · exact .inr (hsame hann)
    · exact .inr (hsame (hann.mono (hsends _)))

theorem report (M : Midway s h c e (x :: pending) t) (hx : x.2 = .content j) {o : Observation}
    (ho : t.observations.find? j = some o) (change : Change) :
    Midway s h c e pending (t.report o change) := by
  have hsends : ∀ k, Sends k t (t.report o change) := fun k => .report t o change
  refine M.advance (by rw [hx]; rfl) ((Progress.refl M.wired j).report o change) hsends
    (fun o ho => ⟨o, ho⟩) ?_
  intro o₀ o₁ ho₁ hcont ha hawaits hcontent
  cases ho.symm.trans ho₁
  refine ⟨o, ho, hcont, ha, fun p₀ hp₀ => ?_, fun n hn => .inr (announces_report t o change)⟩
  rcases hawaits p₀ hp₀ with ⟨hp, hlinks⟩ | ⟨hp, hnews⟩
  · refine .inl ⟨hp, fun n i step hob hstep htouch => ?_⟩
    refine (List.mem_cons.1 (hlinks n i step hob hstep htouch)).resolve_left fun heq => ?_
    rw [← heq] at hx
    cases hx
  · exact .inr ⟨hp, hnews.imp_right fun ha => ha.mono (hsends _)⟩

end Midway

theorem Wired.holder_of_link {s : Store} (W : s.Wired) {sub : Subscription} {id : ObservationId}
    {i : Nat} (hob : s.observer? sub = some (.link id i)) :
    ∃ o p step, s.observations.find? id = some o ∧ o.holder = some p ∧
      p.path.steps[i]? = some step := by
  obtain ⟨o, ho, hm⟩ := W.served sub _ hob
  obtain ⟨hook, hhook, -, hs⟩ := (W.attached _ o ho).exists_hook hm
  have hlink : hook.2 = .link id i := Option.some.inj (hs.symm.trans hob)
  rcases List.mem_append.1 hhook with hhook | hhook
  · rw [Observation.linkHooks] at hhook
    cases hp : o.holder with
    | none => simp [hp] at hhook
    | some p =>
      rw [hp] at hhook
      obtain ⟨k, c, step, -, hstep, -, rfl⟩ := Heap.mem_linkPlan.1 hhook
      cases hlink
      exact ⟨o, p, step, ho, hp, by rwa [Nat.zero_add]⟩
  · obtain ⟨c, -, rfl⟩ := List.mem_map.1 hhook
    cases hlink

theorem Midway.deliver {s t : Store} {h : Heap} {c : Handle} {e : Event} {x : Nat × Observer}
    {pending : List (Nat × Observer)} (M : Midway s h c e (x :: pending) t) :
    Midway s h c e pending
      (if (t.observersOf c).contains x.1 then t.deliver e x.2 else t) := by
  split
  · next hin =>
    obtain ⟨ob, hob⟩ : ∃ ob, t.observer? ⟨c, x.1⟩ = some ob := Dict.contains_iff.1 hin
    have hob' := (M.old x List.mem_cons_self).2 ob hob
    subst hob'
    cases hx : x.2 with
    | link id i =>
      rw [hx] at hob
      obtain ⟨o, p, step, ho, hp, hstep⟩ := M.wired.holder_of_link hob
      simp only [Store.deliver, ho, hp, Option.bind_some, hstep, deliverLink_eq]
      split
      · have ha : o.Anchored h := by
          obtain ⟨o₀, ho₀⟩ := M.known id o ho
          obtain ⟨o₁, ho₁, -, ha, -⟩ := M.followed id o₀ ho₀
          cases ho.symm.trans ho₁
          exact ha
        exact M.refresh hx ho hp ha _
      · next htouch =>
        refine M.skip ?_ ?_
        · intro id' i' o' p' step' hx' _ ho' hp' hstep'
          cases hx.symm.trans hx'
          cases ho.symm.trans ho'
          cases hp.symm.trans hp'
          cases hstep.symm.trans hstep'
          simpa using htouch
        · intro id' hx'
          cases hx.symm.trans hx'
    | content id =>
      rw [hx] at hob
      obtain ⟨o, ho, -⟩ := M.wired.served _ _ hob
      obtain ⟨change, hchange⟩ := deliverContent_eq t o e
      have ho' : t.observations.find? id = some o := ho
      simp only [Store.deliver, ho', hchange]
      exact M.report hx ho' change
  · next hin =>
    have hnone : t.observer? ⟨c, x.1⟩ = none := by
      cases hob : t.observer? ⟨c, x.1⟩ with
      | none => rfl
      | some ob => exact absurd (Dict.contains_iff.2 ⟨ob, hob⟩) hin
    refine M.skip ?_ fun _ _ => hnone
    intro id i o p step _ hob
    rw [hnone] at hob
    cases hob

theorem Midway.run {s t : Store} {h : Heap} {c : Handle} {e : Event}
    {pending : List (Nat × Observer)} (M : Midway s h c e pending t) :
    Midway s h c e [] (pending.foldl
      (fun t x => if (t.observersOf c).contains x.1 then t.deliver e x.2 else t) t) := by
  induction pending generalizing t with
  | nil => exact M
  | cons x rest ih => exact ih M.deliver

end Store

theorem Heap.linkPlan_congr {h h' : Heap} {chain : List Handle}
    (hc : ∀ c ∈ chain, ∀ step, h'.accepts c step = h.accepts c step) (id : ObservationId) (i : Nat)
    (steps : List Step) : h'.linkPlan id i chain steps = h.linkPlan id i chain steps := by
  induction chain generalizing i steps with
  | nil => rfl
  | cons c chain ih =>
    rw [List.forall_mem_cons] at hc
    cases steps with
    | nil => rfl
    | cons step steps => simp only [linkPlan, hc.1 step, ih hc.2]

namespace Heap.Edit

variable {h h' : Heap} {c : Handle} {e : Event}

theorem hooks_eq (E : Edit h h' c e) (o : Observation) (id : ObservationId) :
    o.hooks h' id = o.hooks h id := by
  rw [Observation.hooks, Observation.hooks, Observation.linkHooks, Observation.linkHooks]
  cases o.holder with
  | none => rfl
  | some p =>
    have hplan := Heap.linkPlan_congr (fun d (_ : d ∈ p.chain) step => E.accepts d step) id 0
      p.path.steps
    simp only [Option.map_some, Option.getD_some, hplan]

theorem contentOf?_eq (E : Edit h h' c e) (kind : Kind) (v : Option Value) :
    h'.contentOf? kind v = h.contentOf? kind v := by
  cases v with
  | none => rfl
  | some v =>
    cases v with
    | scalar j => rfl
    | ref d => rw [contentOf?_ref, contentOf?_ref, E.kind_value]

end Heap.Edit

namespace Store

theorem Consistent.midway {s : Store} {h : Heap} {c : Handle} {e : Event} (C : s.Consistent)
    (E : Heap.Edit s.heap h c e) :
    Midway s h c e (s.observersOf c).entries.toList { s with heap := h } where
  wired := by
    constructor
    · intro id o ho
      rw [E.hooks_eq]
      exact C.wired.attached id o ho
    · exact C.wired.served
  heap := rfl
  nextObservation := rfl
  old := by
    intro x hx
    refine ⟨(s.observersOf c).bound x hx, fun ob hob => ?_⟩
    exact Option.some.inj (hob.symm.trans (Dict.mem_toList.1 hx))
  known := fun id o ho => ⟨o, ho⟩
  followed := by
    intro id o ho
    refine ⟨o, ho, .refl o, ?_, fun p₀ hp₀ => .inl ⟨hp₀, fun n i step hob _ _ => ?_⟩,
      fun n hn => ?_⟩
    · intro p hp
      rw [E.contentOf?_eq]
      exact C.anchored id o ho p hp
    · exact Dict.mem_toList.2 hob
    · refine .inl ⟨hn, ?_⟩
      have hmem : (⟨c, n⟩ : Subscription) ∈ o.content.toList := by rw [hn]; simp
      obtain ⟨hook, hhook, -, hob⟩ := (C.wired.attached_links_content ho).2.exists_hook hmem
      obtain ⟨d, -, rfl⟩ := List.mem_map.1 hhook
      exact Dict.mem_toList.2 hob

theorem Midway.route_untouched {s t : Store} {h : Heap} {c : Handle} {e : Event}
    (M : Midway s h c e [] t) (E : Heap.Edit s.heap h c e) {id : ObservationId} {o : Observation}
    {p : PathWatch} (ho : t.observations.find? id = some o) (hp : o.holder = some p)
    (hchain : p.chain = s.heap.chain p.root p.path)
    (hlinks : ∀ n i step, t.observer? ⟨c, n⟩ = some (.link id i) →
      p.path.steps[i]? = some step → e.touches step = false) :
    ∀ r ∈ s.heap.route p.root p.path, r.1 = c → e.touches r.2 = false := by
  rintro ⟨d, step⟩ hr rfl
  obtain ⟨i, hi⟩ := List.mem_iff_getElem?.1 hr
  obtain ⟨hd, hstep⟩ := List.getElem?_zip_eq_some.1 hi
  by_contra htouch
  have haccept := E.accepted step (by simpa using htouch)
  have hhook : (d, Observer.link id i) ∈ o.hooks t.heap id := by
    refine List.mem_append_left _ ?_
    rw [Observation.linkHooks, hp]
    refine Heap.mem_linkPlan.2 ⟨i, d, step, ?_, hstep, ?_, by rw [Nat.zero_add]⟩
    · rw [hchain]
      exact hd
    · rw [M.heap, E.accepts]
      exact haccept
  obtain ⟨⟨d', n⟩, -, rfl, hob⟩ := (M.wired.attached id o ho).exists_subscription hhook
  exact htouch (hlinks n i step hob hstep)

/-- After the last delivery every path is up to date, and those that lead elsewhere than before
have announced it. -/
theorem Midway.settled {s t : Store} {h : Heap} {c : Handle} {e : Event} (C : s.Consistent)
    (E : Heap.Edit s.heap h c e) (M : Midway s h c e [] t) {id : ObservationId}
    {o₀ : Observation} (ho₀ : s.observations.find? id = some o₀) :
    ∃ o, t.observations.find? id = some o ∧ o₀.Continues o ∧ o.Anchored h ∧
      (∀ p, o.holder = some p → p.UpToDate h) ∧
      ∀ p₀, o₀.holder = some p₀ →
        Value.sameOption (s.heap.lookup? p₀.root p₀.path) (h.lookup? p₀.root p₀.path) = true ∨
          t.Announces o₀.channel o₀.watch := by
  obtain ⟨o, ho, hcont, ha, hawaits, -⟩ := M.followed id o₀ ho₀
  have hup : ∀ p₀, o₀.holder = some p₀ → (∃ p, o.holder = some p ∧ p.UpToDate h) ∧
      (Value.sameOption p₀.last (h.lookup? p₀.root p₀.path) = true ∨
        t.Announces o.channel o.watch) := by
    intro p₀ hp₀
    rcases (hawaits p₀ hp₀).symm with hsettled | ⟨hp, hlinks⟩
    · exact hsettled
    have U := C.upToDate id o₀ p₀ ho₀ hp₀
    have hroute := M.route_untouched E ho hp U.chain fun n i step hob hstep => by
      by_contra htouch
      simpa using hlinks n i step hob hstep (by simpa using htouch)
    have hlookup := E.lookup?_eq hroute
    have hlast : Value.sameOption p₀.last (h.lookup? p₀.root p₀.path) = true := by
      rw [hlookup]
      exact U.last
    exact ⟨⟨p₀, hp, U.chain.trans (E.chain_eq hroute).symm, hlast⟩, .inl hlast⟩
  refine ⟨o, ho, hcont, ha, fun p hp => ?_, fun p₀ hp₀ => ?_⟩
  · cases hp₀ : o₀.holder with
    | none =>
      have hsubject := hcont.subject
      simp only [Observation.subject, hp₀, hp] at hsubject
      cases hsubject
    | some p₀ =>
      obtain ⟨⟨p', hp', hup'⟩, -⟩ := hup p₀ hp₀
      cases hp.symm.trans hp'
      exact hup'
  · obtain ⟨-, hs | hann⟩ := hup p₀ hp₀
    · exact .inl (Value.sameOption_trans
        (Value.sameOption_symm (C.upToDate id o₀ p₀ ho₀ hp₀).last) hs)
    · rw [hcont.channel, hcont.watch] at hann
      exact .inr hann

structure Retains (s t : Store) : Prop where
  nextObservation : t.nextObservation = s.nextObservation
  known : ∀ id o, t.observations.find? id = some o → ∃ o₀, s.observations.find? id = some o₀
  continues : ∀ id o₀, s.observations.find? id = some o₀ →
    ∃ o, t.observations.find? id = some o ∧ o₀.Continues o

theorem Retains.refl (s : Store) : Retains s s where
  nextObservation := rfl
  known := fun _ o ho => ⟨o, ho⟩
  continues := fun _ o ho => ⟨o, ho, .refl o⟩

end Store

structure Observation.Unmoved (o : Observation) (h h' : Heap) : Prop where
  value : ∀ p, o.holder = some p →
    Value.sameOption (h.lookup? p.root p.path) (h'.lookup? p.root p.path) = true
  content : ∀ sub, o.content = some sub → h'.contents sub.container = h.contents sub.container

theorem Observation.Unmoved.refl (o : Observation) (h : Heap) : o.Unmoved h h where
  value := fun _ _ => Value.sameOption_refl _
  content := fun _ _ => rfl

namespace Store

structure Upkeep (s t : Store) : Prop where
  consistent : t.Consistent
  retains : Retains s t
  unmoved : ∀ id o, s.observations.find? id = some o →
    o.Unmoved s.heap t.heap ∨ t.Announces o.channel o.watch

theorem Upkeep.refl {s : Store} (C : s.Consistent) : Upkeep s s where
  consistent := C
  retains := .refl s
  unmoved := fun _ o _ => .inl (.refl o s.heap)

theorem Midway.upkeep {s t : Store} {h : Heap} {c : Handle} {e : Event} (M : Midway s h c e [] t)
    (C : s.Consistent) (E : Heap.Edit s.heap h c e) : Upkeep s t where
  consistent := by
    refine ⟨M.wired, ?_, ?_⟩
    · intro id o p ho hp
      obtain ⟨o₀, ho₀⟩ := M.known id o ho
      obtain ⟨o', ho', -, -, hup, -⟩ := M.settled C E ho₀
      cases ho.symm.trans ho'
      rw [M.heap]
      exact hup p hp
    · intro id o ho
      obtain ⟨o₀, ho₀⟩ := M.known id o ho
      obtain ⟨o', ho', -, ha, -, -⟩ := M.settled C E ho₀
      cases ho.symm.trans ho'
      rw [M.heap]
      exact ha
  retains := by
    refine ⟨M.nextObservation, M.known, ?_⟩
    intro id o₀ ho₀
    obtain ⟨o, ho, hcont, -⟩ := M.settled C E ho₀
    exact ⟨o, ho, hcont⟩
  unmoved := by
    intro id o₀ ho₀
    by_cases hann : t.Announces o₀.channel o₀.watch
    · exact .inr hann
    · left
      obtain ⟨o, ho, hcont, -, -, hnews⟩ := M.settled C E ho₀
      rw [M.heap]
      refine ⟨fun p₀ hp₀ => (hnews p₀ hp₀).resolve_right hann, fun sub hsub => ?_⟩
      refine E.frame _ fun hc => hann ?_
      obtain ⟨o', ho', hcont', -, -, hcontent⟩ := M.followed id o₀ ho₀
      rcases hcontent sub.id (by rw [hsub, ← hc]) with ⟨-, hm⟩ | h
      · cases hm
      · rwa [hcont'.channel, hcont'.watch] at h

theorem Consistent.write {s : Store} (C : s.Consistent) (w : Write) :
    Upkeep s (s.write w) ∧ (s.write w).heap = (s.heap.write w).1 := by
  rcases hw : s.heap.write w with ⟨h, e | e⟩
  · rw [write_eq_of_none hw]
    exact ⟨.refl C, (Heap.eq_of_write_eq_none hw).symm⟩
  · rw [write_eq_of_some hw]
    have E := Heap.edit_of_write hw
    have M := (C.midway E).run
    have hrun : ({ s with heap := h } : Store).notify w.target e
        = (s.observersOf w.target).entries.toList.foldl
          (fun t x => if (t.observersOf w.target).contains x.1 then t.deliver e x.2 else t)
          { s with heap := h } := rfl
    rw [← hrun] at M
    exact ⟨M.upkeep C E, M.heap⟩

end Store

end ReactivePage
