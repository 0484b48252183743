import ReactivePage.Proofs.Watch.Writing

/-!
What a write makes one watch report.

Each observer of the written container has its turn, and a turn concerns one observation. The
turns of others leave an observation as it is and say nothing in its name; so an observation with
one place at the container says what it says in that one turn.
-/

namespace ReactivePage

def Event.change (e : Event) (h : Heap) : Change :=
  match e with
  | .entry key old new => .key key (h.snapshot old) (h.snapshot new)
  | .splice index removed added => .splice index (removed.map h.toJson) added

def Kind.news (kind : Kind) (h : Heap) (old new : Option Value) (direct : Bool) : List Change :=
  match kind with
  | .scalar =>
    if direct = true ∨ ¬ Value.sameOption old new = true then
      [.value (h.snapshot old) (h.snapshot new)]
    else []
  | _ =>
    if Value.sameOption old new = true then []
    else [.replaced (h.snapshot old) (h.snapshot new)]

namespace Kind

variable {kind : Kind} {h : Heap} {old new : Option Value}

theorem news_of_same (hs : Value.sameOption old new = true) : kind.news h old new false = [] := by
  cases kind <;> simp [news, hs]

theorem news_of_ne_scalar (hk : kind ≠ .scalar) (direct : Bool) :
    kind.news h old new direct =
      if Value.sameOption old new = true then []
      else [.replaced (h.snapshot old) (h.snapshot new)] := by
  cases kind with
  | scalar => exact absurd rfl hk
  | sequence => rfl
  | map => rfl

theorem news_scalar {direct : Bool} (hs : direct = true ∨ ¬ Value.sameOption old new = true) :
    Kind.scalar.news h old new direct = [.value (h.snapshot old) (h.snapshot new)] :=
  if_pos hs

end Kind

namespace Observation

def reaction (o : Observation) (h : Heap) (e : Event) : Observer → List Change
  | .link _ i =>
    match o.holder with
    | some p =>
      match p.path.steps[i]? with
      | some step =>
        if e.touches step then
          o.kind.news h p.last (h.lookup? p.root p.path)
            (i + 1 = p.path.steps.length && e.writesSlot step)
        else []
      | none => []
    | none => []
  | .content _ => [e.change h]

def heard (o : Observation) (w : WatchId) (changes : List Change) : List Change :=
  if o.watch = w then changes else []

theorem heard_nil (o : Observation) (w : WatchId) : o.heard w [] = [] := ite_self []

end Observation

namespace Store

def Tells (k : ChannelId) (w : WatchId) (s : Store) (changes : List Change) (t : Store) : Prop :=
  ∃ ns : List Notification, Raises k s (ns.map .change) t ∧
    (ns.filter (·.watch = w)).map (·.change) = changes

namespace Tells

variable {k : ChannelId} {w : WatchId} {s t u : Store} {l m : List Change}

theorem quiet (h : t.channels = s.channels) : Tells k w s [] t := ⟨[], .quiet h, rfl⟩

theorem trans (h : Tells k w s l t) (h' : Tells k w t m u) : Tells k w s (l ++ m) u := by
  obtain ⟨ns, hns, rfl⟩ := h
  obtain ⟨ms, hms, rfl⟩ := h'
  refine ⟨ns ++ ms, ?_, by rw [List.filter_append, List.map_append]⟩
  rw [List.map_append]
  exact hns.trans hms

theorem of_quiet (h : Tells k w t l u) (hc : t.channels = s.channels) : Tells k w s l u :=
  (quiet hc).trans h

theorem report (s : Store) {o : Observation} (hk : o.channel = k) (change : Change) :
    Tells k w s (o.heard w [change]) (s.report o change) := by
  subst hk
  refine ⟨[⟨o.watch, o.label, change⟩], .send s _, ?_⟩
  rw [Observation.heard]
  by_cases hw : o.watch = w
  · simp [hw]
  · simp [hw]

theorem followCollection (id : ObservationId) (o : Observation) {old : Option Value}
    (new : Option Value) (hk : o.channel = k) (hkind : o.kind ≠ .scalar)
    (hold : o.content.map (·.container) = s.heap.contentOf? o.kind old) :
    Tells k w s (o.heard w (if Value.sameOption old new = true then []
      else [.replaced (s.heap.snapshot old) (s.heap.snapshot new)]))
      (s.followCollection id o old new) := by
  rw [followCollection_eq, handleOf?_eq_contentOf? s hkind]
  by_cases hstay : (s.heap.contentOf? o.kind new).isSome = true ∧
      s.heap.contentOf? o.kind new = o.content.map (·.container)
  · rw [if_pos hstay]
    obtain ⟨c, hc⟩ := Option.isSome_iff_exists.1 hstay.1
    have hlast := hold.symm.trans (hstay.2.symm.trans hc)
    rw [Heap.eq_ref_of_contentOf? hc, Heap.eq_ref_of_contentOf? hlast,
      if_pos (Value.sameOption_refl _), Observation.heard_nil]
    exact quiet rfl
  · rw [if_neg hstay]
    have hmove : ∃ t, t = (if s.heap.contentOf? o.kind new = o.content.map (·.container) then s
        else s.moveContent id o new) ∧ t.heap = s.heap ∧ t.channels = s.channels := by
      split
      · exact ⟨s, rfl, rfl, rfl⟩
      · exact ⟨_, rfl, by rw [moveContent_only], channels_moveContent s id o new⟩
    obtain ⟨t, ht, hheap, hchannels⟩ := hmove
    simp only [← ht]
    by_cases hs : Value.sameOption old new = true
    · rw [if_pos hs, if_pos hs, Observation.heard_nil]
      exact quiet hchannels
    · rw [if_neg hs, if_neg hs, ← hheap]
      exact (report t hk _).of_quiet hchannels

theorem refresh {id : ObservationId} {o : Observation} {p : PathWatch}
    (ho : s.observations.find? id = some o) (hp : o.holder = some p) (ha : o.Anchored s.heap)
    (hk : o.channel = k) (direct : Bool) :
    Tells k w s (o.heard w (o.kind.news s.heap p.last (s.heap.lookup? p.root p.path) direct))
      (s.refresh id direct) := by
  have hput := fun last => channels_putRelinked s id o p last
  have hheap : ∀ last, (s.putRelinked id o p last).heap = s.heap := fun _ => heap_relink s id p
  simp only [refresh_eq ho hp]
  generalize s.heap.lookup? p.root p.path = new
  by_cases hnews : direct = true ∨ ¬ Value.sameOption p.last new = true
  · rw [if_pos hnews]
    split
    · next hkind =>
      rw [hkind, Kind.news_scalar hnews, reportValue, hheap]
      exact (report _ hk _).of_quiet (hput _)
    · next hkind =>
      have hhere : (s.relinked id o p new).content.map (·.container)
          = (s.putRelinked id o p new).heap.contentOf? o.kind p.last := by
        rw [hheap]
        exact ha p hp
      have hfollow := followCollection (w := w) id (s.relinked id o p new) new hk hkind hhere
      rw [hheap] at hfollow
      rw [Kind.news_of_ne_scalar hkind]
      exact hfollow.of_quiet (hput _)
  · rw [if_neg hnews]
    obtain ⟨hdirect, hs⟩ := not_or.1 hnews
    rw [(Bool.not_eq_true _).mp hdirect, Kind.news_of_same (not_not.1 hs),
      Observation.heard_nil]
    exact quiet (hput _)

theorem deliver {e : Event} {ob : Observer} {o : Observation}
    (ho : s.observations.find? ob.observation = some o) (ha : o.Anchored s.heap)
    (hk : o.channel = k) : Tells k w s (o.heard w (o.reaction s.heap e ob)) (s.deliver e ob) := by
  have hnone : Tells k w s (o.heard w []) s := by
    rw [Observation.heard_nil]
    exact quiet rfl
  cases ob with
  | content id =>
    have ho' : s.observations.find? id = some o := ho
    have hreport : s.deliverContent o e = s.report o (e.change s.heap) := by cases e <;> rfl
    simp only [Store.deliver, ho', Observation.reaction, hreport]
    exact report s hk _
  | link id i =>
    have ho' : s.observations.find? id = some o := ho
    simp only [Store.deliver, ho', Option.bind_some, Observation.reaction]
    cases hp : o.holder with
    | none => exact hnone
    | some p =>
      cases hstep : p.path.steps[i]? with
      | none => simpa only [hstep] using hnone
      | some step =>
        simp only [hstep, deliverLink_eq]
        split
        · exact refresh ho' hp ha hk _
        · exact hnone

end Tells

theorem Progress.deliver {s : Store} (W : s.Wired) {e : Event} {ob : Observer} {o : Observation}
    (ho : s.observations.find? ob.observation = some o) (ha : o.Anchored s.heap) :
    Progress s (s.deliver e ob) ob.observation := by
  cases ob with
  | content id =>
    have ho' : s.observations.find? id = some o := ho
    obtain ⟨change, hchange⟩ := deliverContent_eq s o e
    simp only [Store.deliver, ho', hchange]
    exact (Progress.refl W id).report o change
  | link id i =>
    have ho' : s.observations.find? id = some o := ho
    simp only [Store.deliver, ho', Option.bind_some, Observer.observation]
    cases hp : o.holder with
    | none => exact .refl W id
    | some p =>
      cases hstep : p.path.steps[i]? with
      | none => simpa only [hstep] using Progress.refl W id
      | some step =>
        simp only [hstep, deliverLink_eq]
        split
        · exact (refresh_spec W ho' hp ha _).1
        · exact .refl W id

theorem Progress.observer?_iff {s t : Store} {j : ObservationId} (P : Progress s t j)
    (W : s.Wired) {sub : Subscription} {ob : Observer} (hne : ob.observation ≠ j) :
    t.observer? sub = some ob ↔ s.observer? sub = some ob := by
  refine ⟨P.foreign sub ob hne, fun hob => ?_⟩
  obtain ⟨o, ho, hm⟩ := W.served sub ob hob
  obtain ⟨hook, hhook, -, hs⟩ := (P.wired.attached _ o ((P.others _ hne).trans ho)).exists_hook hm
  have hid : hook.2.observation ≠ j := by
    rw [Observation.observation_of_mem_hooks hhook]
    exact hne
  rw [hs, ← hob, P.foreign sub hook.2 hid hs]

def turn (e : Event) (c : Handle) (t : Store) (x : Nat × Observer) : Store :=
  if (t.observersOf c).contains x.1 then t.deliver e x.2 else t

/-- What happens leaves an observation and its places alone and says nothing for a watch. -/
structure Spares (id : ObservationId) (k : ChannelId) (w : WatchId) (s t : Store) : Prop where
  observation : t.observations.find? id = s.observations.find? id
  observer : ∀ sub ob, ob.observation = id → (t.observer? sub = some ob ↔ s.observer? sub = some ob)
  tells : Tells k w s [] t

namespace Spares

variable {id : ObservationId} {k : ChannelId} {w : WatchId} {s t u : Store}

theorem refl (s : Store) : Spares id k w s s := ⟨rfl, fun _ _ _ => .rfl, .quiet rfl⟩

theorem trans (h : Spares id k w s t) (h' : Spares id k w t u) : Spares id k w s u where
  observation := h'.observation.trans h.observation
  observer := fun sub ob hob => (h'.observer sub ob hob).trans (h.observer sub ob hob)
  tells := h.tells.trans h'.tells

end Spares

/-- Only one observation reports for a watch. -/
def Voices (s : Store) (k : ChannelId) (w : WatchId) (id : ObservationId) : Prop :=
  ∀ j o, s.observations.find? j = some o → o.channel = k ∧ (o.watch = w ↔ j = id)

section Turns

variable {s t : Store} {h : Heap} {c : Handle} {e : Event} {id : ObservationId} {k : ChannelId}
  {w : WatchId}

theorem Midway.observation_of_turn {x : Nat × Observer} {pending : List (Nat × Observer)}
    (M : Midway s h c e (x :: pending) t) (V : s.Voices k w id)
    (hin : (t.observersOf c).contains x.1 = true) :
    ∃ o, t.observations.find? x.2.observation = some o ∧ o.Anchored t.heap ∧ o.channel = k ∧
      (o.watch = w ↔ x.2.observation = id) := by
  obtain ⟨ob, hob⟩ : ∃ ob, t.observer? ⟨c, x.1⟩ = some ob := Dict.contains_iff.1 hin
  obtain rfl := (M.old x List.mem_cons_self).2 ob hob
  obtain ⟨o, ho, -⟩ := M.wired.served _ _ hob
  obtain ⟨o₀, ho₀⟩ := M.known _ o ho
  obtain ⟨o', ho', hcont, ha, -⟩ := M.followed _ o₀ ho₀
  cases ho.symm.trans ho'
  have hvoice := V _ o₀ ho₀
  rw [← hcont.channel, ← hcont.watch] at hvoice
  exact ⟨o, ho, M.heap.symm ▸ ha, hvoice⟩

theorem Midway.spares_turn {x : Nat × Observer} {pending : List (Nat × Observer)}
    (M : Midway s h c e (x :: pending) t) (V : s.Voices k w id) (hx : x.2.observation ≠ id) :
    Spares id k w t (turn e c t x) := by
  rw [turn]
  split
  · next hin =>
    obtain ⟨o, ho, ha, hk, hw⟩ := M.observation_of_turn V hin
    have P := Progress.deliver M.wired (e := e) ho ha
    have hsilent : o.watch ≠ w := fun heq => hx (hw.1 heq)
    refine ⟨P.others id hx.symm, fun sub ob hob => P.observer?_iff M.wired ?_, ?_⟩
    · rw [hob]
      exact hx.symm
    · have htells := Tells.deliver (w := w) (e := e) ho ha hk
      rwa [Observation.heard, if_neg hsilent] at htells
  · exact .refl t

theorem Midway.tells_turn {x : Nat × Observer} {pending : List (Nat × Observer)}
    (M : Midway s h c e (x :: pending) t) (V : s.Voices k w id) (hx : x.2.observation = id)
    {o : Observation} (ho : t.observations.find? id = some o)
    (hob : t.observer? ⟨c, x.1⟩ = some x.2) :
    Tells k w t (o.reaction h e x.2) (turn e c t x) := by
  have hin : (t.observersOf c).contains x.1 = true := Dict.contains_iff.2 ⟨x.2, hob⟩
  obtain ⟨o', ho', ha, hk, hw⟩ := M.observation_of_turn V hin
  have htells := Tells.deliver (w := w) (e := e) ho' ha hk
  rw [Observation.heard, if_pos (hw.2 hx), M.heap] at htells
  rw [hx] at ho'
  cases ho.symm.trans ho'
  rw [turn, if_pos hin]
  exact htells

theorem Midway.spares {turns pending : List (Nat × Observer)}
    (M : Midway s h c e (turns ++ pending) t) (V : s.Voices k w id)
    (hturns : ∀ x ∈ turns, x.2.observation ≠ id) :
    Midway s h c e pending (turns.foldl (turn e c) t) ∧
      Spares id k w t (turns.foldl (turn e c) t) := by
  -- By induction on the turns, none of which is one of the observation.
  induction turns generalizing t with
  | nil => exact ⟨M, .refl t⟩
  | cons x rest ih =>
    rw [List.forall_mem_cons] at hturns
    obtain ⟨M', S⟩ := ih M.deliver hturns.2
    exact ⟨M', (M.spares_turn V hturns.1).trans S⟩

end Turns

theorem Attached.eq_of_observer? {s : Store} {subs : List Subscription}
    {hooks : List (Handle × Observer)} (A : s.Attached subs hooks)
    (hnodup : (hooks.map (·.2)).Nodup) {sub sub' : Subscription} {ob : Observer}
    (hm : sub ∈ subs) (hm' : sub' ∈ subs) (hob : s.observer? sub = some ob)
    (hob' : s.observer? sub' = some ob) : sub = sub' := by
  induction A with
  | nil => cases hm
  | @cons first hook rest hooks hfirst A ih =>
    rw [List.map_cons, List.nodup_cons] at hnodup
    have hlater : ∀ sub ∈ rest, s.observer? sub = some ob → hook.2 ≠ ob := by
      rintro sub hm hob rfl
      obtain ⟨hook', hmem, -, hs⟩ := exists_hook A hm
      rw [hob] at hs
      exact hnodup.1 (Option.some.inj hs ▸ List.mem_map_of_mem hmem)
    rcases List.mem_cons.1 hm with rfl | hrest
    · rcases List.mem_cons.1 hm' with rfl | hrest'
      · rfl
      · exact absurd (Option.some.inj (hfirst.2.symm.trans hob)) (hlater sub' hrest' hob')
    · rcases List.mem_cons.1 hm' with rfl | hrest'
      · exact absurd (Option.some.inj (hfirst.2.symm.trans hob')) (hlater sub hrest hob)
      · exact ih hnodup.2 hrest hrest'

section Places

variable {s : Store} {id : ObservationId} {o : Observation} {c : Handle}

theorem Wired.exists_place_iff (W : s.Wired) (ho : s.observations.find? id = some o)
    {ob : Observer} (hid : ob.observation = id) :
    (∃ n, s.observer? ⟨c, n⟩ = some ob) ↔ (c, ob) ∈ o.hooks s.heap id := by
  constructor
  · rintro ⟨n, hob⟩
    obtain ⟨o', ho', hm⟩ := W.served _ ob hob
    rw [hid] at ho'
    cases ho.symm.trans ho'
    obtain ⟨⟨d, ob'⟩, hhook, rfl, hs⟩ := (W.attached id o ho).exists_hook hm
    cases hob.symm.trans hs
    exact hhook
  · intro hhook
    obtain ⟨⟨d, n⟩, -, rfl, hob⟩ := (W.attached id o ho).exists_subscription hhook
    exact ⟨n, hob⟩

theorem Wired.eq_of_observer? (W : s.Wired) {sub sub' : Subscription} {ob : Observer}
    (h : s.observer? sub = some ob) (h' : s.observer? sub' = some ob) : sub = sub' := by
  obtain ⟨o, ho, hm⟩ := W.served sub ob h
  obtain ⟨o', ho', hm'⟩ := W.served sub' ob h'
  cases ho.symm.trans ho'
  exact (W.attached _ o ho).eq_of_observer? (o.nodup_hooks _ _) hm hm' h h'

def minesAt (s : Store) (c : Handle) (id : ObservationId) : List (Nat × Observer) :=
  (s.observersOf c).entries.toList.filter (·.2.observation = id)

theorem mem_minesAt {x : Nat × Observer} :
    x ∈ s.minesAt c id ↔ s.observer? ⟨c, x.1⟩ = some x.2 ∧ x.2.observation = id := by
  obtain ⟨n, ob⟩ := x
  simp only [minesAt, List.mem_filter, Dict.mem_toList, decide_eq_true_eq]
  rfl

theorem Wired.minesAt_cases (W : s.Wired) (ho : s.observations.find? id = some o)
    (hsole : ∀ ob ob', (c, ob) ∈ o.hooks s.heap id → (c, ob') ∈ o.hooks s.heap id → ob = ob') :
    (∀ ob, (c, ob) ∉ o.hooks s.heap id) ∧ s.minesAt c id = [] ∨
      ∃ n ob, (c, ob) ∈ o.hooks s.heap id ∧ s.minesAt c id = [(n, ob)] := by
  have hhook : ∀ x ∈ s.minesAt c id, (c, x.2) ∈ o.hooks s.heap id := fun x hx =>
    (W.exists_place_iff ho (mem_minesAt.1 hx).2).1 ⟨x.1, (mem_minesAt.1 hx).1⟩
  cases hmines : s.minesAt c id with
  | nil =>
    refine .inl ⟨fun ob hob => ?_, rfl⟩
    have hid : ob.observation = id := Observation.observation_of_mem_hooks hob
    obtain ⟨n, hn⟩ := (W.exists_place_iff ho hid).2 hob
    have hmem : (n, ob) ∈ s.minesAt c id := mem_minesAt.2 ⟨hn, hid⟩
    rw [hmines] at hmem
    cases hmem
  | cons x rest =>
    rw [hmines] at hhook
    refine .inr ⟨x.1, x.2, hhook x List.mem_cons_self, ?_⟩
    cases rest with
    | nil => rfl
    | cons y rest =>
      have hob : x.2 = y.2 := hsole _ _ (hhook x (by simp)) (hhook y (by simp))
      have hx : x ∈ s.minesAt c id := by simp [hmines]
      have hy : y ∈ s.minesAt c id := by simp [hmines]
      have hsub := W.eq_of_observer? (mem_minesAt.1 hx).1 (hob ▸ (mem_minesAt.1 hy).1)
      have hnodup : (s.minesAt c id).Nodup := (Dict.nodup_toList _).filter _
      rw [hmines, List.nodup_cons] at hnodup
      refine absurd ?_ hnodup.1
      rw [Prod.ext (congrArg Subscription.id hsub : x.1 = y.1) hob]
      exact List.mem_cons_self

end Places

/-- A write makes a watch report what the one observer of its observation at the container says;
without one the write makes it report nothing. -/
theorem Consistent.tells_write {s : Store} (C : s.Consistent) {wr : Write} {h : Heap} {e : Event}
    (hw : s.heap.write wr = (h, some e)) {id : ObservationId} {k : ChannelId} {w : WatchId}
    (V : s.Voices k w id) {o : Observation} (ho : s.observations.find? id = some o)
    (hsole : ∀ ob ob', (wr.target, ob) ∈ o.hooks s.heap id →
      (wr.target, ob') ∈ o.hooks s.heap id → ob = ob') :
    (∀ ob, (wr.target, ob) ∉ o.hooks s.heap id) ∧ Tells k w s [] (s.write wr) ∨
      ∃ ob, (wr.target, ob) ∈ o.hooks s.heap id ∧
        Tells k w s (o.reaction h e ob) (s.write wr) := by
  have M := C.midway (Heap.edit_of_write hw)
  have hquiet : Tells k w s [] { s with heap := h } := .quiet rfl
  have hwrite : s.write wr = (s.observersOf wr.target).entries.toList.foldl
      (turn e wr.target) { s with heap := h } := write_eq_of_some hw
  rw [hwrite]
  rcases C.wired.minesAt_cases ho hsole with ⟨hnone, hmines⟩ | ⟨n, ob, hhook, hmines⟩
  · have hothers : ∀ x ∈ (s.observersOf wr.target).entries.toList, x.2.observation ≠ id := by
      simpa [minesAt] using hmines
    rw [← List.append_nil (s.observersOf wr.target).entries.toList] at M
    exact .inl ⟨hnone, hquiet.trans (M.spares V hothers).2.tells⟩
  · refine .inr ⟨ob, hhook, ?_⟩
    have hid : ob.observation = id := Observation.observation_of_mem_hooks hhook
    obtain ⟨before, after, hsplit, hbefore, -, hafter⟩ := List.filter_eq_cons_iff.1 hmines
    have hfirst : ∀ x ∈ before, x.2.observation ≠ id := by simpa using hbefore
    have hlast : ∀ x ∈ after, x.2.observation ≠ id := by simpa using hafter
    rw [hsplit] at M ⊢
    rw [List.foldl_append, List.foldl_cons]
    -- Before its turn the observation is as it was.
    obtain ⟨M₁, S₁⟩ := M.spares V hfirst
    generalize before.foldl (turn e wr.target) { s with heap := h } = t at M₁ S₁ ⊢
    have hmine : (n, ob) ∈ s.minesAt wr.target id := by simp [hmines]
    have hob : t.observer? ⟨wr.target, n⟩ = some ob :=
      (S₁.observer _ ob hid).2 (mem_minesAt.1 hmine).1
    have hturn := M₁.tells_turn V hid (S₁.observation.trans ho) hob
    have M₂ : Midway s h wr.target e (after ++ []) (turn e wr.target t (n, ob)) := by
      rw [List.append_nil]
      exact M₁.deliver
    have hall := ((hquiet.trans S₁.tells).trans hturn).trans (M₂.spares V hlast).2.tells
    simpa using hall

end Store

end ReactivePage
