import ReactivePage.Proofs.Model.Nesting
import ReactivePage.Proofs.Watch.Firing

namespace ReactivePage

theorem Event.touches_of_writesSlot {e : Event} {step : Step} (h : e.writesSlot step = true) :
    e.touches step = true := by
  cases e with
  | entry key old new => exact h
  | splice index removed added =>
    simp only [writesSlot, Bool.and_eq_true, decide_eq_true_eq] at h
    simp [touches, h.1]

def Event.outgoing : Event → List Value
  | entry _ old _ => old.toList
  | splice _ removed _ => removed

inductive Event.Carries (h h' : Heap) : Event → Change → Prop
  | entry {key : String} {old new : Option Value} {was is : Option Json} :
      h.Shows old was → h'.Shows new is → Carries h h' (.entry key old new) (.key key was is)
  | splice {index added : Nat} {removed : List Value} {was : List Json} :
      List.Forall₂ (fun v j => h.toJson? v = some j) removed was →
      Carries h h' (.splice index removed added) (.splice index was added)

namespace Heap

/-- Whether a write is effective and writes the last slot of a path in place. -/
def WritesLeaf (h : Heap) (root : Handle) (path : Path) (wr : Write) : Prop :=
  h.resolve? (.ref root) path.steps.dropLast = some (.ref wr.target) ∧
    ∃ e, (h.write wr).2 = some e ∧ e.writesSlot path.leaf = true

variable {h h' : Heap} {root c : Handle}

theorem resolve?_dropLast_iff {steps : List Step} (hne : steps ≠ []) :
    h.resolve? (.ref root) steps.dropLast = some (.ref c) ↔
      (h.chainFrom root steps)[steps.length - 1]? = some c := by
  induction steps generalizing root with
  | nil => exact absurd rfl hne
  | cons step rest ih =>
    cases rest with
    | nil => simp [resolve?, chainFrom]
    | cons next rest =>
      rw [List.dropLast_cons_cons, resolve?, chainFrom]
      cases hv : h.child? (.ref root) step with
      | none => simp
      | some v =>
        cases v with
        | scalar j =>
          have hscalar : h.resolve? (.scalar j) (next :: rest).dropLast ≠ some (.ref c) := by
            intro heq
            obtain ⟨i, hi⟩ := resolve?_scalar_eq_some heq
            cases hi
          simpa using hscalar
        | ref d => simpa using ih (List.cons_ne_nil next rest)

theorem writesLeaf_iff {path : Path} {wr : Write} {e : Event} (hw : h.write wr = (h', some e)) :
    h.WritesLeaf root path wr ↔
      (h.chain root path)[path.steps.length - 1]? = some wr.target ∧
        e.writesSlot path.leaf = true := by
  rw [WritesLeaf, resolve?_dropLast_iff path.steps_ne_nil, hw]
  simp [chain]

theorem mem_route_iff {path : Path} {step : Step} :
    (c, step) ∈ h.route root path ↔
      ∃ i : Nat, (h.chain root path)[i]? = some c ∧ path.steps[i]? = some step := by
  rw [route, List.mem_iff_getElem?]
  simp only [List.getElem?_zip_eq_some]

def Misses (h : Heap) (root : Handle) (path : Path) (c : Handle) (e : Event) : Prop :=
  ∀ r ∈ h.route root path, r.1 = c → e.touches r.2 = false

theorem misses_of_not_mem {path : Path} {e : Event} (hc : c ∉ h.chain root path) :
    h.Misses root path c e := by
  rintro ⟨d, step⟩ hr rfl
  exact absurd (List.of_mem_zip hr).1 hc

theorem getElem?_leaf (path : Path) : path.steps[path.steps.length - 1]? = some path.leaf := by
  rw [Path.leaf, ← List.getLast?_eq_getElem?, List.getLast?_eq_some_getLast path.steps_ne_nil]

theorem Misses.not_writesLeaf {path : Path} {wr : Write} {e : Event}
    (M : h.Misses root path wr.target e) (hw : h.write wr = (h', some e)) :
    ¬ h.WritesLeaf root path wr := by
  rw [writesLeaf_iff hw]
  rintro ⟨hc, hslot⟩
  have hmiss := M (wr.target, path.leaf) (mem_route_iff.2 ⟨_, hc, getElem?_leaf path⟩) rfl
  rw [Event.touches_of_writesSlot hslot] at hmiss
  cases hmiss

theorem Acyclic.misses_iff (A : h.Acyclic root) {path : Path} {e : Event} {i : Nat} {step : Step}
    (hi : (h.chain root path)[i]? = some c) (hstep : path.steps[i]? = some step) :
    h.Misses root path c e ↔ e.touches step = false := by
  constructor
  · intro M
    exact M (c, step) (mem_route_iff.2 ⟨i, hi, hstep⟩) rfl
  · rintro htouch ⟨d, step'⟩ hr rfl
    obtain ⟨j, hj, hstep'⟩ := mem_route_iff.1 hr
    obtain ⟨hlt, -⟩ := List.getElem?_eq_some_iff.1 hi
    obtain rfl := (List.getElem?_inj hlt (A.nodup_chain path)).1 (hi.trans hj.symm)
    cases hstep.symm.trans hstep'
    exact htouch

theorem Acyclic.writesLeaf_iff (A : h.Acyclic root) {path : Path} {wr : Write} {e : Event}
    (hw : h.write wr = (h', some e)) {i : Nat} {step : Step}
    (hi : (h.chain root path)[i]? = some wr.target) (hstep : path.steps[i]? = some step) :
    h.WritesLeaf root path wr ↔ i + 1 = path.steps.length ∧ e.writesSlot step = true := by
  obtain ⟨hlt, -⟩ := List.getElem?_eq_some_iff.1 hi
  have hpos : 0 < path.steps.length := List.length_pos_iff.2 path.steps_ne_nil
  rw [Heap.writesLeaf_iff hw]
  constructor
  · rintro ⟨hlast, hslot⟩
    obtain rfl := (List.getElem?_inj hlt (A.nodup_chain path)).1 (hi.trans hlast.symm)
    cases hstep.symm.trans (getElem?_leaf path)
    exact ⟨Nat.sub_add_cancel hpos, hslot⟩
  · rintro ⟨hlast, hslot⟩
    obtain rfl : i = path.steps.length - 1 := Nat.eq_sub_of_add_eq hlast
    cases hstep.symm.trans (getElem?_leaf path)
    exact ⟨hi, hslot⟩

theorem mem_values_of_valueAt? {key : String} {v : Value} (hv : h.valueAt? c key = some v) :
    v ∈ (h.contents c).values := by
  rw [valueAt?] at hv
  cases hk : h.contents c with
  | object fields =>
    rw [hk] at hv
    exact Dict.mem_values_of_find? hv
  | map entries =>
    rw [hk] at hv
    exact Dict.mem_values_of_find? hv
  | sequence items =>
    rw [hk] at hv
    cases hv

theorem mem_values_of_outgoing {wr : Write} {e : Event} (hw : h.write wr = (h', some e))
    {v : Value} (hv : v ∈ e.outgoing) : v ∈ (h.contents wr.target).values := by
  cases wr with
  | put c key value =>
    simp only [write] at hw
    split at hw
    · cases hw
      exact mem_values_of_valueAt? (Option.mem_toList.1 hv)
    · cases hw
  | erase c key =>
    simp only [write] at hw
    split at hw
    · next old hold =>
      cases hw
      cases List.mem_singleton.1 hv
      exact mem_values_of_valueAt? hold
    · cases hw
  | splice c index remove insert =>
    simp only [write] at hw
    split at hw
    · next items hk =>
      split at hw
      · cases hw
      · cases hw
        rw [Write.target, hk]
        exact List.mem_of_mem_drop (List.mem_of_mem_take hv)
    · cases hw

theorem valueAt?_insert {key : String} {v : Value} (hk : h.isKeyed c = true) :
    (h.updateEntries c (·.insert key v)).valueAt? c key = some v := by
  rw [isKeyed] at hk
  rw [updateEntries, valueAt?]
  cases hc : h.contents c with
  | object fields => simp only [contents_setContents, if_true, Dict.find?_insert_self]
  | map entries => simp only [contents_setContents, if_true, Dict.find?_insert_self]
  | sequence items =>
    rw [hc] at hk
    cases hk

theorem mem_values_of_incoming {wr : Write} {key : String} {old : Option Value} {v : Value}
    (hw : h.write wr = (h', some (.entry key old (some v)))) :
    v ∈ (h'.contents wr.target).values := by
  cases wr with
  | put c key value =>
    simp only [write] at hw
    split at hw
    · next hkeyed =>
      cases hw
      exact mem_values_of_valueAt? (valueAt?_insert hkeyed)
    · cases hw
  | erase c key =>
    simp only [write] at hw
    split at hw <;> cases hw
  | splice c index remove insert =>
    simp only [write] at hw
    split at hw
    · split at hw <;> cases hw
    · cases hw

theorem Edit.carries {wr : Write} {e : Event} (E : Edit h h' wr.target e)
    (hw : h.write wr = (h', some e)) (A : h.Acyclic wr.target) (A' : h'.Acyclic wr.target) :
    e.Carries h h' (e.change h') := by
  have hout : ∀ v ∈ e.outgoing, ∀ d, v = .ref d → Relation.TransGen h.Holds wr.target d := by
    rintro v hv d rfl
    exact .single (mem_values_of_outgoing hw hv)
  cases e with
  | entry key old new =>
    refine .entry (E.shows_snapshot A fun d hd => hout _ (Option.mem_toList.2 hd) d rfl) ?_
    refine Heap.shows_snapshot fun d hd => A'.below (.single ?_)
    subst hd
    exact mem_values_of_incoming hw
  | splice index removed added =>
    refine .splice (List.forall₂_map_right_iff.2 (List.forall₂_same.2 fun v hv => ?_))
    exact E.toJson?_before A (hout v hv)

end Heap

namespace Store

variable {s : Store} {id : ObservationId} {o : Observation} {p : PathWatch}

theorem Consistent.mem_hooks_iff (C : s.Consistent) (ho : s.observations.find? id = some o)
    (hp : o.holder = some p) {c : Handle} {ob : Observer} :
    (c, ob) ∈ o.hooks s.heap id ↔
      (∃ i step, (s.heap.chain p.root p.path)[i]? = some c ∧ p.path.steps[i]? = some step ∧
        s.heap.accepts c step = true ∧ ob = .link id i) ∨
      s.heap.contentOf? o.kind (s.heap.lookup? p.root p.path) = some c ∧ ob = .content id := by
  have U := C.upToDate id o p ho hp
  rw [Observation.hooks, List.mem_append]
  refine or_congr ?_ ?_
  · rw [Observation.linkHooks, hp, Option.map_some, Option.getD_some, Heap.mem_linkPlan, U.chain]
    simp only [Nat.zero_add, Prod.mk.injEq]
    constructor
    · rintro ⟨i, d, step, hd, hstep, ha, rfl, rfl⟩
      exact ⟨i, step, hd, hstep, ha, rfl⟩
    · rintro ⟨i, step, hd, hstep, ha, rfl⟩
      exact ⟨i, c, step, hd, hstep, ha, rfl, rfl⟩
  · rw [Observation.contentHooks, C.anchored id o ho p hp, Heap.contentOf?_congr _ _ U.last]
    simp [eq_comm]

theorem Consistent.sole_hook (C : s.Consistent) (A : s.heap.Acyclic p.root)
    (ho : s.observations.find? id = some o) (hp : o.holder = some p) {c : Handle}
    (ob ob' : Observer) (hob : (c, ob) ∈ o.hooks s.heap id)
    (hob' : (c, ob') ∈ o.hooks s.heap id) : ob = ob' := by
  have hoff : s.heap.contentOf? o.kind (s.heap.lookup? p.root p.path) = some c →
      ∀ i : Nat, (s.heap.chain p.root p.path)[i]? ≠ some c := by
    intro hc i hi
    exact A.not_mem_chain (Heap.eq_ref_of_contentOf? hc) (List.mem_of_getElem? hi)
  rcases (C.mem_hooks_iff ho hp).1 hob with ⟨i, step, hi, -, -, rfl⟩ | ⟨hc, rfl⟩
  · rcases (C.mem_hooks_iff ho hp).1 hob' with ⟨j, step', hj, -, -, rfl⟩ | ⟨hc, rfl⟩
    · obtain ⟨hlt, -⟩ := List.getElem?_eq_some_iff.1 hi
      rw [(List.getElem?_inj hlt (A.nodup_chain p.path)).1 (hi.trans hj.symm)]
    · exact absurd hi (hoff hc i)
  · rcases (C.mem_hooks_iff ho hp).1 hob' with ⟨j, step', hj, -, -, rfl⟩ | ⟨-, rfl⟩
    · exact absurd hj (hoff hc j)
    · rfl

theorem Consistent.tells_path (C : s.Consistent) (A : s.heap.Acyclic p.root) {k : ChannelId}
    {w : WatchId} (V : s.Voices k w id) (ho : s.observations.find? id = some o)
    (hp : o.holder = some p) {wr : Write} {h : Heap} {e : Event}
    (hw : s.heap.write wr = (h, some e)) :
    (s.heap.contentOf? o.kind (s.heap.lookup? p.root p.path) = some wr.target ∧
        s.heap.Misses p.root p.path wr.target e ∧ Tells k w s [e.change h] (s.write wr)) ∨
      s.heap.contentOf? o.kind (s.heap.lookup? p.root p.path) ≠ some wr.target ∧
        (s.heap.Misses p.root p.path wr.target e ∧ Tells k w s [] (s.write wr) ∨
          wr.target ∈ s.heap.chain p.root p.path ∧
            ∃ direct, (direct = true ↔ s.heap.WritesLeaf p.root p.path wr) ∧
              Tells k w s (o.kind.news h p.last (h.lookup? p.root p.path) direct)
                (s.write wr)) := by
  have E := Heap.edit_of_write hw
  rcases C.tells_write hw V ho (C.sole_hook A ho hp) with ⟨hnone, htells⟩ | ⟨ob, hhook, htells⟩
  · refine .inr ⟨fun hc => hnone (.content id) ((C.mem_hooks_iff ho hp).2 (.inr ⟨hc, rfl⟩)),
      .inl ⟨?_, htells⟩⟩
    rintro ⟨d, step⟩ hr rfl
    by_contra htouch
    obtain ⟨i, hi, hstep⟩ := Heap.mem_route_iff.1 hr
    have haccepts := E.accepted step (by simpa using htouch)
    exact hnone (.link id i) ((C.mem_hooks_iff ho hp).2 (.inl ⟨i, step, hi, hstep, haccepts, rfl⟩))
  · rcases (C.mem_hooks_iff ho hp).1 hhook with ⟨i, step, hi, hstep, -, rfl⟩ | ⟨hc, rfl⟩
    · have hmem := List.mem_of_getElem? hi
      refine .inr ⟨fun hc => A.not_mem_chain (Heap.eq_ref_of_contentOf? hc) hmem, ?_⟩
      simp only [Observation.reaction, hp, hstep] at htells
      split at htells
      · refine .inr ⟨hmem, _, ?_, htells⟩
        rw [A.writesLeaf_iff hw hi hstep]
        simp
      · next htouch =>
        exact .inl ⟨(A.misses_iff hi hstep).2 (by simpa using htouch), htells⟩
    · exact .inl ⟨hc, Heap.misses_of_not_mem (A.not_mem_chain (Heap.eq_ref_of_contentOf? hc)),
        htells⟩

theorem Consistent.holds_last (C : s.Consistent) (ho : s.observations.find? id = some o)
    (hp : o.holder = some p) {c d : Handle} (hc : c ∈ s.heap.chain p.root p.path)
    (hd : p.last = some (.ref d)) : Relation.TransGen s.heap.Holds c d := by
  have hs := Value.sameOption_symm (C.upToDate id o p ho hp).last
  rw [hd] at hs
  exact Heap.holds_of_lookup? (Value.eq_of_sameOption_ref hs) hc

theorem Consistent.shows_last (C : s.Consistent) {h : Heap} {c : Handle} {e : Event}
    (E : s.heap.Edit h c e) (A : s.heap.Acyclic p.root) (ho : s.observations.find? id = some o)
    (hp : o.holder = some p) (hc : c ∈ s.heap.chain p.root p.path) :
    s.heap.Shows p.last (h.snapshot p.last) :=
  E.shows_snapshot (A.below (Heap.reaches_of_mem_chain hc)) fun _ => C.holds_last ho hp hc

section Exact

variable {k : ChannelId} {w : WatchId}

theorem Consistent.tells_scalar (C : s.Consistent) (A : s.heap.Acyclic p.root) (V : s.Voices k w id)
    (ho : s.observations.find? id = some o) (hp : o.holder = some p) (hkind : o.kind = .scalar)
    (wr : Write) (A' : (s.heap.write wr).1.Acyclic p.root) :
    let before := s.heap.lookup? p.root p.path
    let after := (s.heap.write wr).1.lookup? p.root p.path
    (¬ Value.sameOption before after = true ∨ s.heap.WritesLeaf p.root p.path wr →
      ∃ v old new, Value.sameOption v before = true ∧ s.heap.Shows v old ∧
        (s.heap.write wr).1.Shows after new ∧ Tells k w s [.value old new] (s.write wr)) ∧
    (Value.sameOption before after = true → ¬ s.heap.WritesLeaf p.root p.path wr →
      Tells k w s [] (s.write wr)) := by
  have U := C.upToDate id o p ho hp
  rcases hw : s.heap.write wr with ⟨h, e | e⟩
  · cases Heap.eq_of_write_eq_none hw
    rw [write_eq_of_none hw]
    refine ⟨fun hnews => ?_, fun _ _ => .quiet rfl⟩
    rcases hnews with hne | ⟨-, e, he, -⟩
    · exact absurd (Value.sameOption_refl _) hne
    · rw [hw] at he
      cases he
  · rw [hw] at A'
    have E := Heap.edit_of_write hw
    have hquiet : s.heap.Misses p.root p.path wr.target e →
        Value.sameOption (s.heap.lookup? p.root p.path) (h.lookup? p.root p.path) = true ∧
          ¬ s.heap.WritesLeaf p.root p.path wr := by
      intro M
      rw [E.lookup?_eq M]
      exact ⟨Value.sameOption_refl _, M.not_writesLeaf hw⟩
    rcases C.tells_path A V ho hp hw with
      ⟨hc, -⟩ | ⟨-, ⟨M, htells⟩ | ⟨hmem, direct, hdirect, htells⟩⟩
    · rw [hkind, Heap.contentOf?_scalar] at hc
      cases hc
    · refine ⟨fun hnews => ?_, fun _ _ => htells⟩
      rcases hnews with hne | hleaf
      · exact absurd (hquiet M).1 hne
      · exact absurd hleaf (hquiet M).2
    · rw [hkind] at htells
      refine ⟨fun hnews => ?_, fun hs hleaf => ?_⟩
      · refine ⟨p.last, _, _, U.last, C.shows_last E A ho hp hmem, A'.shows_lookup p.path, ?_⟩
        rwa [Kind.news_scalar] at htells
        refine hnews.symm.imp hdirect.2 fun hne hs => hne ?_
        exact Value.sameOption_trans (Value.sameOption_symm U.last) hs
      · rw [← hdirect, Bool.not_eq_true] at hleaf
        rwa [hleaf, Kind.news_of_same (Value.sameOption_trans U.last hs)] at htells

theorem Consistent.tells_collection (C : s.Consistent) (A : s.heap.Acyclic p.root)
    (V : s.Voices k w id) (ho : s.observations.find? id = some o) (hp : o.holder = some p)
    (hkind : o.kind ≠ .scalar) (wr : Write) (A' : (s.heap.write wr).1.Acyclic p.root) :
    let before := s.heap.lookup? p.root p.path
    let after := (s.heap.write wr).1.lookup? p.root p.path
    (∀ e, (s.heap.write wr).2 = some e → s.heap.contentOf? o.kind before = some wr.target →
      ∃ change, e.Carries s.heap (s.heap.write wr).1 change ∧ Tells k w s [change] (s.write wr)) ∧
    (¬ Value.sameOption before after = true →
      ∃ v old new, Value.sameOption v before = true ∧ s.heap.Shows v old ∧
        (s.heap.write wr).1.Shows after new ∧ Tells k w s [.replaced old new] (s.write wr)) ∧
    (Value.sameOption before after = true →
      ((s.heap.write wr).2 = none ∨ s.heap.contentOf? o.kind before ≠ some wr.target) →
      Tells k w s [] (s.write wr)) := by
  have U := C.upToDate id o p ho hp
  rcases hw : s.heap.write wr with ⟨h, e | e⟩
  · cases Heap.eq_of_write_eq_none hw
    rw [write_eq_of_none hw]
    exact ⟨nofun, fun hne => absurd (Value.sameOption_refl _) hne, fun _ _ => .quiet rfl⟩
  · rw [hw] at A'
    have E := Heap.edit_of_write hw
    rcases C.tells_path A V ho hp hw with
      ⟨hc, M, htells⟩ | ⟨hc, ⟨M, htells⟩ | ⟨hmem, direct, -, htells⟩⟩
    · simp only
      rw [E.lookup?_eq M]
      refine ⟨?_, fun hne => absurd (Value.sameOption_refl _) hne, ?_⟩
      · rintro e' ⟨⟩ -
        have hlast := Heap.eq_ref_of_contentOf? hc
        have hlast' := (E.lookup?_eq M).trans hlast
        exact ⟨_, E.carries hw (A.below (Heap.reaches_of_lookup? hlast))
          (A'.below (Heap.reaches_of_lookup? hlast')), htells⟩
      · rintro - (hnone | hne)
        · cases hnone
        · exact absurd hc hne
    · simp only
      rw [E.lookup?_eq M]
      exact ⟨fun _ _ hc' => absurd hc' hc, fun hne => absurd (Value.sameOption_refl _) hne,
        fun _ _ => htells⟩
    · rw [Kind.news_of_ne_scalar hkind] at htells
      refine ⟨fun _ _ hc' => absurd hc' hc, fun hne => ?_, fun hs _ => ?_⟩
      · refine ⟨p.last, _, _, U.last, C.shows_last E A ho hp hmem, A'.shows_lookup p.path, ?_⟩
        rwa [if_neg fun hs =>
          hne (Value.sameOption_trans (Value.sameOption_symm U.last) hs)] at htells
      · rwa [if_pos (Value.sameOption_trans U.last hs)] at htells

theorem Consistent.exists_content_iff (C : s.Consistent)
    (ho : s.observations.find? id = some o) (hp : o.holder = some p) (d : Handle) :
    (∃ n, s.observer? ⟨d, n⟩ = some (.content id)) ↔
      s.heap.contentOf? o.kind (s.heap.lookup? p.root p.path) = some d := by
  rw [C.wired.exists_place_iff ho rfl, C.mem_hooks_iff ho hp]
  constructor
  · rintro (⟨i, step, -, -, -, ⟨⟩⟩ | ⟨hd, -⟩)
    exact hd
  · exact fun hd => .inr ⟨hd, rfl⟩

end Exact

end Store

end ReactivePage
