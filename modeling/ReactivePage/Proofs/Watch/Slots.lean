import ReactivePage.Proofs.Model.Splicing
import ReactivePage.Proofs.Watch.Reports

namespace ReactivePage

namespace Heap

variable {h h' : Heap} {root c : Handle}

theorem resolve?_append (v : Value) (steps more : List Step) :
    h.resolve? v (steps ++ more) = (h.resolve? v steps).bind (h.resolve? · more) := by
  induction steps generalizing v with
  | nil => rfl
  | cons step rest ih =>
    rw [List.cons_append, resolve?, resolve?]
    cases h.child? v step with
    | none => rfl
    | some w => exact ih w

theorem chainFrom_prefix (h : Heap) (root : Handle) (steps more : List Step) :
    h.chainFrom root steps <+: h.chainFrom root (steps ++ more) := by
  have hroot : ∀ (c : Handle) l, [c] <+: h.chainFrom c l := by
    intro c l
    match l with
    | [] | [_] => exact List.prefix_rfl
    | step :: next :: rest =>
      rw [chainFrom]
      split <;> exact ⟨_, rfl⟩
  induction steps generalizing root with
  | nil => exact hroot _ _
  | cons step rest ih =>
    cases rest with
    | nil => exact hroot _ _
    | cons next rest =>
      rw [List.cons_append, List.cons_append, chainFrom, chainFrom]
      cases h.child? (.ref root) step with
      | none => exact List.prefix_rfl
      | some v =>
        cases v with
        | scalar j => exact List.prefix_rfl
        | ref d => exact (List.prefix_cons_inj root).2 (ih d)

/-- The last step of a path leaves a container through which the path goes nowhere else. -/
structure AtLeaf (h : Heap) (root : Handle) (path : Path) (c : Handle) : Prop where
  holder : h.resolve? (.ref root) path.steps.dropLast = some (.ref c)
  once : ∀ i : Nat, (h.chain root path)[i]? = some c → i + 1 = path.steps.length

structure LeafSlot (h : Heap) (root : Handle) (path : Path) (c : Handle) (k : Nat)
    (items : List Value) : Prop extends AtLeaf h root path c where
  items : h.contents c = .sequence items
  position : path.leaf.position? = some k

variable {path : Path} {k : Nat} {items : List Value}

theorem lookup?_of_holder (hc : h.resolve? (.ref root) path.steps.dropLast = some (.ref c)) :
    h.lookup? root path = h.child? (.ref c) path.leaf := by
  rw [lookup?, ← List.dropLast_append_getLast path.steps_ne_nil, resolve?_append, hc,
    Option.bind_some]
  exact Option.bind_fun_some (h.child? (.ref c) path.leaf)

namespace AtLeaf

theorem at_last (S : h.AtLeaf root path c) :
    (h.chain root path)[path.steps.length - 1]? = some c :=
  (resolve?_dropLast_iff path.steps_ne_nil).1 S.holder

theorem lookup?_edit (S : h.AtLeaf root path c) {e : Event} (E : h.Edit h' c e) :
    h'.lookup? root path = h'.child? (.ref c) path.leaf := by
  refine lookup?_of_holder ?_
  rw [(E.chainFrom_resolve?_eq path.steps.dropLast root ?_).2, S.holder]
  rintro ⟨d, step⟩ hr rfl
  obtain ⟨j, hj⟩ := List.mem_iff_getElem?.1 hr
  obtain ⟨hd, hstep⟩ := List.getElem?_zip_eq_some.1 hj
  -- The way to the container is too short to have the place where the path goes through it.
  obtain ⟨hlt, -⟩ := List.getElem?_eq_some_iff.1 hstep
  obtain ⟨t, ht⟩ := h.chainFrom_prefix root path.steps.dropLast [path.leaf]
  rw [Path.leaf, List.dropLast_append_getLast] at ht
  have hj : (h.chain root path)[j]? = some d := by
    rw [chain, ← ht, List.getElem?_append_left (List.getElem?_eq_some_iff.1 hd).1]
    exact hd
  have hlast := S.once j hj
  rw [List.length_dropLast] at hlt
  omega

end AtLeaf

theorem Acyclic.leafSlot (A : h.Acyclic root)
    (hc : h.resolve? (.ref root) path.steps.dropLast = some (.ref c))
    (hitems : h.contents c = .sequence items) (hk : path.leaf.position? = some k) :
    h.LeafSlot root path c k items where
  holder := hc
  once := by
    intro i hi
    have hlast := (resolve?_dropLast_iff path.steps_ne_nil).1 hc
    have hlt := (List.getElem?_eq_some_iff.1 hi).1
    have hpos : 0 < path.steps.length := List.length_pos_iff.2 path.steps_ne_nil
    have heq := (List.getElem?_inj hlt (A.nodup_chain path)).1 (hi.trans hlast.symm)
    omega
  items := hitems
  position := hk

namespace LeafSlot

theorem child?_leaf (hk : path.leaf.position? = some k) (hitems : h.contents c = .sequence items) :
    h.child? (.ref c) path.leaf = items[k]? := by
  simp only [child?, hitems, hk, Option.bind_some]

theorem lookup?_eq (S : h.LeafSlot root path c k items) : h.lookup? root path = items[k]? :=
  (lookup?_of_holder S.holder).trans (child?_leaf S.position S.items)

theorem lookup?_edit (S : h.LeafSlot root path c k items) {e : Event} (E : h.Edit h' c e)
    {items' : List Value} (hitems : h'.contents c = .sequence items') :
    h'.lookup? root path = items'[k]? :=
  (S.toAtLeaf.lookup?_edit E).trans (child?_leaf S.position hitems)

end LeafSlot

variable {start : Nat} {values : List Value}

theorem getElem?_spliced (hk : start ≤ k) (hlt : k < start + values.length)
    (hfits : start + values.length ≤ items.length) :
    (spliced items start values.length values)[k]? = values[k - start]? := by
  have hstart : (items.take start).length = start := List.length_take_of_le (by omega)
  rw [spliced, List.append_assoc, List.getElem?_append_right (by omega), hstart,
    List.getElem?_append_left (by omega)]

theorem write_stretch (hitems : h.contents c = .sequence items) (hne : 0 < values.length)
    (hfits : start + values.length ≤ items.length) :
    ∃ removed, removed.length = values.length ∧
      h.write (.splice c start values.length values) =
        (h.setContents c (.sequence (spliced items start values.length values)),
          some (.splice start removed values.length)) := by
  refine ⟨(items.drop start).take values.length, ?_, ?_⟩
  · rw [length_stretch]
    omega
  · have hvalues : values ≠ [] := List.ne_nil_of_length_pos hne
    have hstart : min start items.length = start := Nat.min_eq_left (by omega)
    simp only [write_splice hitems, spliceEvent?, hvalues, and_false, if_false, hstart]

end Heap

namespace Store

variable {s : Store} {ch : ChannelId} {w : WatchId} {id : ObservationId} {o : Observation}
  {p : PathWatch}

theorem Consistent.tells_leaf (C : s.Consistent) (V : s.Voices ch w id)
    (ho : s.observations.find? id = some o) (hp : o.holder = some p) (hkind : o.kind = .scalar)
    {wr : Write} (S : s.heap.AtLeaf p.root p.path wr.target)
    (haccepts : s.heap.accepts wr.target p.path.leaf = true) {h : Heap} {e : Event}
    (hw : s.heap.write wr = (h, some e)) :
    Tells ch w s
      (if e.touches p.path.leaf then
        Kind.scalar.news h p.last (h.lookup? p.root p.path) (e.writesSlot p.path.leaf)
      else []) (s.write wr) := by
  have hsole : ∀ ob, (wr.target, ob) ∈ o.hooks s.heap id →
      ob = .link id (p.path.steps.length - 1) := by
    intro ob hob
    rcases (C.mem_hooks_iff ho hp).1 hob with ⟨i, step, hi, -, -, rfl⟩ | ⟨hc, -⟩
    · rw [← S.once i hi, Nat.add_sub_cancel]
    · rw [hkind, Heap.contentOf?_scalar] at hc
      cases hc
  have hleaf := Heap.getElem?_leaf p.path
  have hpos : 0 < p.path.steps.length := List.length_pos_iff.2 p.path.steps_ne_nil
  rcases C.tells_write hw V ho fun ob ob' hob hob' => (hsole ob hob).trans (hsole ob' hob').symm
    with ⟨hnone, -⟩ | ⟨ob, hob, htells⟩
  · exact absurd ((C.mem_hooks_iff ho hp).2 (.inl ⟨_, _, S.at_last, hleaf, haccepts, rfl⟩))
      (hnone _)
  · obtain rfl := hsole ob hob
    simp only [Observation.reaction, hp, hleaf, hkind, Nat.sub_add_cancel hpos, decide_true,
      Bool.true_and] at htells
    exact htells

theorem Consistent.tells_stretch (C : s.Consistent) (V : s.Voices ch w id)
    (ho : s.observations.find? id = some o) (hp : o.holder = some p) (hkind : o.kind = .scalar)
    {c : Handle} {k : Nat} {items : List Value} (S : s.heap.LeafSlot p.root p.path c k items)
    {start : Nat} {values : List Value} (hk : start ≤ k) (hlt : k < start + values.length)
    (hfits : start + values.length ≤ items.length) :
    Tells ch w s
      (Kind.scalar.news
        (s.heap.setContents c (.sequence (spliced items start values.length values)))
        p.last values[k - start]? (start = k))
      (s.write (.splice c start values.length values)) := by
  obtain ⟨removed, hremoved, hw⟩ :=
    Heap.write_stretch S.items (show 0 < values.length by omega) hfits
  have haccepts : s.heap.accepts c p.path.leaf = true := by
    rw [Heap.accepts, S.position, Option.isSome_some, Bool.or_true]
  have hleaf : s.heap.AtLeaf p.root p.path (Write.splice c start values.length values).target :=
    S.toAtLeaf
  have htells := C.tells_leaf V ho hp hkind hleaf haccepts hw
  have htouches : (Event.splice start removed values.length).touches p.path.leaf = true := by
    simp [Event.touches, S.position, hk]
  have hslot : (Event.splice start removed values.length).writesSlot p.path.leaf
      = decide (start = k) := by
    simp [Event.writesSlot, S.position, hremoved, eq_comm]
  have hnew := S.lookup?_edit (Heap.edit_of_write hw)
    ((Heap.contents_setContents _ _ _ _).trans (if_pos rfl))
  rw [Heap.getElem?_spliced hk hlt hfits] at hnew
  rwa [htouches, if_pos rfl, hslot, hnew] at htells

end Store

namespace Registry

namespace Log

variable {L : Log}

/-- When a stretch of a sequence is overwritten in place, a watch of a slot in it reports once if
the stretch begins at the slot, whatever is written there, or if the slot holds another value
afterwards; and else not at all. -/
theorem Leads.reports_stretch (hL : start.Leads L) {w : WatchId} {entry : RegistryEntry}
    (hw : L.registry.entries.find? w = some entry) {owner : Handle} {path : Path}
    (hkey : entry.key = .field owner path) (hkind : L.registry.kind? L.store w = some .scalar)
    {c : Handle} {k : Nat} {items : List Value}
    (S : L.store.heap.LeafSlot owner path c k items) {i : Nat} {values : List Value}
    (hi : i ≤ k) (hk : k < i + values.length) (hfits : i + values.length ≤ items.length) :
    let wr := Write.splice c i values.length values
    let h := (L.store.write wr).heap
    h.lookup? owner path = values[k - i]? ∧
    (i = k ∨ ¬ Value.sameOption items[k]? values[k - i]? = true →
      ∃ v, Value.sameOption v items[k]? = true ∧
        L.Enqueues wr w [.value (h.snapshot v) (h.snapshot values[k - i]?)]) ∧
    (i ≠ k → Value.sameOption items[k]? values[k - i]? = true → L.Enqueues wr w []) := by
  have T := (hL.kept kept_start).tracks
  have T' : L.registry.Tracks (L.store.detach L.registry.channel) := T.aside rfl rfl rfl rfl
  obtain ⟨o, p, ho, hkind', hp, rfl, rfl⟩ := T'.exists_path hw hkey hkind
  obtain ⟨removed, -, hwrite⟩ :=
    Heap.write_stretch S.items (show 0 < values.length by omega) hfits
  have hheap := (T.sound.consistent.write (.splice c i values.length values)).2
  rw [hwrite] at hheap
  have hlast : Value.sameOption p.last (L.store.heap.lookup? p.root p.path) = true :=
    (T'.sound.consistent.upToDate _ o p ho hp).last
  rw [S.lookup?_eq] at hlast
  have htells := T'.sound.consistent.tells_stretch (T'.voices hw) ho hp hkind' S hi hk hfits
  simp only [hheap]
  refine ⟨?_, fun hnews => ⟨p.last, hlast, ?_⟩, fun hne hs => ?_⟩
  · rw [S.lookup?_edit (Heap.edit_of_write hwrite)
      ((Heap.contents_setContents _ _ _ _).trans (if_pos rfl))]
    exact Heap.getElem?_spliced hi hk hfits
  · rw [Kind.news_scalar] at htells
    · exact enqueues_of_tells htells
    · refine hnews.imp decide_eq_true fun hne hs => hne ?_
      exact Value.sameOption_trans (Value.sameOption_symm hlast) hs
  · rw [decide_eq_false hne, Kind.news_of_same (Value.sameOption_trans hlast hs)] at htells
    exact enqueues_of_tells htells

def slotLog : Log :=
  (start.perform (.act (.create (.sequence [.scalar (.ofNat 1), .scalar (.ofNat 2)]) fun c =>
      .create (.object (Dict.ofList [("a", .ref c)])) fun _ => .done ()))).perform
    (.watch (.field 2 "a[1]"))

theorem leads_slotLog : start.Leads slotLog := by
  refine .perform (.perform (.refl _) ?_) ?_
  · simp only [Admits]
    decide
  · exact fun _ hkey => exists_of_field_key (by decide) hkey

def slotPath : Path := ⟨[.key "a", .index 1], List.cons_ne_nil _ _⟩

theorem leafSlot_slotLog : slotLog.store.heap.LeafSlot 2 slotPath 1 1
    [.scalar (.ofNat 1), .scalar (.ofNat 2)] :=
  (Heap.acyclic_of_within (by decide) 2).leafSlot rfl rfl rfl

theorem reports_stretch_slot :
    start.Leads slotLog ∧ slotLog.registry.kind? slotLog.store 1 = some .scalar ∧
      (∃ v, Value.sameOption v (some (.scalar (.ofNat 2))) = true ∧
        slotLog.Enqueues (.splice 1 1 1 [.scalar (.ofNat 2)]) 1
          [.value ((slotLog.store.write (.splice 1 1 1 [.scalar (.ofNat 2)])).heap.snapshot v)
            (some (.ofNat 2))]) ∧
      slotLog.Enqueues (.splice 1 0 2 [.scalar (.ofNat 5), .scalar (.ofNat 2)]) 1 [] := by
  have hw : slotLog.registry.entries.find? 1 = some ⟨.field 2 slotPath, "a[1]", 0, 1⟩ := rfl
  refine ⟨leads_slotLog, rfl, ?_, ?_⟩
  · exact (leads_slotLog.reports_stretch hw rfl rfl leafSlot_slotLog (Nat.le_refl 1)
      (show 1 < 1 + [Value.scalar (.ofNat 2)].length by decide) (by decide)).2.1 (.inl rfl)
  · exact (leads_slotLog.reports_stretch hw rfl rfl leafSlot_slotLog (Nat.zero_le 1)
      (show 1 < 0 + [Value.scalar (.ofNat 5), .scalar (.ofNat 2)].length by decide)
      (by decide)).2.2 (by decide) (by decide)

theorem not_reports_stretch_slot :
    start.Leads slotLog ∧
      (slotLog.registry.entries.find? 1).map (·.key) = some (.field 2 slotPath) ∧
      slotLog.registry.kind? slotLog.store 1 = some .scalar ∧
      slotLog.store.heap.LeafSlot 2 slotPath 1 1 [.scalar (.ofNat 1), .scalar (.ofNat 2)] ∧
      ¬ ∃ old new, slotLog.Enqueues (.splice 1 0 2 [.scalar (.ofNat 5), .scalar (.ofNat 2)]) 1
        [.value old new] := by
  refine ⟨leads_slotLog, rfl, rfl, leafSlot_slotLog, ?_⟩
  rintro ⟨old, new, sent, hsent, hqueue⟩
  have hqueue : [] = sent.map Signal.change := hqueue .empty rfl
  obtain rfl : [] = sent := List.map_injective_iff.2 (fun _ _ => Signal.change.inj) hqueue
  cases hsent

end Log

end Registry

end ReactivePage
