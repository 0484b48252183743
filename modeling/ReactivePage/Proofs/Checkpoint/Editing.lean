import ReactivePage.Checkpoint.Edit
import ReactivePage.Proofs.Model.Splicing
import ReactivePage.Proofs.Watch.Sending

namespace ReactivePage

theorem Store.heap_write (s : Store) (w : Write) : (s.write w).heap = (s.heap.write w).1 := by
  rcases hw : s.heap.write w with ⟨h, e | e⟩
  · rw [write_eq_of_none hw, Heap.eq_of_write_eq_none hw]
  · rw [write_eq_of_some hw]
    exact (Reacts.notify _ _ _).heap

namespace Action

variable {α : Type}

structure Edits (program : Action α) (s : Store) (c : Handle) (result : α) (items : List Value)
    (event : Option Event) : Prop where
  result : (program.run s).1 = result
  contents : (program.run s).2.heap.contents c = .sequence items
  others : ∀ d, d ≠ c → (program.run s).2.heap.contents d = s.heap.contents d
  notified : (program.run s).2 = match event with
    | some e => ({ s with heap := s.heap.setContents c (.sequence items) } : Store).notify c e
    | none => s

variable {s : Store} {c : Handle} {items : List Value}

theorem edits_of_splice (hc : s.heap.contents c = .sequence items) {program : Action α}
    {result : α} {index remove : Nat} {insert : List Value}
    (hrun : program.run s = (result, s.write (.splice c index remove insert))) :
    Edits program s c result (spliced items index remove insert)
      (spliceEvent? items index remove insert) := by
  have hcontents := Heap.contents_write_splice hc index remove insert
  constructor <;> rw [hrun]
  case contents => rw [Store.heap_write, hcontents, if_pos rfl]
  case others =>
    intro d hd
    rw [Store.heap_write, hcontents, if_neg hd]
  case notified =>
    have hw := Heap.write_splice hc index remove insert
    cases he : spliceEvent? items index remove insert with
    | none =>
      rw [he] at hw
      exact Store.write_eq_of_none hw
    | some e =>
      rw [he] at hw
      exact Store.write_eq_of_some hw

structure Operations (s : Store) (c : Handle) (items : List Value) : Prop where
  splice : ∀ index remove insert,
    let place := min index items.length
    let count := min remove (items.length - place)
    Edits (splice c index remove insert) s c ((items.drop place).take count)
      (items.take place ++ insert ++ items.drop (place + count))
      (if count = 0 ∧ insert = [] then none
        else some (.splice place ((items.drop place).take count) insert.length))
  /-- No sum overflows: the stretch may be reckoned in words. -/
  words : ∀ length index remove : UInt64, items.length = length.toNat → ∀ insert,
    let range := spliceRange length index remove
    spliceList items index.toNat remove.toNat insert =
      (items.take range.1.toNat ++ insert ++ items.drop range.2.toNat,
        (items.take range.2.toNat).drop range.1.toNat)
  push : ∀ v, Edits (push c v) s c () (items ++ [v]) (some (.splice items.length [] 1))
  insertAt : ∀ index v, Edits (insertAt c index v) s c ()
    (items.insertIdx (min index items.length) v) (some (.splice (min index items.length) [] 1))
  removeAt : ∀ index, Edits (removeAt c index) s c items[index]? (items.eraseIdx index)
    (items[index]?.map fun v => .splice index [v] 0)
  pop : Edits (pop c) s c items.getLast? items.dropLast
    (items.getLast?.map fun v => .splice (items.length - 1) [v] 0)
  setAt : ∀ index v, Edits (setAt c index v) s c items[index]? (items.set index v)
    (items[index]?.map fun old => .splice index [old] 1)
  clear : Edits (clear c) s c () [] (if items = [] then none else some (.splice 0 items 0))

theorem Edits.of_eq {program : Action α} {result result' : α} {items' : List Value}
    {event event' : Option Event} (E : Edits program s c result items event)
    (hresult : result = result') (hitems : items = items') (hevent : event = event') :
    Edits program s c result' items' event' := by
  subst hresult hitems hevent
  exact E

theorem Edits.congr {program program' : Action α} {result : α} {event : Option Event}
    (E : Edits program s c result items event) (h : program'.run s = program.run s) :
    Edits program' s c result items event := by
  constructor <;> rw [h]
  · exact E.result
  · exact E.contents
  · exact E.others
  · exact E.notified

theorem spliceEvent?_of_mem {index remove : Nat} {insert : List Value}
    (h : (items.drop index).take remove ≠ [] ∨ insert ≠ []) :
    spliceEvent? items index remove insert =
      some (.splice (min index items.length) ((items.drop index).take remove) insert.length) :=
  if_neg (by rwa [not_and_or])

section Operations

variable (hc : s.heap.contents c = .sequence items)
include hc

theorem items_of_contents : s.heap.items c = items := by rw [Heap.items, hc]

theorem length_of_contents : s.heap.length c = items.length := by
  rw [Heap.length, items_of_contents hc]

theorem edits_splice (index remove : Nat) (insert : List Value) :
    let place := min index items.length
    let count := min remove (items.length - place)
    Edits (splice c index remove insert) s c ((items.drop place).take count)
      (items.take place ++ insert ++ items.drop (place + count))
      (if count = 0 ∧ insert = [] then none
        else some (.splice place ((items.drop place).take count) insert.length)) := by
  intro place count
  have hplace : items.take place = items.take index ∧ items.drop place = items.drop index :=
    ⟨List.take_eq_take_iff.2 (by omega), List.drop_eq_drop_iff.2 (by omega)⟩
  have hstretch : (items.drop place).take count = (items.drop index).take remove := by
    rw [hplace.2, List.take_eq_take_iff, List.length_drop]
    omega
  have hrest : items.drop (place + count) = items.drop (index + remove) :=
    List.drop_eq_drop_iff.2 (by omega)
  have hcount : (items.drop index).take remove = [] ↔ count = 0 := by
    rw [← List.length_eq_zero_iff, ← hstretch, List.length_take, List.length_drop]
    omega
  have hrun : (splice c index remove insert).run s
      = ((items.drop index).take remove, s.write (.splice c index remove insert)) := by
    have hremoved := congrArg Prod.snd (spliceList_eq items insert index remove)
    rw [← items_of_contents hc] at hremoved ⊢
    exact Prod.ext hremoved rfl
  refine (edits_of_splice hc hrun).of_eq hstretch.symm ?_ ?_
  · rw [hplace.1, hrest]
    rfl
  · rw [hstretch, spliceEvent?]
    simp only [hcount]
    rfl

theorem edits_push (v : Value) :
    Edits (push c v) s c () (items ++ [v]) (some (.splice items.length [] 1)) := by
  have hrun : (push c v).run s = ((), s.write (.splice c items.length 0 [v])) := by
    rw [← length_of_contents hc]
    rfl
  refine (edits_of_splice hc hrun).of_eq rfl ?_ ?_
  · rw [spliced, List.take_length, Nat.add_zero, List.drop_length, List.append_nil]
  · rw [spliceEvent?_of_mem (.inr (List.cons_ne_nil _ _)), Nat.min_self, List.take_zero]
    rfl

theorem edits_insertAt (index : Nat) (v : Value) :
    Edits (insertAt c index v) s c () (items.insertIdx (min index items.length) v)
      (some (.splice (min index items.length) [] 1)) := by
  have hrun : (insertAt c index v).run s = ((), s.write (.splice c index 0 [v])) := rfl
  refine (edits_of_splice hc hrun).of_eq rfl ?_ ?_
  · have hplace : items.take (min index items.length) = items.take index ∧
        items.drop (min index items.length) = items.drop index :=
      ⟨List.take_eq_take_iff.2 (by omega), List.drop_eq_drop_iff.2 (by omega)⟩
    rw [insertIdx_eq_splice _ _ _ (Nat.min_le_right _ _), hplace.1, hplace.2]
    rfl
  · rw [spliceEvent?_of_mem (.inr (List.cons_ne_nil _ _)), List.take_zero]
    rfl

theorem edits_nothing {program : Action α} {result : α} {index : Nat}
    (hrun : program.run s = (result, s.write (.splice c index 0 []))) :
    Edits program s c result items none := by
  have hevent : spliceEvent? items index 0 [] = none := if_pos ⟨List.take_zero, rfl⟩
  exact (edits_of_splice hc hrun).of_eq rfl (spliced_of_spliceEvent?_eq_none hevent) hevent

theorem edits_item {program : Action α} {result : α} {index : Nat} {insert : List Value}
    (hlt : index < items.length)
    (hrun : program.run s = (result, s.write (.splice c index 1 insert))) :
    Edits program s c result (items.take index ++ insert ++ items.drop (index + 1))
      (some (.splice index [items[index]] insert.length)) := by
  have hitem : (items.drop index).take 1 = [items[index]] := by
    rw [stretch_one, List.getElem?_eq_getElem hlt]
    rfl
  refine (edits_of_splice hc hrun).of_eq rfl rfl ?_
  rw [spliceEvent?_of_mem (.inl (by rw [hitem]; exact List.cons_ne_nil _ _)), hitem,
    Nat.min_eq_left (Nat.le_of_lt hlt)]

theorem edits_removeAt (index : Nat) :
    Edits (removeAt c index) s c items[index]? (items.eraseIdx index)
      (items[index]?.map fun v => .splice index [v] 0) := by
  have hrun : (removeAt c index).run s = (items[index]?,
      s.write (.splice c index (if index < items.length then 1 else 0) [])) := by
    rw [← length_of_contents hc, ← items_of_contents hc]
    rfl
  by_cases hlt : index < items.length
  · rw [if_pos hlt] at hrun
    refine (edits_item hc hlt hrun).of_eq rfl ?_ ?_
    · rw [List.append_nil, List.eraseIdx_eq_take_drop_succ]
    · rw [List.getElem?_eq_getElem hlt]
      rfl
  · rw [if_neg hlt] at hrun
    refine (edits_nothing hc hrun).of_eq rfl ?_ ?_
    · rw [List.eraseIdx_of_length_le (Nat.le_of_not_lt hlt)]
    · rw [List.getElem?_eq_none (Nat.le_of_not_lt hlt)]
      rfl

theorem edits_pop :
    Edits (pop c) s c items.getLast? items.dropLast
      (items.getLast?.map fun v => .splice (items.length - 1) [v] 0) := by
  have hrun : (pop c).run s = (removeAt c (items.length - 1)).run s := by
    have hlast : (s.heap.items c).getLast? = (s.heap.items c)[s.heap.length c - 1]? :=
      List.getLast?_eq_getElem?
    rw [← length_of_contents hc]
    exact Prod.ext hlast rfl
  refine ((edits_removeAt hc (items.length - 1)).congr hrun).of_eq
    List.getLast?_eq_getElem?.symm ?_ (by rw [List.getLast?_eq_getElem?])
  cases items with
  | nil => rfl
  | cons item rest => exact List.eraseIdx_eq_dropLast rfl

theorem edits_setAt (index : Nat) (v : Value) :
    Edits (setAt c index v) s c items[index]? (items.set index v)
      (items[index]?.map fun old => .splice index [old] 1) := by
  have hrun : (setAt c index v).run s = (items[index]?, s.write
      (if index < items.length then .splice c index 1 [v] else .splice c index 0 [])) := by
    rw [← length_of_contents hc, ← items_of_contents hc]
    rfl
  rw [List.set_eq_take_append_cons_drop]
  by_cases hlt : index < items.length
  · rw [if_pos hlt] at hrun ⊢
    refine (edits_item hc hlt hrun).of_eq rfl ?_ ?_
    · rw [List.append_assoc]
      rfl
    · rw [List.getElem?_eq_getElem hlt]
      rfl
  · rw [if_neg hlt] at hrun ⊢
    refine (edits_nothing hc hrun).of_eq rfl rfl ?_
    rw [List.getElem?_eq_none (Nat.le_of_not_lt hlt)]
    rfl

theorem edits_clear :
    Edits (clear c) s c () [] (if items = [] then none else some (.splice 0 items 0)) := by
  have hrun : (clear c).run s = ((), s.write (.splice c 0 items.length [])) := by
    rw [← length_of_contents hc]
    rfl
  refine (edits_of_splice hc hrun).of_eq rfl ?_ ?_
  · rw [spliced, Nat.zero_add, List.drop_length]
    rfl
  · rw [spliceEvent?, List.drop_zero, List.take_length, Nat.zero_min]
    simp

theorem operations : Operations s c items where
  splice := edits_splice hc
  words := fun _ _ _ hlength insert => spliceList_eq_range hlength _ _ insert
  push := edits_push hc
  insertAt := edits_insertAt hc
  removeAt := edits_removeAt hc
  pop := edits_pop hc
  setAt := edits_setAt hc
  clear := edits_clear hc

end Operations

end Action

end ReactivePage
