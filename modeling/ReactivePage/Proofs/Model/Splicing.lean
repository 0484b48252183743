import Mathlib.Data.UInt
import ReactivePage.Proofs.Model.Frame

namespace ReactivePage

section Lists

variable {α : Type} (items insert : List α) (index remove : Nat)

theorem spliceList_eq :
    spliceList items index remove insert =
      (items.take index ++ insert ++ items.drop (index + remove),
        (items.drop index).take remove) := by
  rcases Nat.le_total index items.length with h | h
  · rw [spliceList, Nat.min_eq_left h, List.drop_drop]
  · have hdrop : items.drop (index + remove) = [] :=
      List.drop_eq_nil_of_le (Nat.le_trans h (Nat.le_add_right _ _))
    rw [spliceList, Nat.min_eq_right h, List.drop_length, List.take_length, hdrop,
      List.drop_eq_nil_of_le h, List.take_of_length_le h, List.drop_nil]

theorem take_append_stretch_append_drop :
    items.take index ++ (items.drop index).take remove ++ items.drop (index + remove) = items := by
  rw [List.append_assoc, ← List.drop_drop, List.take_append_drop, List.take_append_drop]

theorem length_stretch :
    ((items.drop index).take remove).length = min remove (items.length - index) := by
  rw [List.length_take, List.length_drop]

theorem stretch_one : (items.drop index).take 1 = items[index]?.toList := by
  rw [List.take_one, List.head?_drop]

theorem insertIdx_eq_splice (v : α) (h : index ≤ items.length) :
    items.insertIdx index v = items.take index ++ [v] ++ items.drop index := by
  induction items generalizing index with
  | nil =>
    obtain rfl : index = 0 := Nat.le_zero.1 h
    rfl
  | cons item rest ih =>
    cases index with
    | zero => rfl
    | succ index =>
      rw [List.insertIdx_succ_cons, ih index (Nat.le_of_succ_le_succ h)]
      rfl

end Lists

/-- The sum of two words, and the greatest word if it does not fit. -/
def saturatingAdd (a b : UInt64) : UInt64 := if a + b < a then UInt64.ofNat (2 ^ 64 - 1) else a + b

theorem toNat_saturatingAdd (a b : UInt64) :
    (saturatingAdd a b).toNat = min (a.toNat + b.toNat) (2 ^ 64 - 1) := by
  have ha := a.toNat_lt
  have hb := b.toNat_lt
  rw [saturatingAdd]
  split
  · next h =>
    rw [UInt64.lt_iff_toNat_lt, UInt64.toNat_add] at h
    rw [UInt64.toNat_ofNat']
    omega
  · next h =>
    rw [UInt64.lt_iff_toNat_lt, UInt64.toNat_add] at h
    rw [UInt64.toNat_add]
    omega

/-- The stretch that a splice of a list of a length takes out, reckoned in words. -/
def spliceRange (length index remove : UInt64) : UInt64 × UInt64 :=
  (min index length, min (saturatingAdd (min index length) remove) length)

theorem toNat_spliceRange (length index remove : UInt64) :
    (spliceRange length index remove).1.toNat = min index.toNat length.toNat ∧
      (spliceRange length index remove).2.toNat
        = min (index.toNat + remove.toNat) length.toNat := by
  have hlength := length.toNat_lt
  simp only [spliceRange, UInt64.toNat_min, toNat_saturatingAdd, true_and]
  omega

/-- No sum of words is wrong: the stretch is that of the numbers. -/
theorem spliceList_eq_range {α : Type} {items : List α} {length : UInt64}
    (h : items.length = length.toNat) (index remove : UInt64) (insert : List α) :
    let range := spliceRange length index remove
    spliceList items index.toNat remove.toNat insert =
      (items.take range.1.toNat ++ insert ++ items.drop range.2.toNat,
        (items.take range.2.toNat).drop range.1.toNat) := by
  obtain ⟨hfirst, hlast⟩ := toNat_spliceRange length index remove
  have htake : items.take (min index.toNat items.length) = items.take index.toNat :=
    List.take_eq_take_iff.2 (by omega)
  have hdrop : ∀ i, items.drop (min i items.length) = items.drop i := fun i =>
    List.drop_eq_drop_iff.2 (by omega)
  simp only [hfirst, hlast, ← h, spliceList_eq, List.drop_take, htake, hdrop]
  congr 1
  refine List.take_eq_take_iff.2 ?_
  rw [List.length_drop]
  omega

def spliced (items : List Value) (index remove : Nat) (insert : List Value) : List Value :=
  items.take index ++ insert ++ items.drop (index + remove)

def spliceEvent? (items : List Value) (index remove : Nat) (insert : List Value) : Option Event :=
  if (items.drop index).take remove = [] ∧ insert = [] then none
  else some (.splice (min index items.length) ((items.drop index).take remove) insert.length)

theorem eq_of_spliceEvent?_eq_some {items insert : List Value} {index remove : Nat} {e : Event}
    (h : spliceEvent? items index remove insert = some e) :
    e = .splice (min index items.length) ((items.drop index).take remove) insert.length := by
  rw [spliceEvent?] at h
  split at h
  · cases h
  · exact (Option.some.inj h).symm

theorem spliced_of_spliceEvent?_eq_none {items insert : List Value} {index remove : Nat}
    (h : spliceEvent? items index remove insert = none) :
    spliced items index remove insert = items := by
  rw [spliceEvent?] at h
  split at h
  · next hnone =>
    have hitems := take_append_stretch_append_drop items index remove
    rw [hnone.1] at hitems
    rw [spliced, hnone.2, hitems]
  · cases h

namespace Heap

variable {h : Heap} {c : Handle} {items : List Value}

theorem write_splice (hc : h.contents c = .sequence items) (index remove : Nat)
    (insert : List Value) :
    h.write (.splice c index remove insert) =
      match spliceEvent? items index remove insert with
      | some e => (h.setContents c (.sequence (spliced items index remove insert)), some e)
      | none => (h, none) := by
  simp only [write, hc, spliceList_eq, spliceEvent?, spliced]
  split <;> rfl

theorem event_write_splice (hc : h.contents c = .sequence items) (index remove : Nat)
    (insert : List Value) :
    (h.write (.splice c index remove insert)).2 = spliceEvent? items index remove insert := by
  rw [write_splice hc]
  cases spliceEvent? items index remove insert <;> rfl

theorem contents_write_splice (hc : h.contents c = .sequence items) (index remove : Nat)
    (insert : List Value) (d : Handle) :
    (h.write (.splice c index remove insert)).1.contents d =
      if d = c then .sequence (spliced items index remove insert) else h.contents d := by
  rw [write_splice hc]
  cases he : spliceEvent? items index remove insert with
  | some e => exact contents_setContents _ _ _ _
  | none =>
    rw [spliced_of_spliceEvent?_eq_none he]
    by_cases hd : d = c
    · rw [if_pos hd, hd]
      exact hc
    · rw [if_neg hd]

end Heap

end ReactivePage
