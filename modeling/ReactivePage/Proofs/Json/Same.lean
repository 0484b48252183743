import ReactivePage.Model.Heap

namespace ReactivePage

namespace Binary64

theorem same_refl (x : Binary64) : x.same x = true := by simp [same]

theorem same_symm {x y : Binary64} (h : x.same y = true) : y.same x = true := by
  simp only [same, Bool.or_eq_true, Bool.and_eq_true, decide_eq_true_eq] at h ⊢
  exact h.imp And.symm Eq.symm

theorem same_trans {x y z : Binary64} (h : x.same y = true) (k : y.same z = true) :
    x.same z = true := by
  simp only [same, Bool.or_eq_true, Bool.and_eq_true, decide_eq_true_eq] at h k ⊢
  rcases h with h | rfl
  · rcases k with k | rfl
    · exact .inl ⟨h.1, k.2⟩
    · exact .inl h
  · exact k

end Binary64

namespace Number

theorem same_refl (m : Number) : m.same m = true := by
  cases m with
  | integer n => simp [same]
  | double x => exact x.same_refl

theorem same_symm {m n : Number} (h : m.same n = true) : n.same m = true := by
  cases m <;> cases n <;> simp only [same, decide_eq_true_eq, Bool.false_eq_true] at h ⊢
  · exact h.symm
  · exact Binary64.same_symm h

theorem same_trans {l m n : Number} (h : l.same m = true) (k : m.same n = true) :
    l.same n = true := by
  cases l <;> cases m <;> cases n <;>
    simp only [same, decide_eq_true_eq, Bool.false_eq_true] at h k ⊢
  · exact h.trans k
  · exact Binary64.same_trans h k

end Number

namespace Json

mutual

theorem same_refl : (j : Json) → j.same j = true
  | .null => by simp [same]
  | .bool _ => by simp [same]
  | .number n => by simp [same, n.same_refl]
  | .string _ => by simp [same]
  | .array items => by rw [same]; exact sameItems_refl items
  | .object members => by rw [same]; exact sameMembers_refl members

theorem sameItems_refl : (items : List Json) → sameItems items items = true
  | [] => by rw [sameItems]
  | j :: rest => by rw [sameItems, same_refl j, sameItems_refl rest]; rfl

theorem sameMembers_refl : (members : List (String × Json)) → sameMembers members members = true
  | [] => by rw [sameMembers]
  | (k, j) :: rest => by simp [sameMembers, same_refl j, sameMembers_refl rest]

end

mutual

theorem same_symm : (i j : Json) → i.same j = true → j.same i = true
  | .null, j, h => by cases j <;> simp_all [same]
  | .bool _, j, h => by cases j <;> simp_all [same]
  | .number _, j, h => by
    cases j <;> simp only [same, Bool.false_eq_true] at h ⊢
    exact Number.same_symm h
  | .string _, j, h => by cases j <;> simp_all [same]
  | .array items, j, h => by
    cases j <;> simp only [same, Bool.false_eq_true] at h ⊢
    exact sameItems_symm items _ h
  | .object members, j, h => by
    cases j <;> simp only [same, Bool.false_eq_true] at h ⊢
    exact sameMembers_symm members _ h

theorem sameItems_symm : (as bs : List Json) → sameItems as bs = true → sameItems bs as = true
  | [], bs, h => by cases bs <;> simp_all [sameItems]
  | a :: as, bs, h => by
    cases bs with
    | nil => simp [sameItems] at h
    | cons b bs =>
      simp only [sameItems, Bool.and_eq_true] at h ⊢
      exact ⟨same_symm a b h.1, sameItems_symm as bs h.2⟩

theorem sameMembers_symm : (as bs : List (String × Json)) → sameMembers as bs = true →
    sameMembers bs as = true
  | [], bs, h => by cases bs <;> simp_all [sameMembers]
  | (k, a) :: as, bs, h => by
    cases bs with
    | nil => simp [sameMembers] at h
    | cons b bs =>
      obtain ⟨l, b⟩ := b
      simp only [sameMembers, Bool.and_eq_true, beq_iff_eq] at h ⊢
      exact ⟨⟨h.1.1.symm, same_symm a b h.1.2⟩, sameMembers_symm as bs h.2⟩

end

mutual

theorem same_trans : (i j k : Json) → i.same j = true → j.same k = true → i.same k = true
  | .null, j, k, h, h' => by cases j <;> cases k <;> simp_all [same]
  | .bool _, j, k, h, h' => by cases j <;> cases k <;> simp_all [same]
  | .number _, j, k, h, h' => by
    cases j <;> cases k <;> simp only [same, Bool.false_eq_true] at h h' ⊢
    exact Number.same_trans h h'
  | .string _, j, k, h, h' => by cases j <;> cases k <;> simp_all [same]
  | .array items, j, k, h, h' => by
    cases j <;> cases k <;> simp only [same, Bool.false_eq_true] at h h' ⊢
    exact sameItems_trans items _ _ h h'
  | .object members, j, k, h, h' => by
    cases j <;> cases k <;> simp only [same, Bool.false_eq_true] at h h' ⊢
    exact sameMembers_trans members _ _ h h'

theorem sameItems_trans : (as bs cs : List Json) → sameItems as bs = true →
    sameItems bs cs = true → sameItems as cs = true
  | [], bs, cs, h, h' => by cases bs <;> cases cs <;> simp_all [sameItems]
  | a :: as, bs, cs, h, h' => by
    cases bs with
    | nil => simp [sameItems] at h
    | cons b bs =>
      cases cs with
      | nil => simp [sameItems] at h'
      | cons c cs =>
        simp only [sameItems, Bool.and_eq_true] at h h' ⊢
        exact ⟨same_trans a b c h.1 h'.1, sameItems_trans as bs cs h.2 h'.2⟩

theorem sameMembers_trans : (as bs cs : List (String × Json)) → sameMembers as bs = true →
    sameMembers bs cs = true → sameMembers as cs = true
  | [], bs, cs, h, h' => by cases bs <;> cases cs <;> simp_all [sameMembers]
  | (i, a) :: as, bs, cs, h, h' => by
    cases bs with
    | nil => simp [sameMembers] at h
    | cons b bs =>
      cases cs with
      | nil => simp [sameMembers] at h'
      | cons c cs =>
        obtain ⟨j, b⟩ := b
        obtain ⟨k, c⟩ := c
        simp only [sameMembers, Bool.and_eq_true, beq_iff_eq] at h h' ⊢
        exact ⟨⟨h.1.1.trans h'.1.1, same_trans a b c h.1.2 h'.1.2⟩,
          sameMembers_trans as bs cs h.2 h'.2⟩

end

end Json

namespace Value

theorem same_refl (v : Value) : v.same v = true := by
  cases v with
  | scalar j => exact j.same_refl
  | ref c => simp [same]

theorem same_symm {v w : Value} (h : v.same w = true) : w.same v = true := by
  cases v <;> cases w <;> simp only [same, decide_eq_true_eq, Bool.false_eq_true] at h ⊢
  · exact Json.same_symm _ _ h
  · exact h.symm

theorem same_trans {u v w : Value} (h : u.same v = true) (k : v.same w = true) :
    u.same w = true := by
  cases u <;> cases v <;> cases w <;>
    simp only [same, decide_eq_true_eq, Bool.false_eq_true] at h k ⊢
  · exact Json.same_trans _ _ _ h k
  · exact h.trans k

theorem sameOption_refl (v : Option Value) : sameOption v v = true := by
  cases v with
  | none => rfl
  | some v => exact v.same_refl

theorem sameOption_symm {v w : Option Value} (h : sameOption v w = true) :
    sameOption w v = true := by
  cases v <;> cases w <;> simp only [sameOption, Bool.false_eq_true] at h ⊢
  exact same_symm h

theorem sameOption_trans {u v w : Option Value} (h : sameOption u v = true)
    (k : sameOption v w = true) : sameOption u w = true := by
  cases u <;> cases v <;> cases w <;> simp only [sameOption, Bool.false_eq_true] at h k ⊢
  exact same_trans h k

theorem eq_of_sameOption_ref {v : Option Value} {c : Handle}
    (h : sameOption v (some (.ref c)) = true) : v = some (.ref c) := by
  cases v with
  | none => simp [sameOption] at h
  | some v =>
    cases v with
    | scalar j => simp [sameOption, same] at h
    | ref d => simpa [sameOption, same] using h

end Value

end ReactivePage
