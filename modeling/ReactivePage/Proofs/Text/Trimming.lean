import ReactivePage.Text.Blank

namespace ReactivePage.Text

theorem trimEnd_trimEnd (s : List Char) : trimEnd (trimEnd s) = trimEnd s := by
  rw [trimEnd, trimEnd, List.reverse_reverse, trimStart_trimStart]

theorem trimStart_trimChars (s : List Char) : trimStart (trimChars s) = trimChars s := by
  -- What stands first in a trimmed text is not white, so cutting at its end leaves it there.
  obtain ⟨w, -, h⟩ := trimEnd_append_white (trimStart s)
  have hstart := trimStart_trimStart s
  rw [trimChars]
  generalize trimEnd (trimStart s) = x at h ⊢
  cases x with
  | nil => rfl
  | cons c rest =>
    rw [← h] at hstart
    cases hc : isWhite c with
    | false => exact trimStart_cons_of_not_white hc
    | true =>
      have hlen := (List.dropWhile_suffix isWhite (l := rest ++ w)).length_le
      have hdrop : (rest ++ w).dropWhile isWhite = c :: (rest ++ w) := by
        simpa [trimStart, hc] using hstart
      rw [hdrop, List.length_cons] at hlen
      exact absurd hlen (Nat.not_succ_le_self _)

theorem trimChars_trimChars (s : List Char) : trimChars (trimChars s) = trimChars s := by
  calc trimEnd (trimStart (trimChars s)) = trimEnd (trimChars s) := by rw [trimStart_trimChars]
    _ = trimChars s := trimEnd_trimEnd (trimStart s)

theorem trimStart_eq_self {s : List Char} (h : ∀ c ∈ s.head?, isWhite c = false) :
    trimStart s = s := by
  cases s with
  | nil => rfl
  | cons c s => exact trimStart_cons_of_not_white (h c rfl)

theorem isWhite_of_isDigit {c : Char} (h : c.isDigit = true) : isWhite c = false := by
  have hrange : 48 ≤ c.toNat ∧ c.toNat ≤ 57 := by
    simpa [Char.isDigit, UInt32.le_iff_toNat_le] using h
  simp only [isWhite, inRanges, whiteRanges, List.any_cons, List.any_nil, Bool.or_false,
    Bool.or_eq_false_iff, Bool.and_eq_false_iff, decide_eq_false_iff_not]
  omega

def White (s : List Char) : Prop := ∀ c ∈ s, isWhite c = true

structure Trims (s content : List Char) : Prop where
  margins : ∃ v w, White v ∧ White w ∧ s = v ++ content ++ w
  head : ∀ c ∈ content.head?, isWhite c = false
  last : ∀ c ∈ content.getLast?, isWhite c = false

namespace Trims

variable {s content : List Char}

theorem length_le (ht : Trims s content) : content.length ≤ s.length := by
  obtain ⟨v, w, -, -, rfl⟩ := ht.margins
  simp only [List.length_append]
  omega

theorem eq_of_length_le (ht : Trims s content) (h : s.length ≤ content.length) : s = content := by
  obtain ⟨v, w, -, -, rfl⟩ := ht.margins
  simp only [List.length_append] at h
  obtain rfl : v = [] := List.length_eq_zero_iff.1 (by omega)
  obtain rfl : w = [] := List.length_eq_zero_iff.1 (by omega)
  rw [List.nil_append, List.append_nil]

end Trims

theorem not_white_of_head?_trimStart {s : List Char} {c : Char} (h : c ∈ (trimStart s).head?) :
    isWhite c = false := by
  have hnot := List.head?_dropWhile_not isWhite s
  rw [← trimStart, Option.mem_def.1 h] at hnot
  exact hnot

theorem trims_trimChars (s : List Char) : Trims s (trimChars s) where
  margins := by
    obtain ⟨v, w, hv, hw, h⟩ := exists_white_trimChars s
    exact ⟨v, w, hv, hw, h.symm⟩
  head := by
    intro c hc
    rw [← trimStart_trimChars] at hc
    exact not_white_of_head?_trimStart hc
  last := by
    intro c hc
    rw [trimChars, trimEnd, List.getLast?_reverse] at hc
    exact not_white_of_head?_trimStart hc

theorem trimChars_eq_self_iff {s : List Char} : trimChars s = s ↔
    (∀ c ∈ s.head?, isWhite c = false) ∧ ∀ c ∈ s.getLast?, isWhite c = false := by
  constructor
  · intro h
    have ht := trims_trimChars s
    rw [h] at ht
    exact ⟨ht.head, ht.last⟩
  · rintro ⟨head, last⟩
    rw [← List.head?_reverse] at last
    rw [trimChars, trimStart_eq_self head, trimEnd, trimStart_eq_self last, List.reverse_reverse]

end ReactivePage.Text
