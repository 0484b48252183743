namespace ReactivePage.Text

def whiteRanges : List (Nat × Nat) :=
  [(0x09, 0x0D), (0x20, 0x20), (0x85, 0x85), (0xA0, 0xA0), (0x1680, 0x1680), (0x2000, 0x200A),
    (0x2028, 0x2029), (0x202F, 0x202F), (0x205F, 0x205F), (0x3000, 0x3000)]

def inRanges (ranges : List (Nat × Nat)) (c : Char) : Bool :=
  ranges.any fun r => r.1 ≤ c.toNat && c.toNat ≤ r.2

def isWhite (c : Char) : Bool := inRanges whiteRanges c

def trimStart (s : List Char) : List Char := s.dropWhile isWhite

def trimEnd (s : List Char) : List Char := (trimStart s.reverse).reverse

def trimChars (s : List Char) : List Char := trimEnd (trimStart s)

def trim (s : String) : String := String.ofList (trimChars s.toList)

def isBlank (s : String) : Bool := s.toList.all isWhite

theorem takeWhile_append_trimStart (s : List Char) :
    s.takeWhile isWhite ++ trimStart s = s :=
  List.takeWhile_append_dropWhile

theorem trimStart_cons_of_not_white {c : Char} {s : List Char} (h : isWhite c = false) :
    trimStart (c :: s) = c :: s := by
  simp [trimStart, h]

@[simp] theorem trimStart_trimStart (s : List Char) : trimStart (trimStart s) = trimStart s := by
  induction s with
  | nil => rfl
  | cons c s ih =>
    cases h : isWhite c with
    | true => simpa [trimStart, List.dropWhile_cons, h] using ih
    | false => rw [trimStart_cons_of_not_white h, trimStart_cons_of_not_white h]

theorem trimEnd_append_white (s : List Char) :
    ∃ w : List Char, (∀ c ∈ w, isWhite c = true) ∧ trimEnd s ++ w = s := by
  refine ⟨(s.reverse.takeWhile isWhite).reverse, fun c hc => ?_, ?_⟩
  · have hmem : c ∈ s.reverse.takeWhile isWhite := List.mem_reverse.1 hc
    exact List.all_eq_true.1 (List.all_takeWhile (p := isWhite) (l := s.reverse)) c hmem
  · rw [trimEnd, ← List.reverse_append, takeWhile_append_trimStart, List.reverse_reverse]

theorem exists_white_trimChars (s : List Char) :
    ∃ v w : List Char, (∀ c ∈ v, isWhite c = true) ∧ (∀ c ∈ w, isWhite c = true) ∧
      v ++ trimChars s ++ w = s := by
  obtain ⟨w, hw, h⟩ := trimEnd_append_white (trimStart s)
  refine ⟨s.takeWhile isWhite, w, fun c hc => ?_, hw, ?_⟩
  · exact List.all_eq_true.1 (List.all_takeWhile (p := isWhite) (l := s)) c hc
  · rw [trimChars, List.append_assoc, h, takeWhile_append_trimStart]

end ReactivePage.Text
