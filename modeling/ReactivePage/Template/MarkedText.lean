import ReactivePage.Template.Mustache

/-!
Template text with the bodies of all its spans marked.

`ofChars` goes over a text once, from its end, and sets at each character the length of the body
that starts there. `first?` then finds spans without reading a body twice, however many spans a
text opens and leaves open. It finds the spans of `Mustache.first?`: `first?_ofChars`.
-/

namespace ReactivePage.Mustache

/-- A character, and the length of the body that starts with it if such a body is closed. -/
structure Mark where
  char : Char
  bodyLength : Option Nat

namespace Mark

def text (marks : List Mark) : List Char := marks.map char

def leading? (marks : List Mark) : Option Nat := marks.head?.bind bodyLength

def lengthBefore? (c : Char) : List Mark → Option Nat
  | [] => none
  | d :: rest =>
    if c = '}' then
      if d.char = '}' then some 0 else (leading? rest).map (· + 2)
    else if c = '{' then
      if d.char = '{' then none else (leading? rest).map (· + 2)
    else d.bodyLength.map (· + 1)

def ofChars : List Char → List Mark
  | [] => []
  | c :: rest =>
    let behind := ofChars rest
    ⟨c, lengthBefore? c behind⟩ :: behind

def spanAt? : List Mark → Option (List Char × List Mark)
  | a :: b :: rest =>
    if a.char = '{' ∧ b.char = '{' then
      match leading? rest with
      | some (n + 1) => some (text (rest.take (n + 1)), rest.drop (n + 3))
      | _ => none
    else none
  | _ => none

def first? : List Mark → Option (List Char × List Char × List Mark)
  | [] => none
  | a :: rest =>
    match spanAt? (a :: rest) with
    | some (body, behind) => some ([], body, behind)
    | none => (first? rest).map fun found => (a.char :: found.1, found.2)

theorem length_of_spanAt? {marks behind : List Mark} {body : List Char}
    (h : spanAt? marks = some (body, behind)) : behind.length < marks.length := by
  unfold spanAt? at h
  split at h
  · split at h
    · split at h
      · obtain ⟨-, rfl⟩ := Prod.ext_iff.1 (Option.some.inj h)
        simp only [List.length_drop, List.length_cons]
        omega
      · simp at h
    · simp at h
  · simp at h

theorem length_of_first? {marks : List Mark} {found : List Char × List Char × List Mark}
    (h : first? marks = some found) : found.2.2.length < marks.length := by
  induction marks generalizing found with
  | nil => simp [first?] at h
  | cons a rest ih =>
    unfold first? at h
    split at h
    · next body behind hs =>
      obtain rfl := Option.some.inj h
      exact length_of_spanAt? hs
    · obtain ⟨tail, ht, rfl⟩ := Option.map_eq_some_iff.1 h
      have := ih ht
      simp only [List.length_cons]
      omega

@[simp] theorem text_ofChars (s : List Char) : text (ofChars s) = s := by
  induction s with
  | nil => rfl
  | cons c s ih => simpa [ofChars, text] using ih

theorem drop_ofChars (s : List Char) (n : Nat) : (ofChars s).drop n = ofChars (s.drop n) := by
  induction s generalizing n with
  | nil => simp [ofChars]
  | cons c s ih =>
    cases n with
    | zero => rfl
    | succ n => exact ih n

theorem text_take_ofChars (s : List Char) (n : Nat) :
    text ((ofChars s).take n) = s.take n := by
  rw [text, List.map_take, ← text, text_ofChars]

theorem leading?_ofChars_cons_cons (c d : Char) (rest : List Char) :
    leading? (ofChars (c :: d :: rest)) =
      if c = '}' then
        if d = '}' then some 0 else (leading? (ofChars rest)).map (· + 2)
      else if c = '{' then
        if d = '{' then none else (leading? (ofChars rest)).map (· + 2)
      else (leading? (ofChars (d :: rest))).map (· + 1) := rfl

theorem leading?_ofChars (s : List Char) :
    leading? (ofChars s) = (closing? s).map fun span => span.1.length := by
  fun_induction closing? s with
  | case1 => rfl
  | case2 => rfl
  | case3 => rfl
  | case4 d rest hd ih =>
    rw [leading?_ofChars_cons_cons, if_pos rfl, if_neg hd, ih]
    simp [Function.comp_def, consToken]
  | case5 => rfl
  | case6 d rest hd hc ih =>
    rw [leading?_ofChars_cons_cons, if_neg (by decide), if_pos rfl, if_neg hd, ih]
    simp [Function.comp_def, consToken]
  | case7 c d rest hc hc' ih =>
    rw [leading?_ofChars_cons_cons, if_neg hc, if_neg hc', ih]
    simp [Function.comp_def, consToken]

theorem spanAt?_ofChars (s : List Char) :
    spanAt? (ofChars s) =
      (Mustache.spanAt? s).map fun span => (span.1, ofChars span.2) := by
  unfold Mustache.spanAt?
  split
  · next rest =>
    show (match leading? (ofChars rest) with
      | some (n + 1) => some (text ((ofChars rest).take (n + 1)), (ofChars rest).drop (n + 3))
      | _ => none) = _
    rw [leading?_ofChars]
    cases h : closing? rest with
    | none => rfl
    | some span =>
      obtain ⟨body, behind⟩ := span
      cases body with
      | nil => rfl
      | cons c body =>
        obtain rfl := eq_append_of_closing? h
        simp [text_take_ofChars, drop_ofChars]
  · next hs =>
    match s with
    | [] => rfl
    | [_] => rfl
    | c :: d :: rest =>
      have hcd : ¬(c = '{' ∧ d = '{') := by
        rintro ⟨rfl, rfl⟩
        exact hs rest rfl
      exact if_neg hcd

theorem first?_ofChars (s : List Char) :
    first? (ofChars s) =
      (Mustache.first? s).map fun found => (found.1, found.2.1, ofChars found.2.2) := by
  induction s with
  | nil => rfl
  | cons c rest ih =>
    have h := spanAt?_ofChars (c :: rest)
    unfold Mustache.first?
    cases hs : Mustache.spanAt? (c :: rest) with
    | none =>
      rw [hs] at h
      simp only [ofChars, first?] at h ⊢
      simp [h, ih, Function.comp_def]
    | some span =>
      rw [hs] at h
      simp only [ofChars, first?] at h ⊢
      simp [h]

end Mark

end ReactivePage.Mustache
