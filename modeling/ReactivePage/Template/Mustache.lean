/-!
Mustache spans in template text.

A span is `{{`, a body of one or more tokens, and `}}`. A token is a character other than a
brace, or a brace together with one more character that is not the same brace; so a body may
hold `{` and `}` as long as they are not doubled where a token starts. Reading a body is
deterministic: it ends at the first `}}` that stands where a token would start.
-/

namespace ReactivePage.Mustache

def consToken (t : List Char) (span : List Char × List Char) : List Char × List Char :=
  (t ++ span.1, span.2)

/-- Reads tokens up to the closing braces: the body so read and the text behind them. -/
def closing? : List Char → Option (List Char × List Char)
  | [] => none
  | [_] => none
  | c :: d :: rest =>
    if c = '}' then
      if d = '}' then some ([], rest) else (closing? rest).map (consToken [c, d])
    else if c = '{' then
      if d = '{' then none else (closing? rest).map (consToken [c, d])
    else (closing? (d :: rest)).map (consToken [c])

def spanAt? : List Char → Option (List Char × List Char)
  | '{' :: '{' :: rest =>
    match closing? rest with
    | some ([], _) => none
    | found => found
  | _ => none

def first? : List Char → Option (List Char × List Char × List Char)
  | [] => none
  | c :: rest =>
    match spanAt? (c :: rest) with
    | some (body, after) => some ([], body, after)
    | none => (first? rest).map fun found => (c :: found.1, found.2)

theorem eq_append_of_closing? {s body after : List Char} (h : closing? s = some (body, after)) :
    s = body ++ '}' :: '}' :: after := by
  fun_induction closing? s generalizing body with
  | case1 => simp at h
  | case2 => simp at h
  | case3 =>
    obtain ⟨rfl, rfl⟩ := Prod.ext_iff.1 (Option.some.inj h)
    rfl
  | case4 d rest hd ih =>
    obtain ⟨span, hs, he⟩ := Option.map_eq_some_iff.1 h
    obtain ⟨rfl, rfl⟩ := Prod.ext_iff.1 he
    simpa [consToken] using ih hs
  | case5 => simp at h
  | case6 d rest hd hc ih =>
    obtain ⟨span, hs, he⟩ := Option.map_eq_some_iff.1 h
    obtain ⟨rfl, rfl⟩ := Prod.ext_iff.1 he
    simpa [consToken] using ih hs
  | case7 c d rest hc hc' ih =>
    obtain ⟨span, hs, he⟩ := Option.map_eq_some_iff.1 h
    obtain ⟨rfl, rfl⟩ := Prod.ext_iff.1 he
    simpa [consToken] using ih hs

theorem length_of_closing? {s body after : List Char} (h : closing? s = some (body, after)) :
    after.length < s.length := by
  rw [eq_append_of_closing? h]
  simp only [List.length_append, List.length_cons]
  omega

theorem length_of_spanAt? {s body after : List Char} (h : spanAt? s = some (body, after)) :
    after.length < s.length := by
  unfold spanAt? at h
  split at h
  · next rest =>
    split at h
    · simp at h
    · have := length_of_closing? h
      simp only [List.length_cons]
      omega
  · simp at h

theorem length_of_first? {s : List Char} {found : List Char × List Char × List Char}
    (h : first? s = some found) : found.2.2.length < s.length := by
  induction s generalizing found with
  | nil => simp [first?] at h
  | cons c rest ih =>
    unfold first? at h
    split at h
    · next body after hs =>
      obtain rfl := Option.some.inj h
      exact length_of_spanAt? hs
    · obtain ⟨tail, ht, rfl⟩ := Option.map_eq_some_iff.1 h
      have := ih ht
      simp only [List.length_cons]
      omega

end ReactivePage.Mustache
