import ReactivePage.Template.Mustache

namespace ReactivePage.Mustache

/-- Any number of tokens: a character that is no brace, or a brace and a character that is not the
same brace. -/
inductive Tokens : List Char → Prop
  | nil : Tokens []
  | plain {c : Char} {body : List Char} : c ≠ '{' → c ≠ '}' → Tokens body → Tokens (c :: body)
  | opening {d : Char} {body : List Char} : d ≠ '{' → Tokens body → Tokens ('{' :: d :: body)
  | closing {d : Char} {body : List Char} : d ≠ '}' → Tokens body → Tokens ('}' :: d :: body)

def wrap (body : List Char) : List Char := '{' :: '{' :: body ++ ['}', '}']

structure Spans (s before body after : List Char) : Prop where
  tokens : Tokens body
  nonempty : body ≠ []
  text : s = before ++ (wrap body ++ after)

def Plain (s : List Char) : Prop := ∀ before body after, ¬ Spans s before body after

structure Leftmost (s before body after : List Char) : Prop where
  spans : Spans s before body after
  first : ∀ before' body' after', Spans s before' body' after' → before.length ≤ before'.length

theorem wrap_append (body after : List Char) :
    wrap body ++ after = '{' :: '{' :: (body ++ '}' :: '}' :: after) := by
  simp [wrap]

section Reading

variable {s body after : List Char}

theorem tokens_of_closing? (h : closing? s = some (body, after)) : Tokens body := by
  fun_induction closing? s generalizing body with
  | case1 => cases h
  | case2 => cases h
  | case3 =>
    cases h
    exact .nil
  | case4 d rest hd ih =>
    obtain ⟨span, hs, he⟩ := Option.map_eq_some_iff.1 h
    cases he
    exact .closing hd (ih hs)
  | case5 => cases h
  | case6 d rest hd hc ih =>
    obtain ⟨span, hs, he⟩ := Option.map_eq_some_iff.1 h
    cases he
    exact .opening hd (ih hs)
  | case7 c d rest hc hc' ih =>
    obtain ⟨span, hs, he⟩ := Option.map_eq_some_iff.1 h
    cases he
    exact .plain hc' hc (ih hs)

theorem closing?_cons_of_ne {c : Char} (h : c ≠ '{') (h' : c ≠ '}') (s : List Char) :
    closing? (c :: s) = (closing? s).map (consToken [c]) := by
  cases s with
  | nil => rfl
  | cons d s => rw [closing?, if_neg h', if_neg h]

theorem closing?_tokens_append {u : List Char} (h : Tokens u) (s : List Char) :
    closing? (u ++ s) = (closing? s).map (consToken u) := by
  induction h with
  | nil =>
    have hid : consToken [] = id := rfl
    rw [hid, Option.map_id]
    rfl
  | plain hc hc' _ ih =>
    rw [List.cons_append, closing?_cons_of_ne hc hc', ih, Option.map_map]
    rfl
  | opening hd _ ih =>
    rw [List.cons_append, List.cons_append, closing?, if_neg (by decide), if_pos rfl, if_neg hd, ih,
      Option.map_map]
    rfl
  | closing hd _ ih =>
    rw [List.cons_append, List.cons_append, closing?, if_pos rfl, if_neg hd, ih, Option.map_map]
    rfl

theorem closing?_append (h : Tokens body) (after : List Char) :
    closing? (body ++ '}' :: '}' :: after) = some (body, after) := by
  rw [closing?_tokens_append h]
  exact congrArg (fun t => some (t, after)) (List.append_nil body)

theorem spanAt?_eq_some_iff : spanAt? s = some (body, after) ↔ Spans s [] body after := by
  constructor
  · intro h
    unfold spanAt? at h
    split at h
    · next rest =>
      split at h
      · cases h
      · next hne =>
        refine ⟨tokens_of_closing? h, ?_, ?_⟩
        · rintro rfl
          exact hne _ h
        · rw [List.nil_append, wrap_append, eq_append_of_closing? h]
    · cases h
  · rintro ⟨htokens, hne, rfl⟩
    rw [List.nil_append, wrap_append, spanAt?, closing?_append htokens]
    split
    · next heq =>
      cases heq
      exact absurd rfl hne
    · rfl

theorem Spans.unique {body' after' : List Char} (h : Spans s [] body after)
    (h' : Spans s [] body' after') : body = body' ∧ after = after' := by
  have heq := (spanAt?_eq_some_iff.2 h).symm.trans (spanAt?_eq_some_iff.2 h')
  cases heq
  exact ⟨rfl, rfl⟩

end Reading

section Places

variable {s before body after : List Char}

theorem Spans.cons (h : Spans s before body after) (c : Char) :
    Spans (c :: s) (c :: before) body after :=
  ⟨h.tokens, h.nonempty, congrArg (c :: ·) h.text⟩

theorem Spans.of_cons {c d : Char} (h : Spans (c :: s) (d :: before) body after) :
    Spans s before body after :=
  ⟨h.tokens, h.nonempty, (List.cons.inj h.text).2⟩

theorem Spans.append (h : Spans s before body after) (more : List Char) :
    Spans (s ++ more) before body (after ++ more) := by
  refine ⟨h.tokens, h.nonempty, ?_⟩
  rw [h.text]
  simp only [List.append_assoc]

theorem Spans.nil_of_append {front : List Char} (h : Spans (front ++ s) before body after)
    (hl : before.length = front.length) : before = front ∧ Spans s [] body after := by
  obtain ⟨rfl, htext⟩ := List.append_inj h.text hl.symm
  exact ⟨rfl, h.tokens, h.nonempty, htext⟩

theorem plain_nil : Plain [] := by
  rintro before body after ⟨-, -, htext⟩
  simp [wrap_append] at htext

theorem Leftmost.unique {before' body' after' : List Char} (h : Leftmost s before body after)
    (h' : Leftmost s before' body' after') :
    before = before' ∧ body = body' ∧ after = after' := by
  -- The texts in front of two leftmost spans are of one length, and so the spans are the same.
  have hl : before.length = before'.length :=
    Nat.le_antisymm (h.first _ _ _ h'.spans) (h'.first _ _ _ h.spans)
  have hspans := h.spans
  rw [h'.spans.text] at hspans
  obtain ⟨rfl, hrest⟩ := hspans.nil_of_append hl
  exact ⟨rfl, hrest.unique ⟨h'.spans.tokens, h'.spans.nonempty, rfl⟩⟩

theorem Leftmost.plain_before (h : Leftmost s before body after) : Plain before := by
  -- A span in the text in front would stand further left.
  intro before' body' after' hspans
  have hle := h.first before' body' (after' ++ (wrap body ++ after)) (by
    rw [h.spans.text]
    exact hspans.append _)
  rw [hspans.text] at hle
  simp only [List.length_append, wrap_append, List.length_cons] at hle
  omega

theorem plain_of_first? (h : first? s = none) : Plain s := by
  induction s with
  | nil => exact plain_nil
  | cons c rest ih =>
    unfold first? at h
    split at h
    · cases h
    · next hnone =>
      intro before body after hspans
      cases before with
      | nil =>
        rw [spanAt?_eq_some_iff.2 hspans] at hnone
        cases hnone
      | cons d before => exact ih (Option.map_eq_none_iff.1 h) before body after hspans.of_cons

theorem leftmost_of_first? (h : first? s = some (before, body, after)) :
    Leftmost s before body after := by
  induction s generalizing before with
  | nil => cases h
  | cons c rest ih =>
    unfold first? at h
    split at h
    · next hs =>
      cases h
      exact ⟨spanAt?_eq_some_iff.1 hs, fun _ _ _ _ => Nat.zero_le _⟩
    · next hnone =>
      obtain ⟨⟨before', body', after'⟩, hfound, heq⟩ := Option.map_eq_some_iff.1 h
      cases heq
      have L := ih hfound
      refine ⟨L.spans.cons c, fun before₁ body₁ after₁ hspans => ?_⟩
      cases before₁ with
      | nil =>
        rw [spanAt?_eq_some_iff.2 hspans] at hnone
        cases hnone
      | cons d before₁ => exact Nat.succ_le_succ (L.first _ _ _ hspans.of_cons)

theorem Leftmost.first?_eq (h : Leftmost s before body after) :
    first? s = some (before, body, after) := by
  cases hf : first? s with
  | none => exact absurd h.spans (plain_of_first? hf _ _ _)
  | some found =>
    obtain ⟨rfl, rfl, rfl⟩ := h.unique (leftmost_of_first? hf)
    rfl

theorem Plain.first?_eq_none (h : Plain s) : first? s = none := by
  cases hf : first? s with
  | none => rfl
  | some found => exact absurd (leftmost_of_first? hf).spans (h _ _ _)

end Places

end ReactivePage.Mustache
