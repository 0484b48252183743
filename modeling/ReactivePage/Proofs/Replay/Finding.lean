import Mathlib.Data.Nat.Find
import ReactivePage.Proofs.Replay.OpeningTags

namespace ReactivePage

namespace ScriptBlock

variable {scriptType page body : List Char}

inductive ClosingTag : List Char → Prop
  | intro {word space : List Char}
      (hword : word.map Text.foldCase = ['s', 'c', 'r', 'i', 'p', 't'])
      (hspace : ∀ c ∈ space, Text.isWhite c = true) :
      ClosingTag ('<' :: '/' :: word ++ space ++ ['>'])

theorem ClosingTag.le_length {tag : List Char} (h : ClosingTag tag) : 9 ≤ tag.length := by
  obtain ⟨hword, -⟩ := h
  have := congrArg List.length hword
  simp only [List.length_map, List.length_cons, List.length_nil] at this
  simp only [List.length_append, List.length_cons, List.length_nil]
  omega

theorem isClosing_iff {s : List Char} :
    isClosing s = true ↔ ∃ tag rest, ClosingTag tag ∧ s = tag ++ rest := by
  have hend : ∀ c : Char, decide (c = '>') = true → Text.isWhite c = false := by
    simp only [decide_eq_true_eq]
    rintro c rfl
    rfl
  constructor
  · intro h
    rw [isClosing.eq_def] at h
    split at h
    · next rest =>
      split at h
      · next behind hd =>
        obtain ⟨word, hword, rfl⟩ := Text.dropFolded?_eq_some_iff.1 hd
        obtain ⟨after, hafter⟩ := Option.isSome_iff_exists.1 h
        obtain ⟨space, c, hspace, hc, rfl⟩ := (dropMark?_eq_some_iff hend).1 hafter
        obtain rfl : c = '>' := by simpa using hc
        exact ⟨_, after, .intro hword hspace, by simp⟩
      · cases h
    · cases h
  · rintro ⟨tag, rest, ⟨hword, hspace⟩, rfl⟩
    rename_i word space
    have hdrop : Text.dropFolded? ['s', 'c', 'r', 'i', 'p', 't'] (word ++ (space ++ '>' :: rest))
        = some (space ++ '>' :: rest) := Text.dropFolded?_eq_some_iff.2 ⟨word, hword, rfl⟩
    have hmark : dropMark? (· = '>') (space ++ '>' :: rest) = some rest :=
      (dropMark?_eq_some_iff hend).2 ⟨space, '>', hspace, rfl, rfl⟩
    simp [isClosing, hdrop, hmark]

theorem exists_closing {s : List Char} (h : body? s = some body) :
    ∃ tag rest, ClosingTag tag ∧ s = body ++ tag ++ rest := by
  induction s generalizing body with
  | nil => cases h
  | cons c s ih =>
    rw [body?] at h
    split at h
    · next hclosing =>
      cases h
      exact isClosing_iff.1 hclosing
    · obtain ⟨b, hb, rfl⟩ := Option.map_eq_some_iff.1 h
      obtain ⟨tag, rest, htag, rfl⟩ := ih hb
      exact ⟨tag, rest, htag, rfl⟩

theorem exists_body? {tag : List Char} (htag : ClosingTag tag) (before rest : List Char) :
    ∃ found, body? (before ++ tag ++ rest) = some found ∧ found.length ≤ before.length := by
  induction before with
  | nil =>
    refine ⟨[], ?_, Nat.le_refl _⟩
    have hclosing := isClosing_iff.2 ⟨tag, rest, htag, rfl⟩
    obtain ⟨hword, hspace⟩ := htag
    exact if_pos hclosing
  | cons c before ih =>
    obtain ⟨found, hfound, hle⟩ := ih
    rw [List.cons_append, List.cons_append, body?]
    split
    · exact ⟨[], rfl, Nat.zero_le _⟩
    · rw [hfound]
      exact ⟨c :: found, rfl, Nat.succ_le_succ hle⟩

def IsElement (scriptType page before tag body : List Char) : Prop :=
  OpeningTag scriptType tag ∧
    ∃ closing behind, ClosingTag closing ∧ page = before ++ tag ++ (body ++ closing ++ behind)

theorem isElement_of_findChars? (h : findChars? scriptType page = some body) :
    ∃ before tag, IsElement scriptType page before tag body := by
  obtain ⟨rest, hrest, hbody⟩ := Option.bind_eq_some_iff.1 h
  obtain ⟨⟨before, tag, htag, hpage⟩, -⟩ := behindTag?_eq_some_iff.1 hrest
  obtain ⟨closing, behind, hclosing, rfl⟩ := exists_closing hbody
  exact ⟨before, tag, htag, closing, behind, hclosing, hpage⟩

theorem findChars?_eq_none_iff :
    findChars? scriptType page = none ↔
      ∀ before tag body, ¬IsElement scriptType page before tag body := by
  constructor
  · rintro h before tag body ⟨htag, closing, behind, hclosing, hpage⟩
    obtain ⟨rest, hrest, hle⟩ := exists_behindTag? (TagEnds.intro false none htag hpage)
    obtain ⟨⟨u, other, -, hpage'⟩, -⟩ := behindTag?_eq_some_iff.1 hrest
    obtain ⟨d, rfl⟩ := List.suffix_of_suffix_length_le ⟨_, hpage.symm⟩ ⟨_, hpage'.symm⟩ hle
    obtain ⟨found, hfound, -⟩ := exists_body? hclosing (d ++ body) behind
    rw [findChars?, hrest] at h
    simp only [Option.bind_eq_bind, Option.bind_some] at h
    rw [List.append_assoc, List.append_assoc, ← List.append_assoc body, h] at hfound
    cases hfound
  · intro h
    cases hfound : findChars? scriptType page with
    | none => rfl
    | some body =>
      obtain ⟨before, tag, hmatch⟩ := isElement_of_findChars? hfound
      exact absurd hmatch (h before tag body)

theorem OpeningTag.length_rest_le {u v tag other rest later : List Char}
    (htag : OpeningTag scriptType tag) (hother : OpeningTag scriptType other)
    (hpage : page = u ++ tag ++ rest) (hpage' : page = v ++ other ++ later)
    (hle : u.length ≤ v.length) : later.length ≤ rest.length := by
  obtain ⟨x, rfl, hx⟩ := htag.exists_end
  obtain ⟨y, rfl, hy⟩ := hother.exists_end
  have hu : u <+: page := ⟨x ++ ['>'] ++ rest, by simp [hpage]⟩
  have hv : v <+: page := ⟨y ++ ['>'] ++ later, by simp [hpage']⟩
  have hprefix : u <+: v := List.prefix_of_prefix_length_le hu hv hle
  refine Text.length_le_of_count_le (m := '>') (u := u ++ x) (v := v ++ y) ?_ ?_
  · simpa using hpage.symm.trans hpage'
  · have := hprefix.sublist.count_le '>'
    simp only [List.count_append]
    omega

theorem OpeningTag.eq_of_append_eq {tag other rest later : List Char}
    (htag : OpeningTag scriptType tag) (hother : OpeningTag scriptType other)
    (h : tag ++ rest = other ++ later) : tag = other := by
  have hle := htag.length_rest_le (u := []) (v := []) hother rfl h (Nat.le_refl _)
  have hge := hother.length_rest_le (u := []) (v := []) htag h rfl (Nat.le_refl _)
  exact List.append_inj_left' h (Nat.le_antisymm hge hle)

theorem exists_first_tag {rest : List Char}
    (h : behindTag? (scriptType.map Text.foldCase) false none page = some rest) :
    ∃ u tag, OpeningTag scriptType tag ∧ page = u ++ tag ++ rest ∧
      ∀ v other later, OpeningTag scriptType other → page = v ++ other ++ later →
        u.length ≤ v.length := by
  classical
  obtain ⟨⟨v, other, hother, hpage'⟩, hlongest⟩ := behindTag?_eq_some_iff.1 h
  have hex : ∃ n u tag later, OpeningTag scriptType tag ∧ page = u ++ tag ++ later ∧ u.length = n :=
    ⟨_, v, other, rest, hother, hpage', rfl⟩
  obtain ⟨u, tag, later, htag, hpage, hlength⟩ := Nat.find_spec hex
  have hfirst : ∀ v other later, OpeningTag scriptType other → page = v ++ other ++ later →
      u.length ≤ v.length := fun v other later hother hpage =>
    hlength ▸ Nat.find_min' hex ⟨v, other, later, hother, hpage, rfl⟩
  have hsame : later.length = rest.length :=
    Nat.le_antisymm (hlongest u tag later htag hpage)
      (htag.length_rest_le hother hpage hpage' (hfirst v other rest hother hpage'))
  obtain rfl := List.append_inj_right' (hpage.symm.trans hpage') hsame
  exact ⟨u, tag, htag, hpage, hfirst⟩

/-- An element that starts first, with the shortest body of those that start there. -/
structure IsFirst (scriptType page before tag body : List Char) : Prop where
  element : IsElement scriptType page before tag body
  first : ∀ before' tag' body', IsElement scriptType page before' tag' body' →
    before.length < before'.length ∨ before' = before ∧ tag' = tag ∧ body.length ≤ body'.length

theorem IsFirst.unique {before tag before' tag' body' : List Char}
    (h : IsFirst scriptType page before tag body)
    (h' : IsFirst scriptType page before' tag' body') : body = body' := by
  rcases h.first before' tag' body' h'.element with hlt | ⟨rfl, rfl, hle⟩
  · rcases h'.first before tag body h.element with hlt' | ⟨rfl, -, -⟩ <;> omega
  · rcases h'.first before' tag' body h.element with hlt' | ⟨-, -, hge⟩
    · omega
    · obtain ⟨-, closing, behind, -, hpage⟩ := h.element
      obtain ⟨-, closing', behind', -, hpage'⟩ := h'.element
      have hsplit := List.append_cancel_left (hpage.symm.trans hpage')
      rw [List.append_assoc, List.append_assoc] at hsplit
      exact (List.append_inj hsplit (Nat.le_antisymm hle hge)).1

theorem exists_isFirst_of_findChars? (h : findChars? scriptType page = some body) :
    ∃ before tag, IsFirst scriptType page before tag body := by
  obtain ⟨rest, hrest, hbody⟩ := Option.bind_eq_some_iff.1 h
  obtain ⟨before, tag, htag, hpage, hmin⟩ := exists_first_tag hrest
  obtain ⟨closing, behind, hclosing, hrestEq⟩ := exists_closing hbody
  refine ⟨before, tag, ⟨htag, closing, behind, hclosing, by rw [hpage, hrestEq]⟩, ?_⟩
  rintro before' tag' body' ⟨htag', closing', behind', hclosing', hpage'⟩
  rcases Nat.lt_or_eq_of_le (hmin before' tag' _ htag' hpage') with hlt | heq
  · exact .inl hlt
  · right
    have hsplit := hpage.symm.trans hpage'
    rw [List.append_assoc, List.append_assoc] at hsplit
    obtain ⟨rfl, htags⟩ := List.append_inj hsplit heq
    obtain rfl := htag.eq_of_append_eq htag' htags
    obtain rfl := List.append_cancel_left htags
    obtain ⟨found, hfound, hle⟩ := exists_body? hclosing' body' behind'
    rw [hbody] at hfound
    cases hfound
    exact ⟨rfl, rfl, hle⟩

/-- The search finds the element that starts first, and the shortest body that stands there. -/
theorem findChars?_eq_some_iff :
    findChars? scriptType page = some body ↔
      ∃ before tag, IsFirst scriptType page before tag body := by
  refine ⟨exists_isFirst_of_findChars?, ?_⟩
  rintro ⟨before, tag, hfirst⟩
  cases hfound : findChars? scriptType page with
  | none => exact absurd hfirst.element (findChars?_eq_none_iff.1 hfound before tag body)
  | some found =>
    obtain ⟨before', tag', hfirst'⟩ := exists_isFirst_of_findChars? hfound
    rw [hfirst.unique hfirst']

end ScriptBlock

end ReactivePage
