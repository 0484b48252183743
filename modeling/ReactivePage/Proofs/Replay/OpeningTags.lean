import ReactivePage.Proofs.Replay.Embedding
import ReactivePage.Proofs.Text.Folding
import ReactivePage.Proofs.Text.Marks

/-!
What an opening tag with the attribute is, as text, and that the search finds the first.

`TypeAttribute`, `TagRest` and `OpeningTag` spell the pattern out: a tag starts with `<script` and
lasts to a `>`, and what is in front of the attribute and behind it holds no other `>`. So an
opening tag has one `>` more than the type, and ends with it. This settles where each tag ends, and
the tag that starts first ends first: `behindTag?_eq_some_iff` says that the search returns the
longest text that stands behind an opening tag.
-/

namespace ReactivePage

namespace Text

theorem dropFolded?_eq_some_iff {word s rest : List Char} :
    dropFolded? word s = some rest ↔ ∃ t, t.map foldCase = word ∧ s = t ++ rest := by
  induction word generalizing s with
  | nil => simp [dropFolded?, eq_comm]
  | cons c word ih =>
    cases s with
    | nil => simp [dropFolded?]
    | cons d s =>
      by_cases hc : c = foldCase d
      · rw [dropFolded?, if_pos hc, ih]
        constructor
        · rintro ⟨t, rfl, rfl⟩
          exact ⟨d :: t, by rw [List.map_cons, hc], rfl⟩
        · rintro ⟨t, ht, hs⟩
          cases t with
          | nil => cases ht
          | cons e t =>
            obtain ⟨rfl, rfl⟩ := List.cons.inj hs
            exact ⟨t, (List.cons.inj ht).2, rfl⟩
      · rw [dropFolded?, if_neg hc]
        simp only [reduceCtorEq, false_iff, not_exists, not_and]
        intro t ht hs
        cases t with
        | nil => cases ht
        | cons e t =>
          obtain ⟨rfl, rfl⟩ := List.cons.inj hs
          exact hc (List.cons.inj ht).1.symm

end Text

namespace ScriptBlock

theorem dropMark?_eq_some_iff {mark : Char → Bool}
    (hmark : ∀ c, mark c = true → Text.isWhite c = false) {s rest : List Char} :
    dropMark? mark s = some rest ↔
      ∃ space c, (∀ x ∈ space, Text.isWhite x = true) ∧ mark c = true ∧ s = space ++ c :: rest := by
  constructor
  · intro h
    have hsplit := Text.takeWhile_append_trimStart s
    rw [dropMark?] at h
    split at h
    · next c t hs =>
      split at h
      · next hc =>
        cases h
        refine ⟨s.takeWhile Text.isWhite, c, fun x hx => ?_, hc, by rw [← hs, hsplit]⟩
        exact List.all_eq_true.1 List.all_takeWhile x hx
      · cases h
    · cases h
  · rintro ⟨space, c, hspace, hc, rfl⟩
    have htrim : Text.trimStart (space ++ c :: rest) = c :: rest := by
      rw [Text.trimStart, List.dropWhile_append_of_pos hspace]
      exact Text.trimStart_cons_of_not_white (hmark c hc)
    rw [dropMark?, htrim]
    exact if_pos hc

theorem isWhite_of_isQuote {c : Char} (h : isQuote c = true) : Text.isWhite c = false := by
  simp only [isQuote, Bool.or_eq_true, decide_eq_true_eq] at h
  rcases h with rfl | rfl <;> rfl

theorem dropQuote?_eq_some_iff {s rest : List Char} :
    dropQuote? s = some rest ↔ ∃ c, isQuote c = true ∧ s = c :: rest := by
  cases s with
  | nil => simp [dropQuote?]
  | cons c s =>
    rw [dropQuote?]
    split
    · next h =>
      constructor
      · rintro ⟨⟩
        exact ⟨c, h, rfl⟩
      · rintro ⟨d, -, ⟨⟩⟩
        rfl
    · next h =>
      constructor
      · rintro ⟨⟩
      · rintro ⟨d, hd, ⟨⟩⟩
        exact absurd hd h

inductive TypeAttribute (scriptType : List Char) : List Char → Prop
  | intro {name before behind value : List Char} {opening closing : Char}
      (hname : name.map Text.foldCase = ['t', 'y', 'p', 'e'])
      (hbefore : ∀ c ∈ before, Text.isWhite c = true)
      (hbehind : ∀ c ∈ behind, Text.isWhite c = true) (hopening : isQuote opening = true)
      (hvalue : value.map Text.foldCase = scriptType.map Text.foldCase)
      (hclosing : isQuote closing = true) :
      TypeAttribute scriptType
        (name ++ before ++ '=' :: behind ++ opening :: value ++ [closing])

variable {scriptType : List Char}

theorem dropAttribute?_eq_some_iff {before : Option Char} {s rest : List Char} :
    dropAttribute? (scriptType.map Text.foldCase) before s = some rest ↔
      Text.isBoundary before s.head? = true ∧ ∃ a, TypeAttribute scriptType a ∧ s = a ++ rest := by
  have hequals : ∀ c : Char, decide (c = '=') = true → Text.isWhite c = false := by
    simp only [decide_eq_true_eq]
    rintro c rfl
    rfl
  have hquote : ∀ c, isQuote c = true → Text.isWhite c = false := fun _ => isWhite_of_isQuote
  simp only [dropAttribute?, Option.bind_eq_bind, Option.bind_eq_some_iff,
    Text.dropFolded?_eq_some_iff]
  constructor
  · rintro ⟨s₁, ⟨name, hname, rfl⟩, h⟩
    split at h
    · next hboundary =>
      simp only [Option.bind_eq_some_iff, dropMark?_eq_some_iff hequals,
        dropMark?_eq_some_iff hquote, Text.dropFolded?_eq_some_iff, dropQuote?_eq_some_iff] at h
      obtain ⟨s₂, ⟨space, e, hspace, he, rfl⟩, s₃, ⟨gap, q, hgap, hq, rfl⟩, s₄,
        ⟨value, hvalue, rfl⟩, r, hr, rfl⟩ := h
      obtain rfl : e = '=' := by simpa using he
      exact ⟨hboundary, _, .intro hname hspace hgap hq hvalue hr, by simp⟩
    · cases h
  · rintro ⟨hboundary, a, ⟨hname, hbefore, hbehind, hopening, hvalue, hclosing⟩, rfl⟩
    refine ⟨_, ⟨_, hname, by simp only [List.append_assoc]; rfl⟩, ?_⟩
    rw [if_pos hboundary]
    simp only [Option.bind_eq_some_iff, dropMark?_eq_some_iff hequals,
      dropMark?_eq_some_iff hquote, Text.dropFolded?_eq_some_iff, dropQuote?_eq_some_iff]
    exact ⟨_, ⟨_, '=', hbefore, rfl, by simp⟩, _, ⟨_, _, hbehind, hopening, rfl⟩, _,
      ⟨_, hvalue, rfl⟩, _, hclosing, rfl⟩

/-- What is left of an opening tag behind a character inside of it, with the attribute still to
come. -/
inductive TagRest (scriptType : List Char) : Option Char → List Char → Prop
  | here {before : Option Char} {a tail : List Char}
      (hboundary : Text.isBoundary before a.head? = true) (ha : TypeAttribute scriptType a)
      (htail : '>' ∉ tail) : TagRest scriptType before (a ++ tail ++ ['>'])
  | skip {before : Option Char} {c : Char} {rest : List Char} (hc : c ≠ '>')
      (h : TagRest scriptType (some c) rest) : TagRest scriptType before (c :: rest)

inductive OpeningTag (scriptType : List Char) : List Char → Prop
  | intro {mark rest : List Char} (hmark : mark.map Text.foldCase = openingMark)
      (hword : Text.isBoundary mark.getLast? rest.head? = true)
      (hrest : TagRest scriptType mark.getLast? rest) : OpeningTag scriptType (mark ++ rest)

section Ends

theorem foldCase_eq_gt {c : Char} : Text.foldCase c = '>' ↔ c = '>' :=
  Text.foldCase_eq_iff (by decide) (by decide)

theorem count_gt_map_foldCase (s : List Char) : (s.map Text.foldCase).count '>' = s.count '>' := by
  induction s with
  | nil => rfl
  | cons c s ih => simp [List.count_cons, ih, foldCase_eq_gt]

theorem TypeAttribute.count_gt {a : List Char} (h : TypeAttribute scriptType a) :
    a.count '>' = scriptType.count '>' := by
  obtain ⟨hname, hbefore, hbehind, hopening, hvalue, hclosing⟩ := h
  have hwhite {w : List Char} (hw : ∀ c ∈ w, Text.isWhite c = true) : w.count '>' = 0 :=
    List.count_eq_zero.2 fun hm => by cases hw '>' hm
  have hquote {q : Char} (hq : isQuote q = true) : q ≠ '>' := by
    rintro rfl
    cases hq
  have hletters := congrArg (List.count '>') hname
  have hsame := congrArg (List.count '>') hvalue
  rw [count_gt_map_foldCase] at hletters hsame
  rw [count_gt_map_foldCase] at hsame
  simp [List.count_append, hletters, hwhite hbefore, hwhite hbehind, hsame,
    List.count_cons_of_ne (hquote hopening), List.count_cons_of_ne (hquote hclosing)]

theorem TagRest.exists_end {before : Option Char} {t : List Char}
    (h : TagRest scriptType before t) :
    ∃ u, t = u ++ ['>'] ∧ u.count '>' = scriptType.count '>' := by
  induction h with
  | here hboundary ha htail =>
    exact ⟨_, rfl, by rw [List.count_append, ha.count_gt, List.count_eq_zero.2 htail, Nat.add_zero]⟩
  | skip hc _ ih =>
    obtain ⟨u, rfl, hu⟩ := ih
    exact ⟨_ :: u, rfl, by rw [List.count_cons_of_ne hc, hu]⟩

theorem not_mem_of_mark {mark : List Char} (h : mark.map Text.foldCase = openingMark) :
    '>' ∉ mark := by
  have hnone := congrArg (List.count '>') h
  rw [count_gt_map_foldCase] at hnone
  exact List.count_eq_zero.1 hnone

theorem OpeningTag.exists_end {tag : List Char} (h : OpeningTag scriptType tag) :
    ∃ u, tag = u ++ ['>'] ∧ u.count '>' = scriptType.count '>' := by
  obtain ⟨hmark, hword, hrest⟩ := h
  obtain ⟨u, rfl, hu⟩ := hrest.exists_end
  exact ⟨_ ++ u, by rw [List.append_assoc], by
    rw [List.count_append, List.count_eq_zero.2 (not_mem_of_mark hmark), hu, Nat.zero_add]⟩

end Ends

section Search

variable {inside : Bool} {before : Option Char} {s rest : List Char}

theorem TypeAttribute.exists_cons {a : List Char} (h : TypeAttribute scriptType a) :
    ∃ c t, a = c :: t ∧ Text.foldCase c = 't' := by
  obtain ⟨hname, -, -, -, -, -⟩ := h
  obtain ⟨c, t, rfl, hc, -⟩ := List.map_eq_cons_iff.1 hname
  exact ⟨c, _, rfl, hc⟩

theorem TagRest.tail {c : Char} (h : TagRest scriptType before (c :: s))
    (hnone : ∀ a behind, TypeAttribute scriptType a → Text.isBoundary before (some c) = true →
      c :: s ≠ a ++ behind) : TagRest scriptType (some c) s := by
  generalize ht : c :: s = t at h
  cases h with
  | here hboundary ha htail =>
    obtain ⟨d, u, rfl, -⟩ := ha.exists_cons
    obtain rfl := (List.cons.inj ht).1
    exact absurd (by rw [ht, List.append_assoc]) (hnone _ _ ha hboundary)
  | skip hne h =>
    obtain ⟨rfl, rfl⟩ := List.cons.inj ht
    exact h

theorem TagRest.of_cons {c : Char} (h : TagRest scriptType before (c :: s))
    (hc : Text.foldCase c = 't' → Text.isBoundary before (some c) = false) :
    TagRest scriptType (some c) s := by
  refine h.tail fun a behind ha hboundary hs => ?_
  obtain ⟨d, u, rfl, hd⟩ := ha.exists_cons
  obtain rfl := (List.cons.inj hs).1
  rw [hc hd] at hboundary
  cases hboundary

theorem isWord?_getLast?_or {u : List Char} (word : List Char) {c : Char}
    (h : u.map Text.foldCase = word ++ [c]) (before : Option Char) (hascii : c.toNat < 0x80)
    (hletter : c.isAlpha = true) (hs : c ≠ 's') (hk : c ≠ 'k') :
    Text.isWord? (u.getLast?.or before) = true := by
  have hlast : u.getLast?.map Text.foldCase = some c := by
    rw [← List.getLast?_map, h, List.getLast?_concat]
  obtain ⟨d, hd, hfold⟩ := Option.map_eq_some_iff.1 hlast
  rw [hd]
  exact Text.isWordChar_of_foldCase hfold hascii hletter hs hk

theorem isBoundary_mark {mark : List Char} (h : mark.map Text.foldCase = openingMark)
    (behind : Option Char) :
    Text.isBoundary mark.getLast? behind = Text.isBoundary (some 't') behind := by
  have hword := isWord?_getLast?_or ['<', 's', 'c', 'r', 'i', 'p'] h none (by decide) (by decide)
    (by decide) (by decide)
  rw [Option.or_none] at hword
  rw [Text.isBoundary, hword]
  rfl

theorem isOpening_iff : isOpening s = true ↔ ∃ mark rest, mark.map Text.foldCase = openingMark ∧
    Text.isBoundary mark.getLast? rest.head? = true ∧ s = mark ++ rest := by
  constructor
  · intro h
    rw [isOpening.eq_def] at h
    split at h
    · next rest =>
      split at h
      · next behind hd =>
        obtain ⟨word, hword, rfl⟩ := Text.dropFolded?_eq_some_iff.1 hd
        have hmark : ('<' :: word).map Text.foldCase = openingMark := by
          rw [List.map_cons, hword]
          rfl
        exact ⟨'<' :: word, behind, hmark, by rw [isBoundary_mark hmark, h], rfl⟩
      · cases h
    · cases h
  · rintro ⟨mark, rest, hmark, hboundary, rfl⟩
    obtain ⟨c, word, rfl, hc, hword⟩ := List.map_eq_cons_iff.1 hmark
    obtain rfl := (Text.foldCase_eq_iff (by decide) (by decide)).1 hc
    rw [isBoundary_mark hmark] at hboundary
    rw [List.cons_append, isOpening, Text.dropFolded?_eq_some_iff.2 ⟨word, hword, rfl⟩]
    exact hboundary

theorem getLast?_cons_or (c : Char) (u : List Char) (before : Option Char) :
    (c :: u).getLast?.or before = u.getLast?.or (some c) := by
  rw [List.getLast?_cons]
  cases u.getLast? <;> rfl

theorem TagRest.append {u t : List Char} (hu : '>' ∉ u)
    (h : TagRest scriptType (u.getLast?.or before) t) : TagRest scriptType before (u ++ t) := by
  induction u generalizing before with
  | nil => exact h
  | cons c u ih =>
    rw [List.mem_cons, not_or] at hu
    rw [getLast?_cons_or] at h
    exact .skip (Ne.symm hu.1) (ih hu.2 h)

theorem OpeningTag.tagRest {tag : List Char} (h : OpeningTag scriptType tag) :
    TagRest scriptType before tag := by
  obtain ⟨hmark, -, hrest⟩ := h
  refine .append (not_mem_of_mark hmark) ?_
  rw [Option.or_of_isSome]
  · exact hrest
  · obtain ⟨c, t, rfl, -, -⟩ := List.map_eq_cons_iff.1 hmark
    rfl

theorem OpeningTag.isOpening {tag : List Char} (h : OpeningTag scriptType tag) :
    isOpening (tag ++ rest) = true := by
  obtain ⟨hmark, hword, hrest⟩ := h
  refine isOpening_iff.2 ⟨_, _, hmark, ?_, List.append_assoc _ _ _⟩
  obtain ⟨u, rfl, -⟩ := hrest.exists_end
  cases u <;> exact hword

theorem OpeningTag.exists_cons {tag : List Char} (h : OpeningTag scriptType tag) :
    ∃ t, tag = '<' :: t := by
  obtain ⟨hmark, -, -⟩ := h
  obtain ⟨c, word, rfl, hc, -⟩ := List.map_eq_cons_iff.1 hmark
  obtain rfl := (Text.foldCase_eq_iff (by decide) (by decide)).1 hc
  exact ⟨_, rfl⟩

theorem TagRest.behind_letters {u : List Char} (hu : ∀ c ∈ u, Text.foldCase c ≠ 't')
    (h : TagRest scriptType before (u ++ rest)) :
    TagRest scriptType (u.getLast?.or before) rest := by
  induction u generalizing before with
  | nil => exact h
  | cons c u ih =>
    rw [getLast?_cons_or]
    exact ih (fun d hd => hu d (List.mem_cons_of_mem _ hd))
      (h.of_cons fun hc => absurd hc (hu c List.mem_cons_self))

theorem TagRest.behind_mark {mark : List Char} (hmark : mark.map Text.foldCase = openingMark)
    (h : TagRest scriptType before (mark ++ rest)) : TagRest scriptType mark.getLast? rest := by
  have hsplit : mark.map Text.foldCase = ['<', 's', 'c', 'r', 'i', 'p'] ++ ['t'] := hmark
  obtain ⟨u, w, rfl, hu, hw⟩ := List.map_eq_append_iff.1 hsplit
  obtain ⟨c, t, rfl, hc, ht⟩ := List.map_eq_cons_iff.1 hw
  obtain rfl := List.map_eq_nil_iff.1 ht
  have hword := isWord?_getLast?_or ['<', 's', 'c', 'r', 'i'] hu before (by decide) (by decide)
    (by decide) (by decide)
  have hword' := Text.isWordChar_of_foldCase hc (by decide) (by decide) (by decide) (by decide)
  have hletters : ∀ x ∈ u, Text.foldCase x ≠ 't' := fun x hx heq => by
    have := hu ▸ List.mem_map_of_mem (f := Text.foldCase) hx
    rw [heq] at this
    exact absurd this (by decide)
  rw [List.append_assoc] at h
  rw [List.getLast?_concat]
  refine (h.behind_letters hletters).of_cons fun _ => ?_
  rw [Text.isBoundary, hword, Text.isWord?, Option.map_some, hword']
  rfl

/-- A search that counts the word `script` as inside of a tag finds no more for it. -/
theorem TagRest.openingTag {t : List Char} (h : TagRest scriptType before t)
    (hopen : isOpening s = true) (hs : s = t ++ rest) : OpeningTag scriptType t := by
  obtain ⟨mark, r, hmark, hboundary, rfl⟩ := isOpening_iff.1 hopen
  obtain ⟨u, rfl, -⟩ := h.exists_end
  rcases List.append_eq_append_iff.1 hs with ⟨d, hu, rfl⟩ | ⟨d, rfl, -⟩
  · rw [hu] at h
    have hrest := h.behind_mark hmark
    obtain ⟨v, rfl, -⟩ := hrest.exists_end
    rw [hu]
    refine .intro hmark ?_ hrest
    cases v <;> exact hboundary
  · exact absurd (by simp) (not_mem_of_mark hmark)

/-- A tag with the attribute ends in front of `rest`: one that starts in the text, or the one that
the text starts inside of. -/
def TagEnds (scriptType : List Char) (inside : Bool) (before : Option Char) (s rest : List Char) :
    Prop :=
  (∃ u tag, OpeningTag scriptType tag ∧ s = u ++ tag ++ rest) ∨
    inside = true ∧ ∃ t, TagRest scriptType before t ∧ s = t ++ rest

theorem TagEnds.intro (inside : Bool) (before : Option Char) {u tag : List Char}
    (htag : OpeningTag scriptType tag) (hs : s = u ++ tag ++ rest) :
    TagEnds scriptType inside before s rest :=
  .inl ⟨u, tag, htag, hs⟩

theorem TagEnds.exists_count (h : TagEnds scriptType inside before s rest) :
    ∃ y, s = y ++ '>' :: rest ∧ scriptType.count '>' ≤ y.count '>' := by
  rcases h with ⟨u, tag, htag, rfl⟩ | ⟨-, t, ht, rfl⟩
  · obtain ⟨v, rfl, hv⟩ := htag.exists_end
    refine ⟨u ++ v, by simp, ?_⟩
    rw [List.count_append, hv]
    omega
  · obtain ⟨v, rfl, hv⟩ := ht.exists_end
    exact ⟨v, by simp, Nat.le_of_eq hv.symm⟩

theorem TagEnds.cons {c : Char} (h : TagEnds scriptType false (some c) s rest) :
    TagEnds scriptType inside before (c :: s) rest := by
  rcases h with ⟨u, tag, htag, rfl⟩ | ⟨⟨⟩, -⟩
  exact .inl ⟨c :: u, tag, htag, rfl⟩

theorem dropTag?_eq_some_iff :
    dropTag? s = some rest ↔ ∃ tail, '>' ∉ tail ∧ s = tail ++ '>' :: rest := by
  induction s with
  | nil => simp [dropTag?]
  | cons c s ih =>
    rw [dropTag?]
    split
    · next hc =>
      subst hc
      constructor
      · rintro ⟨⟩
        exact ⟨[], List.not_mem_nil, rfl⟩
      · rintro ⟨tail, htail, hs⟩
        cases tail with
        | nil => rw [(List.cons.inj hs).2]
        | cons d tail => exact absurd ((List.cons.inj hs).1 ▸ List.mem_cons_self) htail
    · next hc =>
      rw [ih]
      constructor
      · rintro ⟨tail, htail, rfl⟩
        exact ⟨c :: tail, by simp [htail, Ne.symm hc], rfl⟩
      · rintro ⟨tail, htail, hs⟩
        cases tail with
        | nil => exact absurd (List.cons.inj hs).1 hc
        | cons d tail =>
          exact ⟨tail, fun hm => htail (List.mem_cons_of_mem _ hm), (List.cons.inj hs).2⟩

theorem exists_dropTag? (h : '>' ∈ s) : ∃ rest, dropTag? s = some rest := by
  obtain ⟨tail, rest, rfl, htail⟩ := List.eq_append_cons_of_mem h
  exact ⟨rest, dropTag?_eq_some_iff.2 ⟨tail, htail, rfl⟩⟩

theorem tagEnds_of_behindTag?
    (h : behindTag? (scriptType.map Text.foldCase) inside before s = some rest) :
    TagEnds scriptType inside before s rest := by
  induction s generalizing inside before with
  | nil => cases h
  | cons c s ih =>
    rw [behindTag?] at h
    split at h
    · exact (ih h).cons
    · next hc =>
      split at h
      · next hopen =>
        have hrest : TagEnds scriptType true before (c :: s) rest := by
          split at h
          · next behind hbehind =>
            obtain ⟨hboundary, a, ha, hs⟩ := dropAttribute?_eq_some_iff.1 hbehind
            obtain ⟨tail, htail, rfl⟩ := dropTag?_eq_some_iff.1 h
            have hhead : Text.isBoundary before a.head? = true := by
              obtain ⟨d, u, rfl, -⟩ := ha.exists_cons
              rwa [hs] at hboundary
            exact .inr ⟨rfl, a ++ tail ++ ['>'], .here hhead ha htail, by simp [hs]⟩
          · rcases ih h with hlater | ⟨-, t, ht, rfl⟩
            · exact TagEnds.cons (.inl hlater)
            · exact .inr ⟨rfl, _, .skip hc ht, rfl⟩
        rcases hrest with hlater | ⟨-, t, ht, hs⟩
        · exact .inl hlater
        · cases inside with
          | true => exact .inr ⟨rfl, t, ht, hs⟩
          | false => exact .inl ⟨[], t, ht.openingTag hopen hs, hs⟩
      · exact (ih h).cons

theorem TagRest.step {t : List Char} {c : Char} (h : TagRest scriptType before t)
    (hs : c :: s = t ++ rest) : c ≠ '>' ∧
      (dropAttribute? (scriptType.map Text.foldCase) before (c :: s) = none →
        ∃ u, TagRest scriptType (some c) u ∧ s = u ++ rest) := by
  cases h with
  | @here _ a tail hboundary ha htail =>
    obtain ⟨d, u, rfl, hd⟩ := ha.exists_cons
    obtain rfl : c = d := (List.cons.inj hs).1
    refine ⟨?_, fun hnone => ?_⟩
    · rintro rfl
      cases hd
    · have hattribute : dropAttribute? (scriptType.map Text.foldCase) before (c :: s)
          = some (tail ++ ['>'] ++ rest) :=
        dropAttribute?_eq_some_iff.2 ⟨hboundary, c :: u, ha, by simpa using hs⟩
      rw [hnone] at hattribute
      cases hattribute
  | skip hne h =>
    obtain ⟨rfl, rfl⟩ := List.cons.inj hs
    exact ⟨hne, fun _ => ⟨_, h, rfl⟩⟩

theorem TagEnds.enter (h : TagEnds scriptType false before s rest) :
    TagEnds scriptType true before s rest := by
  rcases h with h | ⟨⟨⟩, -⟩
  exact .inl h

theorem TagEnds.of_cons {c : Char} (h : TagEnds scriptType inside before (c :: s) rest) :
    TagEnds scriptType false (some c) s rest ∨
      (inside || isOpening (c :: s)) = true ∧
        ∃ t, TagRest scriptType before t ∧ c :: s = t ++ rest := by
  rcases h with ⟨u, tag, htag, hs⟩ | ⟨rfl, t, ht, hs⟩
  · cases u with
    | nil =>
      right
      rw [hs, List.nil_append, htag.isOpening, Bool.or_true]
      exact ⟨rfl, tag, htag.tagRest, rfl⟩
    | cons d u => exact .inl (.inl ⟨u, tag, htag, (List.cons.inj hs).2⟩)
  · exact .inr ⟨rfl, t, ht, hs⟩

theorem exists_dropTag?_of_tagEnds {a behind : List Char} (ha : TypeAttribute scriptType a)
    (h : TagEnds scriptType inside before (a ++ behind) rest) :
    ∃ found, dropTag? behind = some found ∧ rest.length ≤ found.length := by
  obtain ⟨y, hy, hcount⟩ := h.exists_count
  have hmem : '>' ∈ behind := by
    have := congrArg (List.count '>') hy
    rw [List.count_append, ha.count_gt, List.count_append, List.count_cons_self] at this
    exact List.count_pos_iff.1 (by omega)
  obtain ⟨found, hfound⟩ := exists_dropTag? hmem
  obtain ⟨tail, htail, rfl⟩ := dropTag?_eq_some_iff.1 hfound
  refine ⟨found, hfound, Text.length_le_of_count_le (m := '>') (u := a ++ tail) (v := y) ?_ ?_⟩
  · rw [List.append_assoc, hy]
  · rwa [List.count_append, ha.count_gt, List.count_eq_zero.2 htail]

theorem exists_behindTag? (h : TagEnds scriptType inside before s rest) :
    ∃ found, behindTag? (scriptType.map Text.foldCase) inside before s = some found ∧
      rest.length ≤ found.length := by
  induction s generalizing inside before with
  | nil =>
    obtain ⟨y, hs, -⟩ := h.exists_count
    simp at hs
  | cons c s ih =>
    rw [behindTag?]
    split
    · next hc =>
      rcases h.of_cons with hlater | ⟨-, t, ht, hs⟩
      · exact ih hlater
      · exact absurd hc (ht.step hs).1
    · next hc =>
      split
      · next hopen =>
        split
        · next behind hbehind =>
          obtain ⟨-, a, ha, hs⟩ := dropAttribute?_eq_some_iff.1 hbehind
          rw [hs] at h
          exact exists_dropTag?_of_tagEnds ha h
        · next hnone =>
          rcases h.of_cons with hlater | ⟨-, t, ht, hs⟩
          · exact ih (TagEnds.enter hlater)
          · obtain ⟨u, hu, hrest⟩ := (ht.step hs).2 hnone
            exact ih (.inr ⟨rfl, u, hu, hrest⟩)
      · next hopen =>
        rcases h.of_cons with hlater | ⟨hinside, -⟩
        · exact ih hlater
        · exact absurd hinside hopen

/-- The search returns the longest text that stands behind an opening tag with the attribute. -/
theorem behindTag?_eq_some_iff :
    behindTag? (scriptType.map Text.foldCase) false before s = some rest ↔
      (∃ u tag, OpeningTag scriptType tag ∧ s = u ++ tag ++ rest) ∧
        ∀ u tag later, OpeningTag scriptType tag → s = u ++ tag ++ later →
          later.length ≤ rest.length := by
  have hstarts {found : List Char}
      (h : behindTag? (scriptType.map Text.foldCase) false before s = some found) :
      ∃ u tag, OpeningTag scriptType tag ∧ s = u ++ tag ++ found := by
    rcases tagEnds_of_behindTag? h with h | ⟨⟨⟩, -⟩
    exact h
  constructor
  · intro h
    refine ⟨hstarts h, fun u tag later htag hs => ?_⟩
    obtain ⟨found, hfound, hle⟩ := exists_behindTag? (TagEnds.intro false before htag hs)
    rw [h] at hfound
    cases hfound
    exact hle
  · rintro ⟨⟨u, tag, htag, hs⟩, hlongest⟩
    obtain ⟨found, hfound, hle⟩ := exists_behindTag? (TagEnds.intro false before htag hs)
    obtain ⟨v, other, hother, hs'⟩ := hstarts hfound
    have hlength := Nat.le_antisymm (hlongest v other found hother hs') hle
    rw [hfound, (List.append_inj_right' (hs.symm.trans hs') hlength.symm)]

theorem behindTag?_congr {t : List Char} (b c : Option Char)
    (h : ∀ tag rest, OpeningTag scriptType tag →
      ((∃ u, s = u ++ tag ++ rest) ↔ ∃ u, t = u ++ tag ++ rest)) :
    behindTag? (scriptType.map Text.foldCase) false b s
      = behindTag? (scriptType.map Text.foldCase) false c t := by
  have hmove {x y : List Char} {b c : Option Char} {rest : List Char}
      (h : ∀ tag rest, OpeningTag scriptType tag →
        ((∃ u, x = u ++ tag ++ rest) ↔ ∃ u, y = u ++ tag ++ rest))
      (hx : behindTag? (scriptType.map Text.foldCase) false b x = some rest) :
      behindTag? (scriptType.map Text.foldCase) false c y = some rest := by
    obtain ⟨⟨u, tag, htag, hs⟩, hlongest⟩ := behindTag?_eq_some_iff.1 hx
    obtain ⟨v, hv⟩ := (h tag rest htag).1 ⟨u, hs⟩
    refine behindTag?_eq_some_iff.2 ⟨⟨v, tag, htag, hv⟩, fun w other later hother hy => ?_⟩
    obtain ⟨z, hz⟩ := (h other later hother).2 ⟨w, hy⟩
    exact hlongest z other later hother hz
  exact Option.ext fun rest => ⟨hmove h, hmove fun tag rest htag => (h tag rest htag).symm⟩

theorem behindTag?_eq_none_iff (before : Option Char) :
    behindTag? (scriptType.map Text.foldCase) false before s = none ↔
      ∀ tag, OpeningTag scriptType tag → ¬tag <:+: s := by
  constructor
  · rintro h tag htag ⟨u, rest, hs⟩
    obtain ⟨found, hfound, -⟩ := exists_behindTag? (TagEnds.intro false before htag hs.symm)
    rw [h] at hfound
    cases hfound
  · intro h
    cases hfound : behindTag? (scriptType.map Text.foldCase) false before s with
    | none => rfl
    | some found =>
      obtain ⟨⟨u, tag, htag, hs⟩, -⟩ := behindTag?_eq_some_iff.1 hfound
      exact absurd ⟨u, found, hs.symm⟩ (h tag htag)

end Search

end ScriptBlock

end ReactivePage
