import ReactivePage.Proofs.Json.Tokens
import ReactivePage.Proofs.Model.Spelling
import ReactivePage.Proofs.Text.Trimming
import Mathlib.Data.List.Basic
import Mathlib.Data.List.TakeWhile

namespace ReactivePage

namespace Digits

/-- An optional plus sign and at least one decimal digit, for a number of 64 bits. -/
structure Numeral (s : List Char) (n : Nat) : Prop where
  spelled : ∃ digits, (s = digits ∨ s = '+' :: digits) ∧ digits ≠ [] ∧
    (∀ c ∈ digits, c.isDigit = true) ∧ value digits = n
  bound : n < wordLimit

theorem value?_eq_some_iff {s : List Char} {n : Nat} :
    value? s = some n ↔ s ≠ [] ∧ (∀ c ∈ s, c.isDigit = true) ∧ value s = n := by
  rw [value?, Option.ite_none_right_eq_some, Option.some.injEq, List.all_eq_true, and_assoc]

theorem dropPlus_of_digits {s : List Char} (h : ∀ c ∈ s, c.isDigit = true) : dropPlus s = s := by
  cases s with
  | nil => rfl
  | cons c rest =>
    have hc := h c List.mem_cons_self
    rw [dropPlus]
    rintro _ ⟨⟩
    cases hc

theorem dropPlus_cases (s : List Char) : s = dropPlus s ∨ s = '+' :: dropPlus s := by
  rw [dropPlus.eq_def]
  split
  · exact .inr rfl
  · exact .inl rfl

theorem word?_eq_some_iff {s : List Char} {n : Nat} : word? s = some n ↔ Numeral s n := by
  constructor
  · intro h
    refine ⟨⟨dropPlus s, dropPlus_cases s, ?_⟩, lt_of_word?_eq_some h⟩
    rw [← value?_eq_some_iff]
    rw [word?] at h
    cases hv : value? (dropPlus s) with
    | none =>
      rw [hv] at h
      cases h
    | some m =>
      rw [hv] at h
      simp only [Option.ite_none_right_eq_some, Option.some.injEq] at h
      rw [h.2]
  · rintro ⟨⟨digits, hs, hdigits⟩, hbound⟩
    have hplus : dropPlus s = digits := by
      rcases hs with rfl | rfl
      · exact dropPlus_of_digits hdigits.2.1
      · rfl
    rw [word?, hplus, value?_eq_some_iff.2 hdigits]
    exact if_pos hbound

theorem Numeral.chars {s : List Char} {n : Nat} (h : Numeral s n) :
    ∀ c ∈ s, c = '+' ∨ c.isDigit = true := by
  obtain ⟨digits, rfl | rfl, -, hdigits, -⟩ := h.spelled
  · exact fun c hc => .inr (hdigits c hc)
  · exact List.forall_mem_cons.2 ⟨.inl rfl, fun c hc => .inr (hdigits c hc)⟩

end Digits

namespace Path

inductive Names : List Char → Step → Prop
  | number {s : List Char} {i : Nat} : Digits.Numeral s i → Names s (.index i)
  | key {s : List Char} : (∀ i, ¬ Digits.Numeral s i) → Names s (.key (String.ofList s))

inductive Groups : List Char → List Step → Prop
  | nil : Groups [] []
  | cons {inner rest : List Char} {i : Nat} {steps : List Step} :
      Digits.Numeral (Text.trimChars inner) i → Groups rest steps →
        Groups ('[' :: inner ++ ']' :: rest) (.index i :: steps)

/-- A head, up to the first bracket and trimmed, and groups. A segment behind the first may go
without a head if it has groups. -/
inductive Segment : Bool → List Char → List Step → Prop
  | headed {isFirst : Bool} {head groups : List Char} {step : Step} {steps : List Step} :
      '[' ∉ head → Text.trimChars head ≠ [] → Names (Text.trimChars head) step →
        Groups groups steps → Segment isFirst (head ++ groups) (step :: steps)
  | bare {head groups : List Char} {steps : List Step} :
      '[' ∉ head → Text.trimChars head = [] → groups ≠ [] → Groups groups steps →
        Segment false (head ++ groups) steps

inductive Segments : Bool → List (List Char) → List Step → Prop
  | nil {isFirst : Bool} : Segments isFirst [] []
  | cons {isFirst : Bool} {s : List Char} {rest : List (List Char)} {steps more : List Step} :
      Segment isFirst s steps → Segments false rest more →
        Segments isFirst (s :: rest) (steps ++ more)

def Spells (text : String) (steps : List Step) : Prop :=
  Text.trimChars text.toList ≠ [] ∧ ∃ pieces, pieces ≠ [] ∧ (∀ s ∈ pieces, '.' ∉ s) ∧
    ['.'].intercalate pieces = Text.trimChars text.toList ∧ Segments true pieces steps

theorem names_iff {s : List Char} {step : Step} : Names s step ↔ Step.ofHead s = step := by
  rw [Step.ofHead]
  constructor
  · rintro (h | h)
    · rw [Digits.word?_eq_some_iff.2 h]
    · cases hw : Digits.word? s with
      | none => rfl
      | some i => exact absurd (Digits.word?_eq_some_iff.1 hw) (h i)
  · rintro rfl
    cases hw : Digits.word? s with
    | none =>
      refine .key fun i hi => ?_
      cases hw.symm.trans (Digits.word?_eq_some_iff.2 hi)
    | some i => exact .number (Digits.word?_eq_some_iff.1 hw)

theorem not_mem_of_numeral_trimChars {inner : List Char} {i : Nat}
    (h : Digits.Numeral (Text.trimChars inner) i) : ']' ∉ inner := by
  -- White space and numerals have no brackets in them, so a group ends at its first one.
  obtain ⟨v, w, hv, hw, heq⟩ := Text.exists_white_trimChars inner
  rw [← heq, List.mem_append, List.mem_append]
  rintro ((hm | hm) | hm)
  · cases hv _ hm
  · rcases h.chars _ hm with hc | hc <;> cases hc
  · cases hw _ hm

theorem span_of_not_mem {x : Char} {s : List Char} (h : x ∉ s) {rest : List Char}
    (hrest : ∀ c ∈ rest.head?, c = x) : (s ++ rest).span (· ≠ x) = (s, rest) := by
  have hs : ∀ c ∈ s, decide (c ≠ x) = true := by
    intro c hc
    simpa using fun heq : c = x => h (heq ▸ hc)
  rw [List.span_eq_takeWhile_dropWhile, List.takeWhile_append_of_pos hs,
    List.dropWhile_append_of_pos hs]
  cases rest with
  | nil => simp
  | cons c rest => simp [hrest c rfl]

theorem span_eq_append {x : Char} (s : List Char) : ∃ front rest, s = front ++ rest ∧ x ∉ front ∧
    (∀ c ∈ rest.head?, c = x) ∧ s.span (· ≠ x) = (front, rest) := by
  refine ⟨s.takeWhile (· ≠ x), s.dropWhile (· ≠ x), List.takeWhile_append_dropWhile.symm, ?_, ?_,
    List.span_eq_takeWhile_dropWhile _ _⟩
  · intro hm
    simpa using List.mem_takeWhile_imp hm
  · intro c hc
    have hnot := List.head?_dropWhile_not (· ≠ x) s
    rw [Option.mem_def.1 hc] at hnot
    simpa using hnot

theorem Groups.head {s : List Char} {steps : List Step} (h : Groups s steps) :
    ∀ c ∈ s.head?, c = '[' := by
  cases h with
  | nil => nofun
  | cons => rintro c ⟨⟩; rfl

theorem exists_group {fuel : Nat} {c : Char} {s : List Char} {steps : List Step}
    (h : groups (fuel + 1) (c :: s) = .ok steps) :
    ∃ inner rest i more, c :: s = '[' :: inner ++ ']' :: rest ∧
      Digits.Numeral (Text.trimChars inner) i ∧ groups fuel rest = .ok more ∧
        .index i :: more = steps := by
  obtain ⟨inner, behind, rfl, -, hbehind, hspan⟩ := span_eq_append (x := ']') s
  rw [groups, hspan] at h
  split at h
  · cases h
  · next hc =>
    obtain rfl : c = '[' := by simpa using hc
    cases behind with
    | nil => cases h
    | cons d rest =>
      obtain rfl := hbehind d rfl
      cases hw : Digits.word? (Text.trimChars inner) with
      | none =>
        simp only [hw] at h
        cases h
      | some i =>
        simp only [hw] at h
        obtain ⟨more, hmore, hsteps⟩ := map_eq_ok_iff.1 h
        exact ⟨inner, rest, i, more, rfl, Digits.word?_eq_some_iff.1 hw, hmore, hsteps⟩

theorem groups_group {fuel : Nat} {inner rest : List Char} {i : Nat}
    (hi : Digits.Numeral (Text.trimChars inner) i) :
    groups (fuel + 1) ('[' :: inner ++ ']' :: rest) = (Step.index i :: ·) <$> groups fuel rest := by
  have hspan : (inner ++ ']' :: rest).span (· ≠ ']') = (inner, ']' :: rest) :=
    span_of_not_mem (not_mem_of_numeral_trimChars hi) (by simp)
  rw [List.cons_append, groups, if_neg (by simp), hspan]
  simp only [Digits.word?_eq_some_iff.2 hi]

theorem groups_eq_ok_iff {fuel : Nat} {s : List Char} {steps : List Step} (h : s.length ≤ fuel) :
    groups fuel s = .ok steps ↔ Groups s steps := by
  induction fuel generalizing s steps with
  | zero =>
    obtain rfl : s = [] := List.length_eq_zero_iff.1 (Nat.le_zero.1 h)
    constructor
    · rintro ⟨⟩
      exact .nil
    · rintro ⟨⟩
      rfl
  | succ fuel ih =>
    have hle : ∀ {inner rest : List Char}, ('[' :: inner ++ ']' :: rest).length ≤ fuel + 1 →
        rest.length ≤ fuel := by
      intro inner rest h
      simp only [List.cons_append, List.length_cons, List.length_append] at h
      omega
    constructor
    · intro hs
      cases s with
      | nil =>
        cases hs
        exact .nil
      | cons c s =>
        obtain ⟨inner, rest, i, more, hcut, hi, hmore, rfl⟩ := exists_group hs
        rw [hcut] at h ⊢
        exact .cons hi ((ih (hle h)).1 hmore)
    · rintro (_ | ⟨hi, hmore⟩)
      · rfl
      · rw [groups_group hi, (ih (hle h)).2 hmore]
        rfl

section Segment

variable {isFirst : Bool} {head rest : List Char}

theorem segment_of_blank (hhead : '[' ∉ head) (hrest : ∀ c ∈ rest.head?, c = '[')
    (hblank : Text.trimChars head = []) : segment isFirst (head ++ rest)
      = if rest = [] ∨ isFirst then .error .emptySegment else groups rest.length rest := by
  simp only [segment, span_of_not_mem hhead hrest, hblank]

theorem segment_of_head (hhead : '[' ∉ head) (hrest : ∀ c ∈ rest.head?, c = '[')
    (hne : Text.trimChars head ≠ []) : segment isFirst (head ++ rest)
      = (Step.ofHead (Text.trimChars head) :: ·) <$> groups rest.length rest := by
  simp only [segment, span_of_not_mem hhead hrest]

theorem segment_eq_ok_iff {s : List Char} {steps : List Step} :
    segment isFirst s = .ok steps ↔ Segment isFirst s steps := by
  constructor
  · intro hs
    obtain ⟨head, rest, rfl, hhead, hrest, -⟩ := span_eq_append (x := '[') s
    by_cases hblank : Text.trimChars head = []
    · rw [segment_of_blank hhead hrest hblank] at hs
      split at hs
      · cases hs
      · next hmissing =>
        rw [not_or, Bool.not_eq_true] at hmissing
        rw [hmissing.2]
        exact .bare hhead hblank hmissing.1 ((groups_eq_ok_iff (Nat.le_refl _)).1 hs)
    · rw [segment_of_head hhead hrest hblank] at hs
      obtain ⟨more, hmore, rfl⟩ := map_eq_ok_iff.1 hs
      exact .headed hhead hblank (names_iff.2 rfl) ((groups_eq_ok_iff (Nat.le_refl _)).1 hmore)
  · intro h
    cases h with
    | headed hhead hne hnames hgroups =>
      rw [segment_of_head hhead hgroups.head hne, (groups_eq_ok_iff (Nat.le_refl _)).2 hgroups,
        names_iff.1 hnames]
      rfl
    | bare hhead hblank hne hgroups =>
      rw [segment_of_blank hhead hgroups.head hblank, if_neg (by simpa using hne),
        (groups_eq_ok_iff (Nat.le_refl _)).2 hgroups]

end Segment

theorem segments_eq_ok_iff {isFirst : Bool} {pieces : List (List Char)} {steps : List Step} :
    segments isFirst pieces = .ok steps ↔ Segments isFirst pieces steps := by
  induction pieces generalizing isFirst steps with
  | nil =>
    constructor
    · rintro ⟨⟩
      exact .nil
    · rintro ⟨⟩
      rfl
  | cons s rest ih =>
    rw [segments]
    constructor
    · intro h
      obtain ⟨first, hfirst, h⟩ := bind_eq_ok_iff.1 h
      obtain ⟨more, hmore, h⟩ := bind_eq_ok_iff.1 h
      cases h
      exact .cons (segment_eq_ok_iff.1 hfirst) (ih.1 hmore)
    · intro h
      cases h with
      | cons hfirst hmore =>
        rw [segment_eq_ok_iff.2 hfirst, ih.2 hmore]
        rfl

theorem Segments.ne_nil {pieces : List (List Char)} {steps : List Step}
    (h : Segments true pieces steps) (hne : pieces ≠ []) : steps ≠ [] := by
  -- The first segment has a head, so no path is without steps.
  cases h with
  | nil => exact absurd rfl hne
  | cons hfirst _ =>
    cases hfirst with
    | headed => exact List.cons_ne_nil _ _

theorem intercalate_splitPoints (s : List Char) : ['.'].intercalate (splitPoints s) = s := by
  induction s with
  | nil => rfl
  | cons c rest ih =>
    rw [splitPoints]
    cases hr : splitPoints rest with
    | nil => exact absurd hr (splitPoints_ne_nil rest)
    | cons piece pieces =>
      rw [hr] at ih
      split
      · next hc => rw [List.intercalate_cons_cons, ih, hc]; rfl
      · rw [← ih]
        cases pieces <;> rfl

theorem spells_iff {text : String} {steps : List Step} : Spells text steps ↔
    Text.trimChars text.toList ≠ [] ∧
      segments true (splitPoints (Text.trimChars text.toList)) = .ok steps := by
  refine and_congr_right fun _ => ?_
  rw [segments_eq_ok_iff]
  constructor
  · rintro ⟨pieces, hne, hpoint, htext, hsteps⟩
    rwa [← htext, splitPoints_intercalate hne hpoint]
  · intro hsteps
    exact ⟨_, splitPoints_ne_nil _, fun s hs => not_mem_of_mem_splitPoints hs,
      intercalate_splitPoints _, hsteps⟩

theorem parse_eq_ok_iff {text : String} {p : Path} : parse text = .ok p ↔ Spells text p.steps := by
  rw [spells_iff, parse]
  split
  · next hblank => simp [hblank]
  · next hne =>
    rw [and_iff_right (by simpa using hne)]
    cases hs : segments true (splitPoints (Text.trimChars text.toList)) with
    | error e => simp
    | ok steps =>
      have hsteps : steps ≠ [] :=
        (segments_eq_ok_iff.1 hs).ne_nil (splitPoints_ne_nil _)
      simp only [ofSteps?, hsteps, dite_false, Except.ok.injEq]
      cases p
      simp

end Path

namespace Path

structure Head (s : List Char) : Prop where
  noPoint : '.' ∉ s
  noBracket : '[' ∉ s
  ne_nil : s ≠ []
  trimmed : Text.trimChars s = s

theorem head_index (i : Nat) : Head (Step.index i).asKey.toList := by
  have hkey : (Step.index i).asKey.toList = Digits.write i := String.toList_ofList
  have hdigit := Digits.all_isDigit_write i
  have hwhite : ∀ c ∈ Digits.write i, Text.isWhite c = false :=
    fun c hc => Text.isWhite_of_isDigit (hdigit c hc)
  rw [hkey]
  constructor
  case noPoint =>
    intro hm
    cases hdigit _ hm
  case noBracket =>
    intro hm
    cases hdigit _ hm
  case ne_nil => exact Digits.write_ne_nil i
  case trimmed =>
    exact Text.trimChars_eq_self_iff.2 ⟨fun c hc => hwhite c (List.mem_of_mem_head? hc),
      fun c hc => hwhite c (List.mem_of_mem_getLast? hc)⟩

theorem Names.head_asKey {s : List Char} {step : Step} (h : Names s step) (hs : Head s) :
    Head step.asKey.toList := by
  cases h with
  | number => exact head_index _
  | key =>
    have hkey : (Step.key (String.ofList s)).asKey.toList = s := String.toList_ofList
    rwa [hkey]

theorem Groups.head_asKey {s : List Char} {steps : List Step} (h : Groups s steps) :
    ∀ step ∈ steps, Head step.asKey.toList := by
  induction h with
  | nil => nofun
  | cons _ _ ih => exact List.forall_mem_cons.2 ⟨head_index _, ih⟩

theorem Segment.head_asKey {isFirst : Bool} {s : List Char} {steps : List Step}
    (h : Segment isFirst s steps) (hs : '.' ∉ s) : ∀ step ∈ steps, Head step.asKey.toList := by
  cases h with
  | headed hhead hne hnames hgroups =>
    refine List.forall_mem_cons.2 ⟨hnames.head_asKey ?_, hgroups.head_asKey⟩
    constructor
    case noPoint => exact fun hm => hs (List.mem_append_left _ (Text.mem_of_mem_trimChars hm))
    case noBracket => exact fun hm => hhead (Text.mem_of_mem_trimChars hm)
    case ne_nil => exact hne
    case trimmed => exact Text.trimChars_trimChars _
  | bare _ _ _ hgroups => exact hgroups.head_asKey

theorem Segments.head_asKey {isFirst : Bool} {pieces : List (List Char)} {steps : List Step}
    (h : Segments isFirst pieces steps) (hpieces : ∀ s ∈ pieces, '.' ∉ s) :
    ∀ step ∈ steps, Head step.asKey.toList := by
  induction h with
  | nil => nofun
  | cons hfirst _ ih =>
    rw [List.forall_mem_cons] at hpieces
    exact List.forall_mem_append.2 ⟨hfirst.head_asKey hpieces.1, ih hpieces.2⟩

theorem segments_heads {pieces : List (List Char)} (h : ∀ s ∈ pieces, Head s) (isFirst : Bool) :
    Segments isFirst pieces (pieces.map Step.ofHead) := by
  induction pieces generalizing isFirst with
  | nil => exact .nil
  | cons s rest ih =>
    rw [List.forall_mem_cons] at h
    obtain ⟨-, hbracket, hne, htrimmed⟩ := h.1
    have hnames : Names (Text.trimChars s) (Step.ofHead s) := by rw [htrimmed, names_iff]
    have hsegment : Segment isFirst (s ++ []) [Step.ofHead s] :=
      .headed hbracket (by rwa [htrimmed]) hnames .nil
    rw [List.append_nil] at hsegment
    exact .cons hsegment (ih h.2 false)

theorem trimChars_intercalate {pieces : List (List Char)} (hne : pieces ≠ [])
    (h : ∀ s ∈ pieces, Head s) : ['.'].intercalate pieces ≠ [] ∧
      Text.trimChars (['.'].intercalate pieces) = ['.'].intercalate pieces := by
  induction pieces with
  | nil => exact absurd rfl hne
  | cons s rest ih =>
    rw [List.forall_mem_cons] at h
    cases rest with
    | nil => simpa using ⟨h.1.ne_nil, h.1.trimmed⟩
    | cons s' rest =>
      obtain ⟨hrest, hlast⟩ := ih (List.cons_ne_nil _ _) h.2
      rw [Text.trimChars_eq_self_iff] at hlast
      have hhead := (Text.trimChars_eq_self_iff.1 h.1.trimmed).1
      rw [List.intercalate_cons_cons, List.append_assoc, Text.trimChars_eq_self_iff]
      refine ⟨by simp [h.1.ne_nil], ?_, ?_⟩
      · rwa [List.head?_append_of_ne_nil _ h.1.ne_nil]
      · rw [List.getLast?_append_of_ne_nil _ (by simp), List.getLast?_append_of_ne_nil _ hrest]
        exact hlast.2

theorem spells_heads {text : String} {pieces : List (List Char)} (hne : pieces ≠ [])
    (h : ∀ s ∈ pieces, Head s) (htext : text.toList = ['.'].intercalate pieces) :
    Spells text (pieces.map Step.ofHead) := by
  obtain ⟨hnil, htrimmed⟩ := trimChars_intercalate hne h
  rw [Spells, htext, htrimmed]
  exact ⟨hnil, pieces, hne, fun s hs => (h s hs).noPoint, rfl, segments_heads h true⟩

theorem parse_display {text : String} {p : Path} (h : parse text = .ok p) :
    parse p.display = .ok p := by
  obtain ⟨-, pieces, -, hpoint, -, hsteps⟩ := parse_eq_ok_iff.1 h
  have hne : p.steps.map (fun step => step.asKey.toList) ≠ [] := by simpa using p.steps_ne_nil
  have hspells := spells_heads hne (List.forall_mem_map.2 (hsteps.head_asKey hpoint))
    (toList_display p)
  rwa [map_ofHead_asKey (proper_parse h), ← parse_eq_ok_iff] at hspells

end Path

end ReactivePage
