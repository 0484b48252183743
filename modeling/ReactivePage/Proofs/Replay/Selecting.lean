import ReactivePage.Proofs.Replay.Rendering

namespace ReactivePage

namespace ScriptBlock

theorem ascii_of_isAlphanum {c : Char} (h : c.isAlphanum = true) : c.toNat < 0x80 := by
  have hval : c.val.toNat = c.toNat := rfl
  delta Char.isAlphanum Char.isAlpha Char.isUpper Char.isLower Char.isDigit at h
  simp only [Bool.or_eq_true, Bool.and_eq_true, decide_eq_true_eq, UInt32.le_iff_toNat_le,
    hval] at h
  rcases h with (⟨-, h⟩ | ⟨-, h⟩) | ⟨-, h⟩ <;> exact Nat.lt_of_le_of_lt h (by decide)

def isNameChar (c : Char) : Bool := c.isAlphanum || c = '-'

theorem isNameChar_ascii {p : Char → Prop}
    (h : ∀ n < 0x80, isNameChar (Char.ofNat n) = true → p (Char.ofNat n)) {c : Char}
    (hc : isNameChar c = true) : p c := by
  have hascii : c.toNat < 0x80 := by
    rw [isNameChar, Bool.or_eq_true, decide_eq_true_eq] at hc
    rcases hc with hc | rfl
    · exact ascii_of_isAlphanum hc
    · decide
  exact Text.of_ascii (p := fun c => isNameChar c = true → p c) h hascii hc

def IsPlain (s : List Char) : Prop := ∀ c ∈ s, c ∉ ['"', '\'', '<', '>', '=']

instance (s : List Char) : Decidable (IsPlain s) := List.decidableBAll _ s

section Attributes

variable {scriptType name value : List Char}

theorem IsPlain.isQuote (h : IsPlain value) : ∀ c ∈ value, isQuote c = false := by
  intro c hc
  have := h c hc
  simp only [List.mem_cons, not_or] at this
  simp [ScriptBlock.isQuote, this.1, this.2.1]

theorem IsPlain.of_map_eq (h : IsPlain scriptType)
    (hvalue : value.map Text.foldCase = scriptType.map Text.foldCase) : IsPlain value := by
  have hmark : ∀ m ∈ ['"', '\'', '<', '>', '='], m.toNat < 0x80 ∧ m.isAlpha = false :=
    List.forall_iff_forall_mem.1 (by decide)
  intro c hc hm
  obtain ⟨hascii, halpha⟩ := hmark c hm
  exact h c ((Text.mem_iff_of_map_foldCase_eq hascii halpha hvalue).1 hc) hm

theorem isQuote_of_isWhite {c : Char} (h : Text.isWhite c = true) : isQuote c = false := by
  refine Bool.eq_false_iff.2 fun hq => ?_
  rw [isWhite_of_isQuote hq] at h
  cases h

def isCut (c : Char) : Bool := c = '=' || isQuote c

theorem isCut_of_word {word space : List Char}
    (hword : word.map Text.foldCase = ['t', 'y', 'p', 'e'])
    (hspace : ∀ c ∈ space, Text.isWhite c = true) : ∀ c ∈ word ++ space, isCut c = false := by
  have hmark : ∀ m ∈ ['=', '"', '\''], m.toNat < 0x80 ∧ m.isAlpha = false ∧
      m ∉ ['t', 'y', 'p', 'e'] ∧ Text.isWhite m = false :=
    List.forall_iff_forall_mem.1 (by decide)
  intro c hc
  refine Bool.eq_false_iff.2 fun hcut => ?_
  obtain ⟨hascii, halpha, hletter, hwhite⟩ := hmark c (by
    simpa [isCut, isQuote, or_assoc] using hcut)
  rcases List.mem_append.1 hc with hc | hc
  · exact hletter (hword ▸ (Text.mem_map_foldCase hascii halpha).2 hc)
  · rw [hspace c hc] at hwhite
    cases hwhite

theorem IsPlain.isCut (h : IsPlain value) : ∀ c ∈ value, isCut c = false := by
  intro c hc
  have := h c hc
  simp only [List.mem_cons, not_or] at this
  simp [ScriptBlock.isCut, ScriptBlock.isQuote, this]

theorem TypeAttribute.of_quoted {a rest behind : List Char} (ha : TypeAttribute scriptType a)
    (hplain : IsPlain scriptType) (hname : ∀ c ∈ name, isNameChar c = true)
    (hvalue : IsPlain value) (h : name ++ '=' :: '"' :: (value ++ '"' :: rest) = a ++ behind) :
    name.map Text.foldCase = ['t', 'y', 'p', 'e'] ∧
      value.map Text.foldCase = scriptType.map Text.foldCase := by
  cases ha with
  | @intro word space gap found opening closing hword hspace hgap hopening hfound hclosing =>
    have hcut : name ++ '=' :: ('"' :: (value ++ '"' :: rest))
        = word ++ space ++ '=' :: (gap ++ opening :: (found ++ closing :: behind)) := by
      simpa using h
    have hnameCut : ∀ c ∈ name, isCut c = false := fun c hc =>
      isNameChar_ascii (p := fun c => isCut c = false) (by decide +kernel) (hname c hc)
    obtain ⟨hsame, -, hrest⟩ :=
      Text.cut_at_first hnameCut (isCut_of_word hword hspace) rfl rfl hcut
    have hnone : space = [] := by
      refine List.eq_nil_iff_forall_not_mem.2 fun c hc => ?_
      have hchar := hname c (hsame ▸ List.mem_append_right _ hc)
      have hwhite := isNameChar_ascii (p := fun c => Text.isWhite c = false) (by decide +kernel)
        hchar
      rw [hspace c hc] at hwhite
      cases hwhite
    obtain ⟨-, -, hrest⟩ := Text.cut_at_first (p := isQuote) (u := []) (by simp)
      (fun c hc => isQuote_of_isWhite (hgap c hc)) rfl hopening hrest
    obtain ⟨rfl, -, -⟩ := Text.cut_at_first hvalue.isQuote (hplain.of_map_eq hfound).isQuote rfl
      hclosing hrest
    rw [hnone, List.append_nil] at hsame
    exact ⟨hsame ▸ hword, hfound⟩

theorem TypeAttribute.not_in_value {a rest behind : List Char} (ha : TypeAttribute scriptType a)
    (hvalue : IsPlain value) : value ++ '"' :: rest ≠ a ++ behind := by
  intro h
  cases ha with
  | @intro word space gap found opening closing hword hspace hgap hopening hfound hclosing =>
    have hcut : value ++ '"' :: rest
        = word ++ space ++ '=' :: (gap ++ opening :: (found ++ closing :: behind)) := by
      simpa using h
    obtain ⟨-, heq, -⟩ := Text.cut_at_first hvalue.isCut (isCut_of_word hword hspace) rfl rfl hcut
    cases heq

theorem TagRest.behind_value {before : Option Char} {rest : List Char}
    (h : TagRest scriptType before (value ++ '"' :: rest)) (hvalue : IsPlain value) :
    TagRest scriptType (some '"') rest := by
  induction value generalizing before with
  | nil => exact h.of_cons fun h => by cases h
  | cons c value ih =>
    exact ih (h.tail fun a behind ha _ => ha.not_in_value hvalue)
      fun d hd => hvalue d (List.mem_cons_of_mem _ hd)

theorem TagRest.behind_name {before : Option Char} {rest : List Char}
    (h : TagRest scriptType before (name ++ '=' :: '"' :: (value ++ '"' :: rest)))
    (hplain : IsPlain scriptType) (hname : ∀ c ∈ name, isNameChar c = true)
    (hvalue : IsPlain value)
    (hnone : ∀ u w, name = u ++ w → w.map Text.foldCase = ['t', 'y', 'p', 'e'] →
      Text.isBoundary (u.getLast?.or before) w.head? = true →
        value.map Text.foldCase ≠ scriptType.map Text.foldCase) :
    TagRest scriptType (some '"') rest := by
  induction name generalizing before with
  | nil =>
    exact ((h.of_cons fun h => by cases h).of_cons fun h => by cases h).behind_value hvalue
  | cons c name ih =>
    refine ih (h.tail fun a behind ha hboundary hs => ?_)
      (fun d hd => hname d (List.mem_cons_of_mem _ hd)) fun u w hsplit hw hboundary => ?_
    · obtain ⟨hfold, hsame⟩ := ha.of_quoted hplain hname hvalue hs
      exact hnone [] (c :: name) rfl hfold hboundary hsame
    · rw [← getLast?_cons_or c u before] at hboundary
      exact hnone (c :: u) w (by rw [hsplit]; rfl) hw hboundary

end Attributes

/-- The name is `type` or ends in `-type`, and the value is the type, both up to case. -/
def Selects (scriptType : String) (a : String × String) : Prop :=
  (a.1.toList.map Char.toLower = ['t', 'y', 'p', 'e'] ∨
      ['-', 't', 'y', 'p', 'e'] <:+ a.1.toList.map Char.toLower) ∧
    a.2.toList.map Text.foldCase = scriptType.toList.map Text.foldCase

instance (scriptType : String) (a : String × String) : Decidable (Selects scriptType a) :=
  inferInstanceAs (Decidable (_ ∧ _))

section Names

variable {name : List Char}

theorem map_foldCase_of_name (hname : ∀ c ∈ name, isNameChar c = true) :
    name.map Text.foldCase = name.map Char.toLower :=
  List.map_congr_left fun c hc =>
    isNameChar_ascii (p := fun c => Text.foldCase c = c.toLower) (by decide +kernel) (hname c hc)

theorem isWord?_head?_of_map_eq {w : List Char} (h : w.map Text.foldCase = ['t', 'y', 'p', 'e']) :
    Text.isWord? w.head? = true := by
  obtain ⟨c, t, rfl, hc, -⟩ := List.map_eq_cons_iff.1 h
  exact Text.isWordChar_of_foldCase hc (by decide) (by decide) (by decide) (by decide)

theorem name_selects_iff (hname : ∀ c ∈ name, isNameChar c = true) :
    (name.map Char.toLower = ['t', 'y', 'p', 'e'] ∨
        ['-', 't', 'y', 'p', 'e'] <:+ name.map Char.toLower) ↔
      ∃ u w, name = u ++ w ∧ w.map Text.foldCase = ['t', 'y', 'p', 'e'] ∧
        Text.isBoundary (u.getLast?.or (some ' ')) w.head? = true := by
  constructor
  · rintro (h | ⟨front, h⟩)
    · rw [← map_foldCase_of_name hname] at h
      refine ⟨[], name, rfl, h, ?_⟩
      rw [Text.isBoundary, isWord?_head?_of_map_eq h]
      rfl
    · obtain ⟨u, t, rfl, -, ht⟩ := List.map_eq_append_iff.1 h.symm
      obtain ⟨c, w, rfl, hc, hw⟩ := List.map_eq_cons_iff.1 ht
      rw [← map_foldCase_of_name fun c hc => hname c (by simp [hc])] at hw
      obtain rfl : c = '-' := isNameChar_ascii (p := fun c => c.toLower = '-' → c = '-')
        (by decide +kernel) (hname c (by simp)) hc
      refine ⟨u ++ ['-'], w, by simp, hw, ?_⟩
      rw [Text.isBoundary, isWord?_head?_of_map_eq hw, List.getLast?_concat]
      rfl
  · rintro ⟨u, w, rfl, hw, hboundary⟩
    rw [Text.isBoundary, isWord?_head?_of_map_eq hw] at hboundary
    rw [map_foldCase_of_name fun c hc => hname c (by simp [hc])] at hw
    rcases List.eq_nil_or_concat u with rfl | ⟨v, c, rfl⟩
    · exact .inl hw
    · right
      have hnot : Text.isWordChar c = false := by simpa [Text.isWord?] using hboundary
      obtain rfl : c = '-' := isNameChar_ascii (p := fun c => Text.isWordChar c = false → c = '-')
        (by decide +kernel) (hname c (by simp)) hnot
      exact ⟨v.map Char.toLower, by simp [hw]⟩

end Names

structure IsRegular (a : String × String) : Prop where
  name : ∀ c ∈ a.1.toList, isNameChar c = true
  value : IsPlain a.2.toList

instance (a : String × String) : Decidable (IsRegular a) :=
  decidable_of_iff (a.1.toList.all isNameChar = true ∧ IsPlain a.2.toList)
    ⟨fun h => ⟨List.all_eq_true.1 h.1, h.2⟩, fun h => ⟨List.all_eq_true.2 h.name, h.value⟩⟩

def attributeText (a : String × String) : String := " " ++ a.1 ++ "=\"" ++ a.2 ++ "\""

def attributesText (attributes : List (String × String)) : String :=
  String.join (attributes.map attributeText)

def element (attributes : List (String × String)) (body : String) : String :=
  "<script" ++ attributesText attributes ++ ">" ++ body ++ "</script>"

section Elements

variable {scriptType : String} {attributes : List (String × String)}

theorem toList_attributeText (a : String × String) :
    (attributeText a).toList = ' ' :: (a.1.toList ++ '=' :: '"' :: (a.2.toList ++ ['"'])) := by
  delta attributeText
  simp

theorem toList_element (attributes : List (String × String)) (body : String) :
    (element attributes body).toList
      = openingMark ++ (attributesText attributes).toList ++ '>' ::
          (body.toList ++ '<' :: ['/', 's', 'c', 'r', 'i', 'p', 't', '>']) := by
  delta element
  simp [openingMark]

theorem TagRest.behind_attribute {a : String × String} {before : Option Char} {rest : List Char}
    (h : TagRest scriptType.toList before ((attributeText a).toList ++ rest))
    (hplain : IsPlain scriptType.toList) (ha : IsRegular a) (hnot : ¬Selects scriptType a) :
    TagRest scriptType.toList (some '"') rest := by
  rw [toList_attributeText] at h
  simp only [List.cons_append, List.append_assoc, List.nil_append] at h
  have hname := h.of_cons fun h => by cases h
  refine hname.behind_name hplain ha.name ha.value fun u w hsplit hw hboundary hvalue => ?_
  exact hnot ⟨(name_selects_iff ha.name).2 ⟨u, w, hsplit, hw, hboundary⟩, hvalue⟩

theorem tagRest_of_selects {a : String × String} {before : Option Char} {tail : List Char}
    (ha : IsRegular a) (hselects : Selects scriptType a) (htail : '>' ∉ tail) :
    TagRest scriptType.toList before ((attributeText a).toList ++ tail ++ ['>']) := by
  obtain ⟨u, w, hsplit, hw, hboundary⟩ := (name_selects_iff ha.name).1 hselects.1
  obtain ⟨c, t, rfl, -, -⟩ := List.map_eq_cons_iff.1 hw
  have hu : '>' ∉ ' ' :: u := by
    intro hm
    rcases List.mem_cons.1 hm with h | h
    · cases h
    · cases ha.name '>' (by simp [hsplit, h])
  rw [← getLast?_cons_or ' ' u before] at hboundary
  have hstart : Text.isBoundary ((' ' :: u).getLast?.or before)
      (c :: t ++ '=' :: '"' :: a.2.toList ++ ['"']).head? = true := hboundary
  have htag := TagRest.append hu (.here hstart (typeAttribute_quoted hw hselects.2) htail)
  rw [toList_attributeText, hsplit]
  simpa using htag

theorem not_mem_attributeText {a : String × String} (ha : IsRegular a) {m : Char}
    (hm : m ∈ ['<', '>']) : m ∉ (attributeText a).toList := by
  have hmark : ∀ m ∈ ['<', '>'], m ∉ [' ', '=', '"'] ∧ isNameChar m = false ∧
      m ∈ ['"', '\'', '<', '>', '='] :=
    List.forall_iff_forall_mem.1 (by decide)
  obtain ⟨hfixed, hname, hplain⟩ := hmark m hm
  simp only [List.mem_cons, not_or] at hfixed
  intro h
  simp only [toList_attributeText, List.mem_cons, List.mem_append, hfixed, false_or,
    or_false] at h
  rcases h with h | h
  · rw [ha.name m h] at hname
    cases hname
  · exact ha.value m h hplain

theorem toList_attributesText (attributes : List (String × String)) :
    (attributesText attributes).toList = attributes.flatMap fun a => (attributeText a).toList := by
  rw [attributesText, String.toList_join, List.flatMap_map]

theorem not_mem_attributesText (h : ∀ a ∈ attributes, IsRegular a) {m : Char}
    (hm : m ∈ ['<', '>']) : m ∉ (attributesText attributes).toList := by
  rw [toList_attributesText, List.mem_flatMap]
  rintro ⟨a, ha, hmem⟩
  exact not_mem_attributeText (h a ha) hm hmem

theorem tagRest_attributesText_iff (hplain : IsPlain scriptType.toList)
    (h : ∀ a ∈ attributes, IsRegular a) (before : Option Char) :
    TagRest scriptType.toList before ((attributesText attributes).toList ++ ['>']) ↔
      ∃ a ∈ attributes, Selects scriptType a := by
  induction attributes generalizing before with
  | nil =>
    constructor
    · intro h
      obtain ⟨u, hu, -⟩ := (h.of_cons fun h => by cases h).exists_end
      simp at hu
    · rintro ⟨a, ⟨⟩, -⟩
  | cons a attributes ih =>
    have ha := h a List.mem_cons_self
    have hattributes : ∀ b ∈ attributes, IsRegular b := fun b hb => h b (List.mem_cons_of_mem _ hb)
    have hcons : (attributesText (a :: attributes)).toList
        = (attributeText a).toList ++ (attributesText attributes).toList := by
      rw [toList_attributesText, List.flatMap_cons, toList_attributesText]
    rw [hcons]
    constructor
    · intro htag
      by_cases hselects : Selects scriptType a
      · exact ⟨a, List.mem_cons_self, hselects⟩
      · rw [List.append_assoc] at htag
        obtain ⟨b, hb, hselects⟩ :=
          (ih hattributes _).1 (htag.behind_attribute hplain ha hselects)
        exact ⟨b, List.mem_cons_of_mem _ hb, hselects⟩
    · rintro ⟨b, hb, hselects⟩
      rcases List.mem_cons.1 hb with rfl | hb
      · exact tagRest_of_selects ha hselects (not_mem_attributesText hattributes (by decide))
      · rw [List.append_assoc]
        exact .append (not_mem_attributeText ha (by decide))
          ((ih hattributes _).2 ⟨b, hb, hselects⟩)

theorem openingTag_attributesText_iff (hplain : IsPlain scriptType.toList)
    (h : ∀ a ∈ attributes, IsRegular a) :
    OpeningTag scriptType.toList (openingMark ++ (attributesText attributes).toList ++ ['>']) ↔
      ∃ a ∈ attributes, Selects scriptType a := by
  rw [← tagRest_attributesText_iff hplain h (some 't'), List.append_assoc]
  constructor
  · intro htag
    have hrest : TagRest scriptType.toList none
        (openingMark ++ ((attributesText attributes).toList ++ ['>'])) := htag.tagRest
    exact hrest.behind_mark rfl
  · intro hrest
    refine .intro rfl ?_ hrest
    cases attributes with
    | nil => rfl
    | cons a attributes =>
      rw [toList_attributesText, List.flatMap_cons, toList_attributeText]
      rfl

def front (attributes : List (String × String)) : List Char :=
  openingMark ++ (attributesText attributes).toList

theorem not_mem_front (h : ∀ a ∈ attributes, IsRegular a) : '>' ∉ front attributes := by
  rw [front, List.mem_append, not_or]
  exact ⟨by decide, not_mem_attributesText h (by decide)⟩

theorem behindTag?_of_selects (hplain : IsPlain scriptType.toList)
    (h : ∀ a ∈ attributes, IsRegular a) (hselects : ∃ a ∈ attributes, Selects scriptType a)
    (more : List Char) :
    behindTag? (scriptType.toList.map Text.foldCase) false none (front attributes ++ '>' :: more)
      = some more := by
  have htag := (openingTag_attributesText_iff hplain h).2 hselects
  refine behindTag?_eq_some_iff.2
    ⟨⟨[], _, htag, by simp [front]⟩, fun u tag later htag hpage => ?_⟩
  obtain ⟨v, rfl, -⟩ := htag.exists_end
  refine Text.length_le_of_count_le (m := '>') (u := front attributes) (v := u ++ v)
    (by simpa using hpage) ?_
  rw [List.count_eq_zero.2 (not_mem_front h)]
  exact Nat.zero_le _

theorem exists_behind_of_not_selects (hplain : IsPlain scriptType.toList)
    (h : ∀ a ∈ attributes, IsRegular a) (hnot : ¬∃ a ∈ attributes, Selects scriptType a)
    {u tag rest more : List Char} (htag : OpeningTag scriptType.toList tag)
    (hpage : front attributes ++ '>' :: more = u ++ tag ++ rest) :
    ∃ w, more = w ++ tag ++ rest := by
  cases u with
  | nil =>
    -- A tag that starts with the page ends at the first `>`, so it is the tag of the element.
    obtain ⟨v, rfl, hv⟩ := htag.exists_end
    have hnone : scriptType.toList.count '>' = 0 :=
      List.count_eq_zero.2 fun hm => hplain '>' hm (by decide)
    obtain rfl : front attributes = v := by
      refine (Text.cut_at_first (p := (· = '>')) (c := '>') (d := '>') (s := more) (t := rest)
        (fun c hc => ?_) (fun c hc => ?_) rfl rfl (by simpa using hpage)).1
      · exact decide_eq_false fun heq => not_mem_front h (heq ▸ hc)
      · exact decide_eq_false fun heq => List.count_eq_zero.1 (hv.trans hnone) (heq ▸ hc)
    exact absurd ((openingTag_attributesText_iff hplain h).1 htag) hnot
  | cons c u =>
    obtain ⟨t, rfl⟩ := htag.exists_cons
    have hmark : '<' ∉ ['s', 'c', 'r', 'i', 'p', 't'] ++ (attributesText attributes).toList
        ++ ['>'] := by
      have := not_mem_attributesText h (m := '<') (by decide)
      simp [this]
    have hsplit : ['s', 'c', 'r', 'i', 'p', 't'] ++ (attributesText attributes).toList ++ ['>']
        ++ more = u ++ ('<' :: t ++ rest) := by
      have := congrArg List.tail hpage
      simpa [front, openingMark] using this
    rcases List.append_eq_append_iff.1 hsplit with ⟨d, -, hd⟩ | ⟨d, hd, hrest⟩
    · exact ⟨d, by rw [hd, List.append_assoc]⟩
    · cases d with
      | nil => exact ⟨[], hrest.symm⟩
      | cons e d =>
        obtain rfl : '<' = e := (List.cons.inj hrest).1
        exact absurd (hd ▸ by simp) hmark

theorem behindTag?_of_not_selects (hplain : IsPlain scriptType.toList)
    (h : ∀ a ∈ attributes, IsRegular a) (hnot : ¬∃ a ∈ attributes, Selects scriptType a)
    (more : List Char) :
    behindTag? (scriptType.toList.map Text.foldCase) false none (front attributes ++ '>' :: more)
      = behindTag? (scriptType.toList.map Text.foldCase) false none more := by
  refine behindTag?_congr none none fun tag rest htag => ⟨?_, ?_⟩
  · rintro ⟨u, hpage⟩
    exact exists_behind_of_not_selects hplain h hnot htag hpage
  · rintro ⟨w, rfl⟩
    exact ⟨front attributes ++ '>' :: w, by simp⟩

theorem body?_of_not_infix {body : List Char} (h : ¬['<', '/'] <:+: body) :
    body? (body ++ '<' :: ['/', 's', 'c', 'r', 'i', 'p', 't', '>']) = some body := by
  have hsame : escapeClosing body = body := by
    induction body using escapeClosing.induct with
    | case1 => rfl
    | case2 c => rfl
    | case3 c d rest hmark ih =>
      obtain ⟨rfl, rfl⟩ := hmark
      exact absurd ⟨[], rest, rfl⟩ h
    | case4 c d rest hmark ih =>
      rw [escapeClosing, if_neg hmark, ih fun hi => h (hi.trans (List.suffix_cons _ _).isInfix)]
  have := body?_escapeClosing body ['/', 's', 'c', 'r', 'i', 'p', 't', '>'] rfl
  rwa [hsame] at this

theorem findChars?_closed_eq_none_iff {body : List Char} :
    findChars? scriptType.toList (body ++ '<' :: ['/', 's', 'c', 'r', 'i', 'p', 't', '>']) = none ↔
      ∀ tag, OpeningTag scriptType.toList tag → ¬tag <:+: body := by
  rw [findChars?_eq_none_iff]
  constructor
  · rintro h tag htag ⟨before, rest, rfl⟩
    have hclosing : ClosingTag ('<' :: '/' :: ['s', 'c', 'r', 'i', 'p', 't'] ++ [] ++ ['>']) :=
      .intro rfl (by simp)
    exact h before tag rest ⟨htag, _, [], hclosing, by simp⟩
  · rintro h before tag found ⟨htag, closing, behind, hclosing, hpage⟩
    have hle := hclosing.le_length
    rcases List.append_eq_append_iff.1 hpage with ⟨d, hd, hrest⟩ | ⟨d, hd, -⟩
    · -- The closing tag of the element is the one at the end, so the opening tag is in the text.
      have hlength := congrArg List.length hrest
      simp only [List.length_append, List.length_cons, List.length_nil] at hlength
      obtain rfl : d = [] := List.eq_nil_of_length_eq_zero (by omega)
      exact h tag htag ⟨before, [], by simpa using hd⟩
    · exact h tag htag ⟨before, d, hd.symm⟩

/-- An element is found if one of its attributes selects it. Otherwise the search goes on behind
its opening tag, and finds something if and only if the body holds an opening tag of its own. -/
theorem find?_element {body : String} (hmatch : isMatchable scriptType = true)
    (hplain : IsPlain scriptType.toList) (hattributes : ∀ a ∈ attributes, IsRegular a)
    (hbody : ¬['<', '/'] <:+: body.toList) :
    ((∃ a ∈ attributes, Selects scriptType a) →
      find? scriptType (element attributes body) = some (some body)) ∧
    ((¬∃ a ∈ attributes, Selects scriptType a) →
      find? scriptType (element attributes body) = find? scriptType (body ++ "</script>") ∧
      (find? scriptType (element attributes body) = some none ↔
        ∀ tag, OpeningTag scriptType.toList tag → ¬tag <:+: body.toList)) := by
  have hfind (page : String) :
      find? scriptType page = some ((findChars? scriptType.toList page.toList).map String.ofList) :=
    if_pos hmatch
  have hend : (body ++ "</script>").toList
      = body.toList ++ '<' :: ['/', 's', 'c', 'r', 'i', 'p', 't', '>'] := by
    simp
  constructor
  · intro hselects
    have hbehind := behindTag?_of_selects hplain hattributes hselects
      (body.toList ++ '<' :: ['/', 's', 'c', 'r', 'i', 'p', 't', '>'])
    rw [hfind, toList_element, findChars?]
    simp only [Option.bind_eq_bind]
    rw [← front, hbehind, Option.bind_some, body?_of_not_infix hbody, Option.map_some,
      String.ofList_toList]
  · intro hnot
    have hsame : find? scriptType (element attributes body)
        = find? scriptType (body ++ "</script>") := by
      have hbehind := behindTag?_of_not_selects hplain hattributes hnot
        (body.toList ++ '<' :: ['/', 's', 'c', 'r', 'i', 'p', 't', '>'])
      rw [hfind, hfind, toList_element, findChars?, findChars?, ← front, hbehind, hend]
    refine ⟨hsame, ?_⟩
    rw [hsame, hfind, hend, Option.some.injEq, Option.map_eq_none_iff,
      findChars?_closed_eq_none_iff]

theorem find?_element_suffixed :
    find? "a" (element [("src", "app.js"), ("Data-Type", "A")] "x") = some (some "x") ∧
      find? "a" (element [("mytype", "a"), ("type", "b")] "<script type='a'>y")
        = some (some "y") ∧
      find? "a" (element [("mytype", "a"), ("type", "b")] "y") = some none := by
  have hmatch : isMatchable "a" = true := by decide +kernel
  have hplain : IsPlain "a".toList := by decide
  refine ⟨?_, ?_, ?_⟩
  · exact (find?_element hmatch hplain (by decide) (by decide)).1 (by decide +kernel)
  · refine ((find?_element hmatch hplain (by decide) (by decide)).2 (by decide +kernel)).1.trans ?_
    decide +kernel
  · refine ((find?_element hmatch hplain (by decide) (by decide)).2 (by decide +kernel)).2.2 ?_
    exact (behindTag?_eq_none_iff none).1 (by decide +kernel)

/-- The name `data-type` counts as `type`: a hyphen ends a word. -/
theorem not_find?_element_name : ¬∀ scriptType attributes body, isMatchable scriptType = true →
    IsPlain scriptType.toList → (∀ a ∈ attributes, IsRegular a) → ¬['<', '/'] <:+: body.toList →
      (¬∃ a ∈ attributes, a.1.toList.map Char.toLower = ['t', 'y', 'p', 'e'] ∧
        a.2.toList.map Text.foldCase = scriptType.toList.map Text.foldCase) →
      find? scriptType (element attributes body) = some none := by
  intro h
  have hnone := h "a" [("data-type", "a")] "x" (by decide +kernel) (by decide) (by decide)
    (by decide) (by decide +kernel)
  have hfind : find? "a" (element [("data-type", "a")] "x") = some (some "x") := by decide +kernel
  rw [hfind] at hnone
  cases hnone

end Elements

end ScriptBlock

end ReactivePage
