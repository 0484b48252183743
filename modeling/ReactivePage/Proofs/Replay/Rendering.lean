import ReactivePage.Proofs.Replay.Encoding
import ReactivePage.Proofs.Replay.Finding

namespace ReactivePage

namespace ScriptBlock

section Tags

variable {scriptType : List Char}

theorem typeAttribute_quoted {name value : List Char}
    (hname : name.map Text.foldCase = ['t', 'y', 'p', 'e'])
    (hvalue : value.map Text.foldCase = scriptType.map Text.foldCase) :
    TypeAttribute scriptType (name ++ '=' :: '"' :: value ++ ['"']) := by
  have h : TypeAttribute scriptType (name ++ [] ++ '=' :: [] ++ '"' :: value ++ ['"']) :=
    .intro hname (by simp) (by simp) rfl hvalue rfl
  simpa using h

def tagFront : List Char := openingMark ++ [' ', 't', 'y', 'p', 'e', '=']

theorem tagChars_eq (scriptType : List Char) :
    tagChars scriptType = tagFront ++ '"' :: (scriptType ++ ['"', '>']) := by
  simp [tagChars, tagFront, openingMark]

theorem openingTag_tagChars (scriptType : List Char) :
    OpeningTag scriptType (tagChars scriptType) := by
  have ha : TypeAttribute scriptType (['t', 'y', 'p', 'e'] ++ '=' :: '"' :: scriptType ++ ['"']) :=
    typeAttribute_quoted rfl rfl
  have htag : OpeningTag scriptType (openingMark ++ ' ' ::
      (['t', 'y', 'p', 'e'] ++ '=' :: '"' :: scriptType ++ ['"'] ++ [] ++ ['>'])) :=
    .intro rfl rfl (.skip (by decide) (.here rfl ha List.not_mem_nil))
  simpa [tagChars_eq, tagFront] using htag

theorem behindTag?_append_tagChars {before : List Char} (more : List Char)
    (hend : '>' ∉ scriptType) (hfree : ∀ tag, OpeningTag scriptType tag → ¬tag <:+: before) :
    behindTag? (scriptType.map Text.foldCase) false none (before ++ tagChars scriptType ++ more)
      = some more := by
  refine behindTag?_eq_some_iff.2
    ⟨⟨before, _, openingTag_tagChars scriptType, rfl⟩, fun u tag later htag hpage => ?_⟩
  obtain ⟨v, rfl, -⟩ := htag.exists_end
  rw [List.append_assoc] at hpage
  rcases List.append_eq_append_iff.1 hpage with ⟨d, hd, hmore⟩ | ⟨d, hd, -⟩
  · rcases List.eq_nil_or_concat d with rfl | ⟨e, c, rfl⟩
    · exact absurd ⟨u, [], by simpa using hd⟩ (hfree _ htag)
    · have hlast := congrArg List.getLast? hd
      obtain rfl : c = '>' := by simpa using hlast.symm
      refine Text.length_le_of_count_le (m := '>') (u := tagFront ++ '"' :: (scriptType ++ ['"']))
        (v := e) ?_ ?_
      · simpa [tagChars_eq] using hmore
      · simp [tagFront, openingMark, List.count_append, List.count_eq_zero.2 hend]
  · exact absurd ⟨u, d, hd.symm⟩ (hfree _ htag)

def HoldsValue (scriptType s : List Char) : Prop :=
  ∃ front q value back, isQuote q = true ∧
    value.map Text.foldCase = scriptType.map Text.foldCase ∧ 2 ≤ back.length ∧
      s = front ++ q :: (value ++ back)

theorem HoldsValue.append {s : List Char} (h : HoldsValue scriptType s) (u : List Char) :
    HoldsValue scriptType (u ++ s) := by
  obtain ⟨front, q, value, back, hq, hvalue, hback, rfl⟩ := h
  exact ⟨u ++ front, q, value, back, hq, hvalue, hback, by simp⟩

theorem TagRest.holdsValue {before : Option Char} {t : List Char}
    (h : TagRest scriptType before t) : HoldsValue scriptType t := by
  induction h with
  | @here _ _ tail _ ha _ =>
    cases ha with
    | @intro name space gap value opening closing _ _ _ hopening hvalue _ =>
      exact ⟨name ++ space ++ '=' :: gap, opening, value, closing :: (tail ++ ['>']), hopening,
        hvalue, by simp, by simp⟩
  | skip _ _ ih => exact ih.append [_]

theorem OpeningTag.holdsValue {tag : List Char} (h : OpeningTag scriptType tag) :
    HoldsValue scriptType tag := by
  obtain ⟨-, -, hrest⟩ := h
  exact hrest.holdsValue.append _

end Tags

section Quotes

theorem not_mem_escapeQuotes (s : List Char) : '"' ∉ escapeQuotes s := by
  rw [escapeQuotes, List.mem_flatMap]
  rintro ⟨c, -, hc⟩
  split at hc
  · revert hc
    decide
  · next hne => exact hne (List.mem_singleton.1 hc).symm

/-- A type with a quote is not found in a tag without one between its quotes, so the tag that is
found ends later. -/
theorem length_lt_of_behindTag? {scriptType written more rest : List Char}
    (hquote : '"' ∈ scriptType) (hwritten : '"' ∉ written)
    (h : behindTag? (scriptType.map Text.foldCase) false none (tagChars written ++ more)
      = some rest) : rest.length < more.length := by
  obtain ⟨⟨u, tag, htag, hpage⟩, -⟩ := behindTag?_eq_some_iff.1 h
  obtain ⟨front, q, value, back, hq, hvalue, hback, rfl⟩ := htag.holdsValue
  have hmem : '"' ∈ value :=
    (Text.mem_iff_of_map_foldCase_eq (by decide) (by decide) hvalue).2 hquote
  obtain ⟨v, w, rfl, -⟩ := List.eq_append_cons_of_mem hmem
  have hsplit : tagFront ++ '"' :: (written ++ '"' :: '>' :: more)
      = u ++ front ++ q :: v ++ '"' :: (w ++ back ++ rest) := by
    simpa [tagChars_eq] using hpage
  -- Either the quote of the type is the first of the page, or it is not in front of the second.
  by_cases hcount : (u ++ front ++ q :: v).count '"' = 0
  · have hle := Text.length_le_of_count_le hsplit (Nat.zero_le _)
    have hge := Text.length_le_of_count_le hsplit.symm (by rw [hcount]; exact Nat.zero_le _)
    have hfront := List.append_inj_left' hsplit (by simp only [List.length_cons]; omega)
    have hmem : q ∈ tagFront := by simp [hfront]
    have hnone : tagFront.any isQuote = false := by decide
    rw [List.any_eq_true.2 ⟨q, hmem, hq⟩] at hnone
    cases hnone
  · have hle : (w ++ back ++ rest).length ≤ ('>' :: more).length := by
      refine Text.length_le_of_count_le (m := '"') (u := tagFront ++ '"' :: written)
        (v := u ++ front ++ q :: v) (by simpa using hsplit) ?_
      have : tagFront.count '"' = 0 := by decide
      rw [List.count_append, List.count_cons_self, this, List.count_eq_zero.2 hwritten]
      omega
    simp only [List.length_append, List.length_cons] at hle
    omega

theorem length_lt_of_body? {s body : List Char} (h : body? s = some body) :
    body.length + 9 ≤ s.length := by
  obtain ⟨tag, rest, htag, rfl⟩ := exists_closing h
  have := htag.le_length
  simp only [List.length_append]
  omega

/-- A rendered element is found by its own type, unless the type has a double quote: that one is
written as a reference and looked for as it is. -/
theorem find?_render_self_iff (scriptType text : String) :
    find? scriptType (render scriptType text)
        = some (some (String.ofList (escapeClosing text.toList))) ↔
      isMatchable scriptType = true ∧ '"' ∉ scriptType.toList := by
  constructor
  · intro h
    rw [find?] at h
    split at h
    · next hmatch =>
      refine ⟨hmatch, fun hquote => ?_⟩
      obtain ⟨body, hbody, hsame⟩ := Option.map_eq_some_iff.1 (Option.some.inj h)
      obtain rfl := String.ofList_injective hsame
      rw [toList_render] at hbody
      obtain ⟨rest, hrest, hbody⟩ := Option.bind_eq_some_iff.1 hbody
      have hlt := length_lt_of_behindTag? hquote (not_mem_escapeQuotes _) hrest
      have hle := length_lt_of_body? hbody
      simp only [List.length_append, List.length_cons, List.length_nil] at hlt
      omega
    · cases h
  · rintro ⟨hmatch, hquote⟩
    have hunopened : Unopened "".toList := by decide
    simpa using find?_render text "" hmatch hquote hunopened

/-- The quote is written as a reference, which the search does not know. -/
theorem not_find?_render_quote : ¬∀ scriptType text, isMatchable scriptType = true →
    find? scriptType (render scriptType text)
      = some (some (String.ofList (escapeClosing text.toList))) := by
  intro h
  have hfind := h "\"" "x" (by decide +kernel)
  have hnone : find? "\"" (render "\"" "x") = some none := by decide +kernel
  rw [hnone] at hfind
  cases hfind

end Quotes

end ScriptBlock

namespace Cache

open ScriptBlock

theorem all_isWhite_escapeClosing (s : List Char) :
    (escapeClosing s).all Text.isWhite = s.all Text.isWhite := by
  have hmark : Text.isWhite '<' = false := by decide
  induction s using escapeClosing.induct with
  | case1 => rfl
  | case2 c => rfl
  | case3 c d rest h ih =>
    obtain ⟨rfl, rfl⟩ := h
    simp only [escapeClosing_mark, List.all_cons, hmark, Bool.false_and]
  | case4 c d rest h ih => rw [escapeClosing, if_neg h, List.all_cons, ih, ← List.all_cons]

theorem ofText_escapeClosing {text : String} {tree : Json.Source}
    (h : Json.Source.read? text = some tree) :
    ofText (String.ofList (escapeClosing text.toList)) = ofText text := by
  rw [ofText, ofText, Text.isBlank, Text.isBlank, String.toList_ofList, all_isWhite_escapeClosing,
    Snapshot.parse?, Snapshot.parse?, Json.Source.read?_escapeClosing h, h]

/-- A text comes back from a page with its closing marks escaped, and if it is JSON, as the same
JSON. What stands in front may even leave a tag open, as long as no tag of this type ends there. -/
theorem ofPage_rendered {scriptType before : String} (text behind : String)
    (hmatch : isMatchable scriptType = true) (hquote : '"' ∉ scriptType.toList)
    (hend : '>' ∉ scriptType.toList)
    (hfree : ∀ tag, OpeningTag scriptType.toList tag → ¬tag <:+: before.toList) :
    let page := before ++ render scriptType text ++ behind
    let escaped := String.ofList (escapeClosing text.toList)
    find? scriptType page = some (some escaped) ∧
      ∀ tree, Json.Source.read? text = some tree →
        Json.Source.read? escaped = some tree ∧ Json.parse? escaped = Json.parse? text ∧
          ofPage scriptType page = ofText text := by
  intro page escaped
  have hfind : find? scriptType page = some (some escaped) :=
    find?_render_of_behindTag? text behind hmatch hquote fun more =>
      behindTag?_append_tagChars more hend hfree
  refine ⟨hfind, fun tree htree => ?_⟩
  have hread : Json.Source.read? escaped = some tree := Json.Source.read?_escapeClosing htree
  refine ⟨hread, ?_, ?_⟩
  · rw [Json.parse?, Json.parse?, hread, htree]
  · rw [ofPage, hfind, ofFound, ofText_escapeClosing htree]

theorem ofPage_rendered_module :
    let text := "\x7b\"GET / -\":[\x7b\"error\":\"</script>\"\x7d]\x7d"
    let page := "<script type='module'>f()</script>" ++ render "text/wadehttp" text ++ "</body>"
    find? "text/wadehttp" page
        = some (some "\x7b\"GET / -\":[\x7b\"error\":\"<\\/script>\"\x7d]\x7d") ∧
      ofPage "text/wadehttp" page = ofText text := by
  intro text page
  have hfree : ∀ tag, OpeningTag "text/wadehttp".toList tag →
      ¬tag <:+: "<script type='module'>f()</script>".toList :=
    (behindTag?_eq_none_iff none).1 (by decide +kernel)
  obtain ⟨tree, htree⟩ : ∃ tree, Json.Source.read? text = some tree :=
    Option.isSome_iff_exists.1 (by decide +kernel)
  obtain ⟨hfind, hjson⟩ :=
    ofPage_rendered text "</body>" (by decide +kernel) (by decide) (by decide) hfree
  refine ⟨hfind.trans ?_, (hjson tree htree).2.2⟩
  decide +kernel

end Cache

end ReactivePage
