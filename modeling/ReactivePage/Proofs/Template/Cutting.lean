import ReactivePage.Template.Part
import ReactivePage.Proofs.Template.Grammar
import ReactivePage.Proofs.Text.Trimming
import Mathlib.Data.List.Chain

namespace ReactivePage

namespace Mustache

/-- A text cut at its leftmost spans: the text in front of each and its body, and the text behind
the last. -/
inductive Cut : List Char → List (List Char × List Char) → List Char → Prop
  | plain {s : List Char} : Plain s → Cut s [] s
  | span {s before body after rest : List Char} {cuts : List (List Char × List Char)} :
      Leftmost s before body after → Cut after cuts rest → Cut s ((before, body) :: cuts) rest

namespace Cut

variable {s rest rest' : List Char} {cuts cuts' : List (List Char × List Char)}

theorem unique (C : Cut s cuts rest) (C' : Cut s cuts' rest') : cuts' = cuts ∧ rest' = rest := by
  induction C generalizing cuts' with
  | plain hplain =>
    cases C' with
    | plain _ => exact ⟨rfl, rfl⟩
    | span L _ => exact absurd L.spans (hplain _ _ _)
  | span L _ ih =>
    cases C' with
    | plain hplain => exact absurd L.spans (hplain _ _ _)
    | span L' C' =>
      obtain ⟨rfl, rfl, rfl⟩ := L.unique L'
      obtain ⟨rfl, rfl⟩ := ih C'
      exact ⟨rfl, rfl⟩

theorem text (C : Cut s cuts rest) :
    s = cuts.flatMap (fun cut => cut.1 ++ wrap cut.2) ++ rest := by
  induction C with
  | plain _ => rfl
  | span L _ ih =>
    rw [L.spans.text, List.flatMap_cons, List.append_assoc, List.append_assoc, ← ih]

theorem plain_rest (C : Cut s cuts rest) : Plain rest := by
  induction C with
  | plain hplain => exact hplain
  | span _ _ ih => exact ih

theorem plain_of_mem (C : Cut s cuts rest) : ∀ cut ∈ cuts, Plain cut.1 := by
  induction C with
  | plain _ => nofun
  | span L _ ih =>
    rw [List.forall_mem_cons]
    exact ⟨L.plain_before, ih⟩

theorem tokens_of_mem (C : Cut s cuts rest) :
    ∀ body ∈ cuts.map (·.2), Tokens body ∧ body ≠ [] := by
  induction C with
  | plain _ => nofun
  | span L _ ih => exact List.forall_mem_cons.2 ⟨⟨L.spans.tokens, L.spans.nonempty⟩, ih⟩

end Cut

end Mustache

namespace Part

open Mustache (Cut Leftmost Plain wrap)

/-- The parts of a cutting: a literal for each gap that is not empty, as it stands, and an
expression for each body, without the white space at its ends. -/
inductive Yields : List (List Char × List Char) → List Char → List Part → Prop
  | done : Yields [] [] []
  | last {rest : List Char} : rest ≠ [] → Yields [] rest [literal (String.ofList rest)]
  | gap {before body rest : List Char} {cuts : List (List Char × List Char)}
      {parts : List Part} : before ≠ [] → Yields (([], body) :: cuts) rest parts →
      Yields ((before, body) :: cuts) rest (literal (String.ofList before) :: parts)
  | span {body rest : List Char} {cuts : List (List Char × List Char)} {content : String}
      {parts : List Part} : Text.Trims body content.toList → Yields cuts rest parts →
      Yields (([], body) :: cuts) rest (expression content :: parts)

inductive Source : Part → List Char → Prop
  | literal (text : String) : Source (literal text) text.toList
  | expression {v w : List Char} (body : String) : Text.White v → Text.White w →
      Source (expression body) (wrap (v ++ body.toList ++ w))

namespace Yields

variable {rest : List Char} {cuts : List (List Char × List Char)} {parts : List Part}

theorem ofRun (rest : List Char) : Yields [] rest (ofRun rest) := by
  cases rest with
  | nil => exact .done
  | cons c rest => exact .last (List.cons_ne_nil c rest)

theorem ofRun_append {before body : List Char} {content : String}
    (ht : Text.Trims body content.toList) (Y : Yields cuts rest parts) :
    Yields ((before, body) :: cuts) rest (Part.ofRun before ++ expression content :: parts) := by
  cases before with
  | nil => exact .span ht Y
  | cons c before => exact .gap (List.cons_ne_nil c before) (.span ht Y)

theorem eq_cons_of_nil {body : List Char} (Y : Yields (([], body) :: cuts) rest parts) :
    ∃ content parts', parts = expression content :: parts' := by
  cases Y with
  | gap hne _ => exact absurd rfl hne
  | span _ _ => exact ⟨_, _, rfl⟩

theorem isChain (Y : Yields cuts rest parts) :
    parts.IsChain fun p q => p.isExpression = true ∨ q.isExpression = true := by
  induction Y with
  | done => exact .nil
  | last _ => exact .singleton _
  | gap _ Y ih =>
    obtain ⟨content, parts', rfl⟩ := Y.eq_cons_of_nil
    exact .cons_cons (.inr rfl) ih
  | span _ _ ih =>
    cases ih with
    | nil => exact .singleton _
    | singleton q => exact .cons_cons (.inl rfl) (.singleton q)
    | cons_cons h ih => exact .cons_cons (.inl rfl) (.cons_cons h ih)

theorem gap_of_literal (Y : Yields cuts rest parts) {t : String} (ht : literal t ∈ parts) :
    t.toList ≠ [] ∧ (t.toList = rest ∨ ∃ cut ∈ cuts, t.toList = cut.1) := by
  induction Y with
  | done => cases ht
  | last hne =>
    cases List.mem_singleton.1 ht
    rw [String.toList_ofList]
    exact ⟨hne, .inl rfl⟩
  | gap hne _ ih =>
    rcases List.mem_cons.1 ht with heq | ht
    · cases heq
      rw [String.toList_ofList]
      exact ⟨hne, .inr ⟨_, List.mem_cons_self, rfl⟩⟩
    · obtain ⟨hne, hrest | ⟨cut, hcut, heq⟩⟩ := ih ht
      · exact ⟨hne, .inl hrest⟩
      · rcases List.mem_cons.1 hcut with rfl | hcut
        · exact absurd heq hne
        · exact ⟨hne, .inr ⟨cut, List.mem_cons_of_mem _ hcut, heq⟩⟩
  | span _ _ ih =>
    rcases List.mem_cons.1 ht with heq | ht
    · cases heq
    · obtain ⟨hne, hrest | ⟨cut, hcut, heq⟩⟩ := ih ht
      · exact ⟨hne, .inl hrest⟩
      · exact ⟨hne, .inr ⟨cut, List.mem_cons_of_mem _ hcut, heq⟩⟩

theorem trims_of_mem (Y : Yields cuts rest parts) {content : String} (h : content ∈ bodies parts) :
    ∃ body ∈ cuts.map (·.2), Text.Trims body content.toList := by
  induction Y with
  | done => cases h
  | last _ => cases h
  | gap _ _ ih => exact ih h
  | span ht _ ih =>
    rcases List.mem_cons.1 h with rfl | h
    · exact ⟨_, List.mem_cons_self, ht⟩
    · obtain ⟨body, hbody, ht⟩ := ih h
      exact ⟨body, List.mem_cons_of_mem _ hbody, ht⟩

theorem sources (Y : Yields cuts rest parts) :
    ∃ sources, List.Forall₂ Source parts sources ∧
      sources.flatten = cuts.flatMap (fun cut => cut.1 ++ wrap cut.2) ++ rest := by
  induction Y with
  | done => exact ⟨[], .nil, rfl⟩
  | @last rest _ =>
    have hsource := Source.literal (String.ofList rest)
    rw [String.toList_ofList] at hsource
    exact ⟨[rest], .cons hsource .nil, by simp⟩
  | @gap before body rest cuts parts _ _ ih =>
    obtain ⟨sources, hsources, hflat⟩ := ih
    have hsource := Source.literal (String.ofList before)
    rw [String.toList_ofList] at hsource
    refine ⟨before :: sources, .cons hsource hsources, ?_⟩
    rw [List.flatten_cons, hflat]
    simp
  | @span body rest cuts content parts ht _ ih =>
    obtain ⟨sources, hsources, hflat⟩ := ih
    obtain ⟨v, w, hv, hw, rfl⟩ := ht.margins
    refine ⟨_ :: sources, .cons (.expression content hv hw) hsources, ?_⟩
    rw [List.flatten_cons, hflat]
    simp

end Yields

theorem exists_cut (s : List Char) :
    ∃ cuts rest, Cut s cuts rest ∧ Yields cuts rest (ofChars s) := by
  induction hn : s.length using Nat.strong_induction_on generalizing s with
  | _ n ih =>
    subst hn
    cases hf : Mustache.first? s with
    | none =>
      rw [ofChars_of_first?_none hf]
      exact ⟨[], s, .plain (Mustache.plain_of_first? hf), .ofRun s⟩
    | some found =>
      obtain ⟨before, body, after⟩ := found
      obtain ⟨cuts, rest, hcut, hyields⟩ := ih _ (Mustache.length_of_first? hf) after rfl
      refine ⟨(before, body) :: cuts, rest, .span (Mustache.leftmost_of_first? hf) hcut, ?_⟩
      rw [ofChars_of_first?_some hf]
      refine .ofRun_append ?_ hyields
      rw [String.toList_ofList]
      exact Text.trims_trimChars body

theorem ofChars_of_leftmost {s before body after : List Char} (L : Leftmost s before body after) :
    ofChars s =
      ofRun before ++ expression (String.ofList (Text.trimChars body)) :: ofChars after :=
  ofChars_of_first?_some L.first?_eq

theorem Yields.ofChars {s rest : List Char} {cuts : List (List Char × List Char)}
    (C : Cut s cuts rest) : Yields cuts rest (ofChars s) := by
  obtain ⟨cuts', rest', C', Y⟩ := exists_cut s
  obtain ⟨rfl, rfl⟩ := C.unique C'
  exact Y

theorem ofChars_eq_nil {s : List Char} (h : ofChars s = []) : s = [] := by
  obtain ⟨cuts, rest, C, Y⟩ := exists_cut s
  rw [h] at Y
  cases Y
  exact C.text

theorem ofText_of_ne_empty {text : String} (h : text ≠ "") : ofText text = ofChars text.toList := by
  rw [ofText]
  split
  · next heq => exact absurd (String.toList_eq_nil_iff.1 (ofChars_eq_nil heq)) h
  · rfl

theorem ofRun_toList {text : String} (h : text ≠ "") : ofRun text.toList = [literal text] := by
  cases hs : text.toList with
  | nil => exact absurd (String.toList_eq_nil_iff.1 hs) h
  | cons c s =>
    have hrun : ofRun (c :: s) = [literal (String.ofList (c :: s))] := rfl
    rw [hrun, ← hs, String.ofList_toList]

theorem ofText_of_ofChars {text : String} {parts : List Part} (hne : parts ≠ [])
    (h : ofChars text.toList = parts) : ofText text = parts := by
  rw [ofText_of_ne_empty, h]
  rintro rfl
  exact hne (h.symm.trans (ofChars_of_first?_none rfl))

theorem ofText_wrap {text : String} {body : List Char} (h : Mustache.Tokens body) (hne : body ≠ [])
    (htext : text.toList = wrap body) :
    ofText text = [expression (String.ofList (Text.trimChars body))] := by
  have L : Leftmost text.toList [] body [] :=
    ⟨⟨h, hne, htext.trans (List.append_nil _).symm⟩, fun _ _ _ _ => Nat.zero_le _⟩
  refine ofText_of_ofChars (List.cons_ne_nil _ _) ?_
  rw [ofChars_of_leftmost L, ofChars_of_first?_none rfl]
  rfl

theorem ofText_of_plain {text : String} (h : Plain text.toList) : ofText text = [literal text] := by
  by_cases hempty : text = ""
  · subst hempty
    rw [ofText, ofChars_of_first?_none rfl]
    rfl
  · rw [ofText_of_ne_empty hempty, ofChars_of_first?_none h.first?_eq_none, ofRun_toList hempty]

theorem ofText_empty : ofText "" = [literal ""] := ofText_of_plain Mustache.plain_nil

theorem yields_ofText {text : String} (h : text ≠ "") {rest : List Char}
    {cuts : List (List Char × List Char)} (C : Cut text.toList cuts rest) :
    Yields cuts rest (ofText text) := by
  rw [ofText_of_ne_empty h]
  exact .ofChars C

/-- A text is cut at its leftmost spans, and from each place at most one span can be read. Its
parts are those of its one cutting; only the empty text has an empty literal. They can be written
out as the text again, no two literals stand side by side, and none can be cut further. -/
theorem ofText_leftmost (text : String) :
    (∀ s body body' after after', Mustache.Spans s [] body after →
      Mustache.Spans s [] body' after' → body = body' ∧ after = after') ∧
    (∃ cuts rest, Cut text.toList cuts rest ∧
      (∀ cuts' rest', Cut text.toList cuts' rest' → cuts' = cuts ∧ rest' = rest) ∧
      (text ≠ "" → Yields cuts rest (ofText text)) ∧
      (text = "" → ofText text = [literal ""])) ∧
    (∃ sources, List.Forall₂ Source (ofText text) sources ∧ sources.flatten = text.toList) ∧
    (ofText text).IsChain (fun p q => p.isExpression = true ∨ q.isExpression = true) ∧
    (literal "" ∈ ofText text → ofText text = [literal ""]) ∧
    ∀ t, literal t ∈ ofText text → ofText t = [literal t] := by
  refine ⟨fun _ _ _ _ _ => Mustache.Spans.unique, ?_⟩
  obtain ⟨cuts, rest, C, -⟩ := exists_cut text.toList
  by_cases h : text = ""
  · subst h
    rw [ofText_empty]
    refine ⟨⟨cuts, rest, C, fun _ _ C' => C.unique C', fun hne => absurd rfl hne, fun _ => rfl⟩,
      ⟨[[]], .cons (Source.literal "") .nil, rfl⟩, .singleton _, fun _ => rfl, ?_⟩
    intro t ht
    cases List.mem_singleton.1 ht
    exact ofText_empty
  · have Y := yields_ofText h C
    refine ⟨⟨cuts, rest, C, fun _ _ C' => C.unique C', fun _ => Y, fun hempty => absurd hempty h⟩,
      ?_, Y.isChain, ?_, ?_⟩
    · obtain ⟨sources, hsources, hflat⟩ := Y.sources
      exact ⟨sources, hsources, hflat.trans C.text.symm⟩
    · intro hm
      exact absurd rfl (Y.gap_of_literal hm).1
    · intro t ht
      apply ofText_of_plain
      obtain ⟨-, hrest | ⟨cut, hcut, heq⟩⟩ := Y.gap_of_literal ht
      · rw [hrest]
        exact C.plain_rest
      · rw [heq]
        exact C.plain_of_mem cut hcut

end Part

end ReactivePage
