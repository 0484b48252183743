import ReactivePage.Proofs.Template.Braces

namespace ReactivePage

namespace Mustache

def Opens (s : List Char) : Prop := ∃ body after, Spans s [] body after

def Closes (s : List Char) : Prop := (closing? s).isSome = true

section Reading

variable {u s s' : List Char} {c d : Char}

theorem closes_tokens_append (hu : Tokens u) : Closes (u ++ s) ↔ Closes s := by
  rw [Closes, closing?_tokens_append hu, Option.isSome_map]
  exact Iff.rfl

theorem closes_of_tokens (hu : Tokens u) (s : List Char) : Closes (u ++ '}' :: '}' :: s) :=
  (closes_tokens_append hu).2 rfl

theorem not_closes_opening (s : List Char) : ¬ Closes ('{' :: '{' :: s) := nofun

theorem closes_cons_of_not_brace (hc : ¬ Brace c) : Closes (c :: s) ↔ Closes s :=
  closes_tokens_append (u := [c]) (.plain (hc ∘ .inl) (hc ∘ .inr) .nil)

theorem Brace.closes_cons_iff (hc : Brace c) (hd : d ≠ c) : Closes (c :: d :: s) ↔ Closes s :=
  closes_tokens_append (u := [c, d]) (hc.tokens_cons_iff.2 ⟨hd, .nil⟩)

theorem opens_iff : Opens s ↔
    ∃ r, s = '{' :: '{' :: r ∧ Closes r ∧ ∀ after, r ≠ '}' :: '}' :: after := by
  constructor
  · rintro ⟨body, after, h⟩
    refine ⟨_, h.text.trans (wrap_append body after), closes_of_tokens h.tokens after, ?_⟩
    intro after' heq
    have hclosing := closing?_append h.tokens after
    rw [heq] at hclosing
    cases hclosing
    exact h.nonempty rfl
  · rintro ⟨r, rfl, hr, hne⟩
    obtain ⟨⟨body, after⟩, hclosing⟩ := Option.isSome_iff_exists.1 hr
    obtain rfl := eq_append_of_closing? hclosing
    refine ⟨body, after, tokens_of_closing? hclosing, ?_, (wrap_append body after).symm⟩
    rintro rfl
    exact hne after rfl

theorem leftmost_iff {before body after : List Char} :
    Leftmost (before ++ (wrap body ++ after)) before body after ↔
      Tokens body ∧ body ≠ [] ∧
        ∀ u c v, before = u ++ c :: v → ¬ Opens (c :: v ++ (wrap body ++ after)) := by
  constructor
  · intro L
    refine ⟨L.spans.tokens, L.spans.nonempty, ?_⟩
    rintro u c v rfl ⟨body', after', h⟩
    have hle := L.first u body' after'
      ⟨h.tokens, h.nonempty, by rw [List.append_assoc]; exact congrArg (u ++ ·) h.text⟩
    rw [List.length_append, List.length_cons] at hle
    omega
  · rintro ⟨htokens, hne, hopens⟩
    refine ⟨⟨htokens, hne, rfl⟩, fun before' body' after' h => Nat.le_of_not_lt fun hlt => ?_⟩
    obtain ⟨v, heq, hv⟩ | ⟨v, rfl, hv⟩ := List.append_eq_append_iff.1 h.text
    · rw [heq, List.length_append] at hlt
      omega
    · cases v with
      | nil => simp at hlt
      | cons c v => exact hopens before' c v rfl ⟨body', after', h.tokens, h.nonempty, hv.symm⟩

end Reading

end Mustache

namespace Part

open Mustache (Leftmost Plain Tokens wrap)

def Unopened (text : String) : Prop := ¬ ['{', '{'] <:+: text.toList

instance (text : String) : Decidable (Unopened text) :=
  inferInstanceAs (Decidable (¬ ['{', '{'] <:+: text.toList))

theorem Unopened.plain {text : String} (h : Unopened text) : Plain text.toList := by
  intro before body after hspans
  refine h ⟨before, body ++ '}' :: '}' :: after, ?_⟩
  rw [hspans.text, Mustache.wrap_append, List.append_assoc]
  rfl

structure Bare (content : String) : Prop where
  tokens : Tokens content.toList
  nonempty : content ≠ ""
  head : ∀ c ∈ content.toList.head?, Text.isWhite c = false
  last : ∀ c ∈ content.toList.getLast?, Text.isWhite c = false

theorem Bare.trimmed {content : String} (h : Bare content) :
    Text.trimChars content.toList = content.toList :=
  Text.trimChars_eq_self_iff.2 ⟨h.head, h.last⟩

theorem Bare.toList_ne_nil {content : String} (h : Bare content) : content.toList ≠ [] :=
  fun hnil => h.nonempty (String.toList_eq_nil_iff.1 hnil)

instance (content : String) : Decidable (Bare content) :=
  decidable_of_iff (Tokens content.toList ∧ content ≠ "" ∧
      Text.trimChars content.toList = content.toList)
    ⟨fun ⟨tokens, nonempty, h⟩ =>
        have margins := Text.trimChars_eq_self_iff.1 h
        ⟨tokens, nonempty, margins.1, margins.2⟩,
      fun h => ⟨h.tokens, h.nonempty, h.trimmed⟩⟩

def Shown : Part → Prop
  | literal text => text ≠ "" ∧ Unopened text
  | expression content => Bare content

instance : DecidablePred Shown
  | literal text => inferInstanceAs (Decidable (text ≠ "" ∧ Unopened text))
  | expression content => inferInstanceAs (Decidable (Bare content))

def Joins : Part → Part → Prop
  | literal _, literal _ => False
  | literal text, expression _ => text.toList.getLast? ≠ some '{'
  | expression _, _ => True

instance : DecidableRel Joins
  | literal _, literal _ => .isFalse id
  | literal text, expression _ => inferInstanceAs (Decidable (text.toList.getLast? ≠ some '{'))
  | expression _, _ => .isTrue trivial

structure Legible (parts : List Part) : Prop where
  joins : parts.IsChain Joins
  shown : ∀ p ∈ parts, Shown p

instance (parts : List Part) : Decidable (Legible parts) :=
  decidable_of_iff (parts.IsChain Joins ∧ ∀ p ∈ parts, Shown p)
    ⟨fun ⟨joins, shown⟩ => ⟨joins, shown⟩, fun h => ⟨h.joins, h.shown⟩⟩

theorem Legible.tail {p : Part} {rest : List Part} (h : Legible (p :: rest)) : Legible rest :=
  ⟨h.joins.tail, fun q hq => h.shown q (List.mem_cons_of_mem p hq)⟩

theorem leftmost_of_unopened {text content : String} (ht : Unopened text)
    (hlast : text.toList.getLast? ≠ some '{') (hc : Bare content) (after : List Char) :
    Leftmost (text.toList ++ (wrap content.toList ++ after)) text.toList content.toList after := by
  refine Mustache.leftmost_iff.2 ⟨hc.tokens, hc.toList_ne_nil, fun u c v heq hopens => ?_⟩
  obtain ⟨r, hr, -⟩ := Mustache.opens_iff.1 hopens
  obtain ⟨rfl, hv⟩ := List.cons.inj hr
  cases v with
  | nil => exact hlast (by rw [heq, List.getLast?_concat])
  | cons d v =>
    obtain ⟨rfl, -⟩ := List.cons.inj hv
    exact ht ⟨u, v, by rw [heq, List.append_assoc]; rfl⟩

theorem ofChars_wrap {content : String} (hc : Bare content) {before : List Char}
    {after : List Char} (L : Leftmost (before ++ (wrap content.toList ++ after)) before
      content.toList after) :
    ofChars (before ++ (wrap content.toList ++ after)) =
      ofRun before ++ expression content :: ofChars after := by
  rw [ofChars_of_leftmost L, hc.trimmed, String.ofList_toList]

theorem ofChars_source : ∀ {parts : List Part}, Legible parts →
    ofChars (parts.flatMap source) = parts
  | [], _ => ofChars_of_first?_none rfl
  | expression content :: rest, h => by
    have hc : Bare content := h.shown _ List.mem_cons_self
    have L : Leftmost ([] ++ (wrap content.toList ++ rest.flatMap source)) [] content.toList _ :=
      @leftmost_of_unopened "" content (by decide) nofun hc _
    refine (ofChars_wrap hc L).trans ?_
    exact congrArg (expression content :: ·) (ofChars_source h.tail)
  | [literal text], h => by
    obtain ⟨hne, ht⟩ := h.shown _ List.mem_cons_self
    rw [List.flatMap_singleton]
    exact (ofChars_of_first?_none ht.plain.first?_eq_none).trans (ofRun_toList hne)
  | literal text :: literal text' :: rest, h => (List.isChain_cons_cons.1 h.joins).1.elim
  | literal text :: expression content :: rest, h => by
    obtain ⟨hne, ht⟩ := h.shown _ List.mem_cons_self
    have hc : Bare content := h.tail.shown _ List.mem_cons_self
    have hlast := (List.isChain_cons_cons.1 h.joins).1
    refine (ofChars_wrap hc (leftmost_of_unopened ht hlast hc _)).trans ?_
    rw [ofRun_toList hne]
    exact congrArg (literal text :: expression content :: ·) (ofChars_source h.tail.tail)

/-- Parts are cut again from their own template: one literal that opens no span, or expressions
and literals that it shows as they are. -/
theorem ofText_toTemplate {parts : List Part}
    (h : (∃ text, parts = [literal text] ∧ Unopened text) ∨
      (hasExpressions parts = true ∧ Legible parts)) :
    ofText (toTemplate parts) = parts := by
  obtain ⟨text, rfl, ht⟩ | ⟨hexpressions, h⟩ := h
  · have htemplate : toTemplate [literal text] = text := by
      rw [toTemplate, List.flatMap_singleton]
      exact String.ofList_toList
    rw [htemplate]
    exact ofText_of_plain ht.plain
  · refine ofText_of_ofChars ?_ ?_
    · rintro rfl
      cases hexpressions
    · rw [toTemplate, String.toList_ofList]
      exact ofChars_source h

def bracedParts : List Part :=
  [literal "a\x7d ", expression "f(\x7ba: \x7b\x7d\x7d)", literal "\x7d\x7d\x7b \x7d",
    expression "\x7d\x7b", expression "x"]

theorem ofText_toTemplate_braced :
    (hasExpressions bracedParts = true ∧ Legible bracedParts) ∧
      ofText (toTemplate bracedParts) = bracedParts := by
  have h : hasExpressions bracedParts = true ∧ Legible bracedParts := by decide
  exact ⟨h, ofText_toTemplate (.inr h)⟩

end Part

end ReactivePage
