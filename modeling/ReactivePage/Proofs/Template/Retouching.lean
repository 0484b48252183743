import ReactivePage.Proofs.Template.Rebuilding

/-!
The parts of a text written as template text and cut again.

What may be lost is the white space that trimming took: without it a body may be empty, or end in
half a token. If every content is a body still, no other span shows in the rebuilt template,
although the braces of a span stand next to other characters there than in the text: a reading
that closes in the template closes in the text, so a span that starts in the template starts in
the text.
-/

namespace ReactivePage

namespace Mustache

open Text (Trims)

/-- A text and the same text with white space taken off the ends of some bodies, where that leaves
a body. -/
inductive Retouched : List Char → List Char → Prop
  | same (s : List Char) : Retouched s s
  | cons {s s' : List Char} (c : Char) : Retouched s s' → Retouched (c :: s) (c :: s')
  | span {body content after after' : List Char} : Tokens body → Trims body content →
      Tokens content → content ≠ [] → Retouched after after' →
      Retouched (wrap body ++ after) (wrap content ++ after')

namespace Retouched

variable {s s' before body content after after' : List Char}

theorem append (u : List Char) (R : Retouched s s') : Retouched (u ++ s) (u ++ s') := by
  induction u with
  | nil => exact R
  | cons c u ih => exact .cons c ih

theorem of_closing {r : List Char} (R : Retouched s s') (h : s = '}' :: r) :
    ∃ r', s' = '}' :: r' ∧ Retouched r r' := by
  cases R with
  | same s => exact ⟨r, h, .same r⟩
  | cons c R =>
    obtain ⟨rfl, rfl⟩ := List.cons.inj h
    exact ⟨_, rfl, R⟩
  | span => cases h

/-- One of the opening braces of a span may start a token of its own. Its second character is the
first of the body then, and the tokens that follow may end in a brace that makes one token with the
first of the closing braces; only then does the reading go on behind the span. -/
theorem closes_of_content (hbody : Tokens body) (ht : Trims body content)
    (hafter : Closes ('}' :: after') → Closes ('}' :: after))
    (h : Closes ('{' :: (content ++ '}' :: '}' :: after'))) :
    Closes ('{' :: (body ++ '}' :: '}' :: after)) := by
  obtain ⟨v, w, hv, hw, rfl⟩ := ht.margins
  cases v with
  | cons c v =>
    -- The brace takes white space, which the text has and the template has not.
    have hc := not_brace_of_white hv
    have hrest := (tokens_cons_iff_of_ne (hc ∘ .inl) (hc ∘ .inr)).1 hbody
    exact closes_of_tokens (.opening (hc ∘ .inl) hrest) after
  | nil =>
    -- Both readings are the same up to `r`, what is left of the content when no token is.
    obtain ⟨u, r, hu, hr, heq⟩ := exists_stop ('{' :: content)
    have hread : ∀ x, '{' :: (content ++ x) = u ++ (r ++ x) := fun x => by
      rw [← List.append_assoc, ← heq, List.cons_append]
    rw [hread, closes_tokens_append hu] at h
    rw [List.nil_append, List.append_assoc, hread, closes_tokens_append hu]
    cases hr with
    | done => exact closes_of_tokens (tokens_of_white hw) after
    | @lone e he =>
      cases w with
      | cons c w =>
        have hne : c ≠ e := by
          rintro rfl
          exact not_brace_of_white hw he
        have hw' := (List.forall_mem_cons.1 hw).2
        exact (he.closes_cons_iff hne).2 (closes_of_tokens (tokens_of_white hw') after)
      | nil =>
        -- The lone brace stands in front of the closing braces in both.
        rcases he with rfl | rfl
        · have hskip (s) : Closes ('{' :: '}' :: s) ↔ Closes s :=
            Brace.closes_cons_iff (.inl rfl) (by decide)
          exact (hskip _).2 (hafter ((hskip _).1 h))
        · exact closes_of_tokens .nil _
    | doubled he =>
      rcases he with rfl | rfl
      · exact absurd h (not_closes_opening _)
      · exact closes_of_tokens .nil _

theorem closes_of_forall_cons (h : ∀ b, Closes (b :: s') → Closes (b :: s)) (hs : Closes s') :
    Closes s := by
  have hblank : ¬ Brace ' ' := by decide
  rw [← closes_cons_of_not_brace hblank] at hs ⊢
  exact h ' ' hs

theorem closes_cons (R : Retouched s s') (b : Char) (h : Closes (b :: s')) : Closes (b :: s) := by
  induction R generalizing b with
  | same s => exact h
  | cons c R ih =>
    by_cases hb : Brace b
    · by_cases hc : c = b
      · subst hc
        rcases hb with rfl | rfl
        · exact absurd h (not_closes_opening _)
        · exact closes_of_tokens .nil _
      · rw [hb.closes_cons_iff hc] at h ⊢
        exact closes_of_forall_cons ih h
    · rw [closes_cons_of_not_brace hb] at h ⊢
      exact ih c h
  | span hbody ht _ _ _ ih =>
    rw [wrap_append] at h ⊢
    by_cases hb : Brace b
    · rcases hb with rfl | rfl
      · exact absurd h (not_closes_opening _)
      · have hskip (s) : Closes ('}' :: '{' :: s) ↔ Closes s :=
          Brace.closes_cons_iff (.inr rfl) (by decide)
        exact (hskip _).2 (closes_of_content hbody ht (ih '}') ((hskip _).1 h))
    · rw [closes_cons_of_not_brace hb] at h
      exact absurd h (not_closes_opening _)

theorem opens_cons (R : Retouched s s') (b : Char) (h : Opens (b :: s')) : Opens (b :: s) := by
  obtain ⟨r', heq, hr', hne⟩ := opens_iff.1 h
  obtain ⟨rfl, hs'⟩ := List.cons.inj heq
  cases R with
  | same s => exact h
  | @cons r _ c R =>
    obtain ⟨rfl, rfl⟩ := List.cons.inj hs'
    refine opens_iff.2 ⟨r, rfl, closes_of_forall_cons R.closes_cons hr', ?_⟩
    rintro after rfl
    obtain ⟨r₁, rfl, R₁⟩ := R.of_closing rfl
    obtain ⟨r₂, rfl, -⟩ := R₁.of_closing rfl
    exact hne r₂ rfl
  | span hbody ht _ _ R =>
    rw [wrap_append] at hs' ⊢
    obtain rfl := (List.cons.inj hs').2
    exact opens_iff.2 ⟨_, rfl, closes_of_content hbody ht (R.closes_cons '}') hr', nofun⟩

theorem leftmost (L : Leftmost (before ++ (wrap body ++ after)) before body after)
    (ht : Trims body content) (hcontent : Tokens content) (hne : content ≠ [])
    (R : Retouched after after') :
    Leftmost (before ++ (wrap content ++ after')) before content after' := by
  refine leftmost_iff.2 ⟨hcontent, hne, ?_⟩
  rintro u c v rfl hopens
  have R' := (Retouched.span L.spans.tokens ht hcontent hne R).append v
  exact (leftmost_iff.1 L).2.2 u c v rfl (R'.opens_cons c hopens)

end Retouched

end Mustache

namespace Part

open Mustache (Cut Retouched Tokens wrap)

theorem flatMap_source_ofRun (run : List Char) : (ofRun run).flatMap source = run := by
  cases run with
  | nil => rfl
  | cons c run =>
    have hrun : ofRun (c :: run) = [literal (String.ofList (c :: run))] := rfl
    rw [hrun, List.flatMap_singleton]
    exact String.toList_ofList

theorem bodies_ofRun_append (run : List Char) (parts : List Part) :
    bodies (ofRun run ++ parts) = bodies parts := by
  cases run <;> rfl

theorem rebuilt_of_cut {s rest : List Char} {cuts : List (List Char × List Char)}
    (C : Cut s cuts rest)
    (h : ∀ content ∈ bodies (ofChars s), content ≠ "" ∧ Tokens content.toList) :
    Retouched s ((ofChars s).flatMap source) ∧
      ofChars ((ofChars s).flatMap source) = ofChars s := by
  induction C with
  | @plain s hplain =>
    rw [ofChars_of_first?_none hplain.first?_eq_none, flatMap_source_ofRun]
    exact ⟨.same s, ofChars_of_first?_none hplain.first?_eq_none⟩
  | @span s before body after rest cuts L _ ih =>
    obtain rfl := L.spans.text
    rw [ofChars_of_leftmost L, bodies_ofRun_append] at h
    rw [ofChars_of_leftmost L]
    have ht := Text.trims_trimChars body
    obtain ⟨⟨hne, htokens⟩, h⟩ := List.forall_mem_cons.1 h
    rw [Ne, String.ofList_eq_empty_iff] at hne
    rw [String.toList_ofList] at htokens
    obtain ⟨R, hafter⟩ := ih h
    have hflat : (ofRun before ++ expression (String.ofList (Text.trimChars body)) ::
          ofChars after).flatMap source =
        before ++ (wrap (Text.trimChars body) ++ (ofChars after).flatMap source) := by
      rw [List.flatMap_append, flatMap_source_ofRun, List.flatMap_cons, source,
        String.toList_ofList]
      rfl
    rw [hflat]
    refine ⟨(Retouched.span L.spans.tokens ht htokens hne R).append before, ?_⟩
    rw [ofChars_of_leftmost (Retouched.leftmost L ht htokens hne R), Text.trimChars_trimChars,
      hafter]

section Lengths

variable {rest : List Char} {cuts : List (List Char × List Char)} {parts : List Part}

theorem Yields.length_le (Y : Yields cuts rest parts) : (parts.flatMap source).length ≤
    (cuts.flatMap (fun cut => cut.1 ++ wrap cut.2) ++ rest).length := by
  induction Y with
  | done => exact Nat.le_refl _
  | last _ => simp [source]
  | gap _ _ ih =>
    simp only [List.flatMap_cons, List.length_append, List.length_nil, source,
      String.toList_ofList] at ih ⊢
    omega
  | span ht _ ih =>
    have hle := ht.length_le
    simp only [List.flatMap_cons, List.length_append, List.length_nil, List.length_cons, source,
      wrap] at ih ⊢
    omega

/-- Parts whose template is as long as the text that they were cut from have the bodies for
contents. -/
theorem Yields.map_toList_bodies (Y : Yields cuts rest parts)
    (h : (cuts.flatMap (fun cut => cut.1 ++ wrap cut.2) ++ rest).length ≤
      (parts.flatMap source).length) : (bodies parts).map String.toList = cuts.map (·.2) := by
  induction Y with
  | done => rfl
  | last _ => rfl
  | gap _ _ ih =>
    refine ih ?_
    simp only [List.flatMap_cons, List.length_append, List.length_nil, source,
      String.toList_ofList] at h ⊢
    omega
  | span ht Y ih =>
    have hle := Y.length_le
    have hle' := ht.length_le
    simp only [List.flatMap_cons, List.length_append, List.length_nil, List.length_cons, source,
      wrap] at h hle ih
    rw [bodies, List.map_cons, List.map_cons, ih (by omega), ht.eq_of_length_le (by omega)]

end Lengths

/-- The parts of a text are cut again from their own template if and only if no body lost all of
its text to trimming, or the white space that makes a token with its last brace. -/
theorem ofText_toTemplate_ofText_iff (text : String) :
    ofText (toTemplate (ofText text)) = ofText text ↔
      ∀ content ∈ bodies (ofText text), content ≠ "" ∧ Tokens content.toList := by
  constructor
  · intro h content hcontent
    have hempty : toTemplate (ofText text) ≠ "" := by
      intro hempty
      rw [← h, hempty, ofText_empty] at hcontent
      cases hcontent
    obtain ⟨cuts, rest, C, -⟩ := exists_cut (toTemplate (ofText text)).toList
    have Y := yields_ofText hempty C
    rw [h] at Y
    have hlen : (cuts.flatMap (fun cut => cut.1 ++ wrap cut.2) ++ rest).length ≤
        ((ofText text).flatMap source).length := by
      rw [← C.text, toTemplate, String.toList_ofList]
    have hmem := List.mem_map_of_mem (f := String.toList) hcontent
    rw [Y.map_toList_bodies hlen] at hmem
    obtain ⟨htokens, hne⟩ := C.tokens_of_mem _ hmem
    exact ⟨fun hc => hne (String.toList_eq_nil_iff.2 hc), htokens⟩
  · intro h
    by_cases hempty : text = ""
    · subst hempty
      rw [ofText_empty]
      exact ofText_empty
    · obtain ⟨cuts, rest, C, -⟩ := exists_cut text.toList
      rw [ofText_of_ne_empty hempty] at h ⊢
      refine ofText_of_ofChars (fun hnil => ?_) ?_
      · exact hempty (String.toList_eq_nil_iff.1 (ofChars_eq_nil hnil))
      · rw [toTemplate, String.toList_ofList]
        exact (rebuilt_of_cut C h).2

/-- The white space in a body may stand between a brace and the closing braces. -/
theorem not_ofText_toTemplate_ofText :
    ¬ ∀ text, ofText (toTemplate (ofText text)) = ofText text := by
  intro h
  have hparts : ofText "\x7b\x7b \x7d \x7d\x7d" = [expression "\x7d"] :=
    @ofText_wrap _ " \x7d ".toList (by decide) (by decide) rfl
  have htemplate : toTemplate [expression "\x7d"] = "\x7b\x7b\x7d\x7d\x7d" := rfl
  have hliteral : ofText "\x7b\x7b\x7d\x7d\x7d" = [literal "\x7b\x7b\x7d\x7d\x7d"] :=
    ofText_of_plain (Mustache.plain_of_first? rfl)
  have hagain := h "\x7b\x7b \x7d \x7d\x7d"
  rw [hparts, htemplate, hliteral] at hagain
  cases hagain

end Part

end ReactivePage
