import ReactivePage.Proofs.Template.Substitution

namespace ReactivePage

namespace Part

def spans (text : String) : Nat := (ofText text).countP isExpression

theorem length_bodies (parts : List Part) : (bodies parts).length = parts.countP isExpression := by
  induction parts with
  | nil => rfl
  | cons part rest ih =>
    cases part with
    | literal text => rw [bodies, ih, List.countP_cons_of_neg (by simp [isExpression])]
    | expression body => rw [bodies, List.length_cons, ih, List.countP_cons_of_pos rfl]

end Part

namespace Attribute

variable (name value : String) {expressions : List String}

theorem compile_text_of_nil :
    (Attribute.mk name .text value []).compile = .ok (.literal value) := rfl

theorem compile_text_of_ne_nil (hne : expressions ≠ []) :
    (Attribute.mk name .text value expressions).compile =
      if Part.spans value = expressions.length then
        .ok (.interpolated (Format.ofParts (Part.ofText value)) expressions)
      else .error (.placeholderMismatch name (Part.spans value) expressions.length) := by
  have hspans : (Format.ofParts (Part.ofText value)).placeholders = Part.spans value := by
    rw [Format.placeholders_ofParts, Part.length_bodies, Part.spans]
  simp only [compile, if_neg hne, hspans]

theorem compile_text_eq_error_iff (e : CompileError) :
    (Attribute.mk name .text value expressions).compile = .error e ↔
      e = .placeholderMismatch name (Part.spans value) expressions.length ∧
        expressions ≠ [] ∧ Part.spans value ≠ expressions.length := by
  by_cases hnil : expressions = []
  · subst hnil
    simp [compile_text_of_nil]
  · rw [compile_text_of_ne_nil name value hnil]
    by_cases hlen : Part.spans value = expressions.length
    · simp [hlen]
    · simp [hlen, hnil, eq_comm]

theorem exists_compile_text_of_length (hlen : Part.spans value = expressions.length) :
    ∃ d, (Attribute.mk name .text value expressions).compile = .ok d ∧
      d.Fills value expressions := by
  have hbodies : (Part.bodies (Part.ofText value)).length = expressions.length := by
    rw [Part.length_bodies]
    exact hlen
  by_cases hnil : expressions = []
  · subst hnil
    exact ⟨_, compile_text_of_nil name value,
      Descriptor.fills_literal (List.length_eq_zero_iff.1 hbodies)⟩
  · rw [compile_text_of_ne_nil name value hnil, if_pos hlen]
    exact ⟨_, rfl, Descriptor.fills_interpolated hnil hbodies⟩

/-- A text attribute with bodies is rejected, with both counts, when its value has another number of
spans, and never otherwise. If the counts agree it compiles to its value with the bodies' values in
place of the spans, and without bodies to its value as it stands. -/
theorem compile_text_agreement (name value : String) (expressions : List String) :
    (∀ e, (Attribute.mk name .text value expressions).compile = .error e ↔
      e = .placeholderMismatch name (Part.spans value) expressions.length ∧
        expressions ≠ [] ∧ Part.spans value ≠ expressions.length) ∧
    (Part.spans value = expressions.length →
      ∃ d, (Attribute.mk name .text value expressions).compile = .ok d ∧
        d.Fills value expressions) ∧
    (expressions = [] →
      ∃ d, (Attribute.mk name .text value expressions).compile = .ok d ∧
        ∀ {m : Type → Type} [Monad m] (eval : String → m Json),
          d.evaluate eval = pure (.string value)) := by
  refine ⟨compile_text_eq_error_iff name value, exists_compile_text_of_length name value, ?_⟩
  rintro rfl
  exact ⟨_, compile_text_of_nil name value, fun _ => rfl⟩

/-- Nobody looks for spans in the value of an attribute without bodies. -/
theorem not_compile_text_disagreement :
    ¬ ∀ name value expressions, (Attribute.mk name .text value expressions).compile =
        .error (.placeholderMismatch name (Part.spans value) expressions.length) ↔
      Part.spans value ≠ expressions.length := by
  intro h
  have htokens : Mustache.Tokens ['i', 'd'] :=
    .plain (by decide) (by decide) (.plain (by decide) (by decide) .nil)
  have hspans : Part.spans "\x7b\x7bid\x7d\x7d" = 1 := by
    rw [Part.spans, Part.ofText_wrap htokens (List.cons_ne_nil _ _) rfl]
    rfl
  have hid := (h "href" "\x7b\x7bid\x7d\x7d" []).2
  rw [hspans] at hid
  cases hid (by decide)

end Attribute

end ReactivePage
