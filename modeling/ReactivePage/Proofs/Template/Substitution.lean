import ReactivePage.Template.Attribute
import ReactivePage.Proofs.Template.Cutting

namespace ReactivePage

open Mustache (Cut wrap)

abbrev Asked (ε σ : Type) := ExceptT ε (StateM σ)

namespace Asked

variable {ε σ α β : Type} {x : Asked ε σ α} {s s₁ : σ}

theorem run_bind_ok {a : α} (h : x.run.run s = (.ok a, s₁)) (f : α → Asked ε σ β) :
    (x >>= f).run.run s = (f a).run.run s₁ := by
  rw [ExceptT.run_bind, StateT.run_bind, h]
  rfl

theorem run_bind_error {e : ε} (h : x.run.run s = (.error e, s₁)) (f : α → Asked ε σ β) :
    (x >>= f).run.run s = (.error e, s₁) := by
  rw [ExceptT.run_bind, StateT.run_bind, h]
  rfl

theorem run_map (f : α → β) : (f <$> x).run.run s = (x.run.run s).map (Except.map f) id := by
  rw [ExceptT.run_map, StateT.run_map]
  rfl

end Asked

inductive Asks {ε σ : Type} (eval : String → Asked ε σ Json) :
    List String → σ → Except ε (List Json) → σ → Prop
  | done (s : σ) : Asks eval [] s (.ok []) s
  | value {body : String} {bodies : List String} {v : Json} {r : Except ε (List Json)}
      {s s₁ s₂ : σ} : (eval body).run.run s = (.ok v, s₁) → Asks eval bodies s₁ r s₂ →
      Asks eval (body :: bodies) s (r.map (v :: ·)) s₂
  | failure {body : String} {bodies : List String} {e : ε} {s s₁ : σ} :
      (eval body).run.run s = (.error e, s₁) → Asks eval (body :: bodies) s (.error e) s₁

namespace Asks

variable {ε σ : Type} {eval : String → Asked ε σ Json} {bodies : List String}

theorem length_eq {s s' : σ} {r : Except ε (List Json)} (h : Asks eval bodies s r s')
    {values : List Json} (hr : r = .ok values) : values.length = bodies.length := by
  induction h generalizing values with
  | done =>
    cases hr
    rfl
  | @value body bodies v r _ _ _ _ _ ih =>
    cases r with
    | error e => cases hr
    | ok rest =>
      cases hr
      exact congrArg Nat.succ (ih rfl)
  | failure => cases hr

theorem exists_mapM (eval : String → Asked ε σ Json) (bodies : List String) (s : σ) :
    ∃ r s', Asks eval bodies s r s' ∧
      (bodies.mapM fun body => Json.display <$> eval body).run.run s
        = (r.map (List.map Json.display), s') := by
  induction bodies generalizing s with
  | nil => exact ⟨_, _, .done s, rfl⟩
  | cons body bodies ih =>
    rw [List.mapM_cons]
    have hmap := Asked.run_map (x := eval body) (s := s) Json.display
    cases he : (eval body).run.run s with
    | mk result s₁ =>
      rw [he] at hmap
      cases result with
      | error e => exact ⟨_, _, .failure he, Asked.run_bind_error hmap _⟩
      | ok v =>
        obtain ⟨r, s₂, hasks, hrun⟩ := ih s₁
        refine ⟨_, _, .value he hasks, ?_⟩
        rw [Asked.run_bind_ok hmap]
        cases r with
        | error e => exact Asked.run_bind_error hrun _
        | ok values => exact Asked.run_bind_ok hrun _

end Asks

def Mustache.fill (cuts : List (List Char × List Char)) (rest : List Char) (values : List Json) :
    String :=
  String.ofList ((cuts.zip values).flatMap (fun e => e.1.1 ++ e.2.display.toList) ++ rest)

namespace Part.Yields

variable {rest : List Char} {cuts : List (List Char × List Char)} {parts : List Part}

theorem length_bodies (Y : Yields cuts rest parts) : (bodies parts).length = cuts.length := by
  induction Y with
  | done => rfl
  | last _ => rfl
  | gap _ _ ih => exact ih
  | span _ _ ih => exact congrArg Nat.succ ih

theorem render_ofParts (Y : Yields cuts rest parts) {values : List Json}
    (h : values.length = cuts.length) :
    (Format.ofParts parts).render (values.map Json.display) = Mustache.fill cuts rest values := by
  induction Y generalizing values with
  | done =>
    cases List.length_eq_zero_iff.1 h
    rfl
  | @last rest _ =>
    cases List.length_eq_zero_iff.1 h
    simp [Format.ofParts, Format.render, Format.renderTail, Mustache.fill]
  | @gap before body rest cuts parts _ _ ih =>
    cases values with
    | nil => cases h
    | cons v values =>
      have hrender := ih h
      simp only [Format.render, Mustache.fill, Format.ofParts, String.append_assoc,
        List.zip_cons_cons, List.flatMap_cons, List.append_assoc, String.ofList_append]
        at hrender ⊢
      rw [hrender]
      simp
  | @span body rest cuts content parts _ _ ih =>
    cases values with
    | nil => cases h
    | cons v values =>
      have hrender := ih (Nat.succ.inj h)
      simp only [Format.render, Mustache.fill, Format.ofParts, Format.renderTail, List.map_cons,
        List.zip_cons_cons, List.flatMap_cons, List.append_assoc, String.ofList_append]
        at hrender ⊢
      rw [hrender]
      simp

end Part.Yields

namespace Descriptor

/-- A descriptor asks for the values of as many bodies as a text has spans, in order. It gives the
text with the value of each body in place of the span of the same number, or the first failure. -/
def Fills (d : Descriptor) (text : String) (expressions : List String) : Prop :=
  ∃ cuts rest, Cut text.toList cuts rest ∧ cuts.length = expressions.length ∧
    ∀ {ε σ : Type} (eval : String → Asked ε σ Json) (s : σ),
      ∃ r s', Asks eval expressions s r s' ∧
        (d.evaluate eval).run.run s
          = (r.map fun values => .string (Mustache.fill cuts rest values), s')

theorem fills_literal {text : String} (h : Part.bodies (Part.ofText text) = []) :
    (literal text).Fills text [] := by
  have hplain : Mustache.Plain text.toList := by
    by_cases hempty : text = ""
    · subst hempty
      exact Mustache.plain_nil
    · obtain ⟨cuts, rest, C, -⟩ := Part.exists_cut text.toList
      have hlen := (Part.yields_ofText hempty C).length_bodies
      rw [h] at hlen
      cases List.length_eq_zero_iff.1 hlen.symm
      cases C with
      | plain hplain => exact hplain
  refine ⟨[], text.toList, .plain hplain, rfl, fun eval s => ⟨.ok [], s, .done s, ?_⟩⟩
  simp only [Mustache.fill, Except.map, List.zip_nil_left, List.flatMap_nil, List.nil_append,
    String.ofList_toList]
  rfl

theorem fills_interpolated {text : String} {expressions : List String} (hne : expressions ≠ [])
    (hlen : (Part.bodies (Part.ofText text)).length = expressions.length) :
    (interpolated (Format.ofParts (Part.ofText text)) expressions).Fills text expressions := by
  have hempty : text ≠ "" := by
    rintro rfl
    rw [Part.ofText_empty] at hlen
    exact hne (List.length_eq_zero_iff.1 hlen.symm)
  obtain ⟨cuts, rest, C, -⟩ := Part.exists_cut text.toList
  have Y := Part.yields_ofText hempty C
  have hcuts : cuts.length = expressions.length := Y.length_bodies.symm.trans hlen
  refine ⟨cuts, rest, C, hcuts, fun eval s => ?_⟩
  obtain ⟨r, s', hasks, hrun⟩ := Asks.exists_mapM eval expressions s
  refine ⟨r, s', hasks, ?_⟩
  rw [evaluate]
  cases r with
  | error e => exact Asked.run_bind_error hrun _
  | ok values =>
    rw [Asked.run_bind_ok hrun, Y.render_ofParts ((hasks.length_eq rfl).trans hcuts.symm)]
    rfl

def Substitutes (d : Descriptor) (text : String) : Prop :=
  ∃ cuts rest, Cut text.toList cuts rest ∧
    ∀ {ε σ : Type} (eval : String → Asked ε σ Json) (s : σ),
      ∃ r s', Asks eval (Part.bodies (Part.ofText text)) s r s' ∧
        (d.evaluate eval).run.run s
          = (r.map fun values => .string (Mustache.fill cuts rest values), s')

theorem Fills.substitutes {d : Descriptor} {text : String}
    (F : d.Fills text (Part.bodies (Part.ofText text))) : d.Substitutes text := by
  obtain ⟨cuts, rest, C, -, hrun⟩ := F
  exact ⟨cuts, rest, C, hrun⟩

theorem substitutes_literal {text : String} (h : Part.bodies (Part.ofText text) = []) :
    (literal text).Substitutes text := by
  have F := fills_literal h
  rw [← h] at F
  exact F.substitutes

theorem substitutes_interpolated {text : String} (h : Part.bodies (Part.ofText text) ≠ []) :
    (interpolated (Format.ofParts (Part.ofText text))
      (Part.bodies (Part.ofText text))).Substitutes text :=
  (fills_interpolated h rfl).substitutes

theorem ofText?_eq_none_iff {text : String} :
    ofText? text = none ↔ ∀ c ∈ text.toList, c = ' ' ∨ c = '\t' ∨ c = '\n' := by
  have hformatting : Part.isFormatting text = true ↔
      ∀ c ∈ text.toList, c = ' ' ∨ c = '\t' ∨ c = '\n' := by
    simp [Part.isFormatting, or_assoc]
  rw [← hformatting, ofText?]
  split
  · next h => exact iff_of_true rfl h
  · next h =>
    refine iff_of_false ?_ h
    simp only
    split <;> nofun

theorem substitutes_of_ofText? {text : String} {d : Descriptor} (h : ofText? text = some d) :
    d.Substitutes text := by
  simp only [ofText?] at h
  split at h
  · cases h
  · split at h
    · next hnil =>
      cases h
      exact substitutes_literal hnil
    · next hne =>
      cases h
      exact substitutes_interpolated hne

end Descriptor

namespace Part

variable {text : String}

theorem ofText_of_spans {body : List Char} (h : Mustache.Spans text.toList [] body []) :
    ∃ content, ofText text = [expression content] ∧ Text.Trims body content.toList := by
  refine ⟨_, ofText_wrap h.tokens h.nonempty (h.text.trans (List.append_nil _)), ?_⟩
  rw [String.toList_ofList]
  exact Text.trims_trimChars body

theorem spans_of_ofText {content : String} (h : ofText text = [expression content]) :
    ∃ body, Mustache.Spans text.toList [] body [] := by
  have hempty : text ≠ "" := by
    rintro rfl
    rw [ofText_empty] at h
    cases h
  obtain ⟨cuts, rest, C, -⟩ := exists_cut text.toList
  have Y := yields_ofText hempty C
  rw [h] at Y
  cases Y with
  | span _ Y =>
    cases Y
    cases C with
    | span L C =>
      cases C
      exact ⟨_, L.spans⟩

end Part

namespace Attribute

theorem compile_ofSource_of_expression (name : String) {text content : String}
    (h : Part.ofText text = [.expression content]) :
    (ofSource name (some text)).compile = .ok (.single content) := by
  rw [ofSource, h]
  rfl

theorem compile_ofSource_of_text (name : String) {text : String}
    (h : ∀ content, Part.ofText text ≠ [.expression content]) :
    ∃ d, (ofSource name (some text)).compile = .ok d ∧ d.Substitutes text := by
  have hsource : ofSource name (some text)
      = ⟨name, .text, text, Part.bodies (Part.ofText text)⟩ := by
    rw [ofSource]
    split
    · next heq => exact absurd heq (h _)
    · rfl
  rw [hsource]
  simp only [compile]
  split
  · next hnil => exact ⟨_, rfl, Descriptor.substitutes_literal hnil⟩
  · next hne =>
    rw [if_pos (Format.placeholders_ofParts _)]
    exact ⟨_, rfl, Descriptor.substitutes_interpolated hne⟩

end Attribute

/-- A text compiles unless it is formatting, and what it compiles to puts values in place of its
spans. An attribute as it stands in a template always compiles: without a value it is true and
asks nothing, a value that is one span is what its body gives, and values are put in place of the
spans of any other. -/
theorem Descriptor.substitutes_source (text : String) :
    (Descriptor.ofText? text = none ↔ ∀ c ∈ text.toList, c = ' ' ∨ c = '\t' ∨ c = '\n') ∧
    (∀ d, Descriptor.ofText? text = some d → d.Substitutes text) ∧
    ∀ name, (∃ d, (Attribute.ofSource name none).compile = .ok d ∧
        ∀ {ε σ : Type} (eval : String → Asked ε σ Json), d.evaluate eval = pure (.bool true)) ∧
      ∃ d, (Attribute.ofSource name (some text)).compile = .ok d ∧
        (∀ body, Mustache.Spans text.toList [] body [] →
          ∃ content, Text.Trims body content.toList ∧
            ∀ {ε σ : Type} (eval : String → Asked ε σ Json), d.evaluate eval = eval content) ∧
        ((∀ body, ¬ Mustache.Spans text.toList [] body []) → d.Substitutes text) := by
  refine ⟨ofText?_eq_none_iff, fun _ => substitutes_of_ofText?, fun name =>
    ⟨⟨.flag, rfl, fun _ => rfl⟩, ?_⟩⟩
  by_cases h : ∃ content, Part.ofText text = [.expression content]
  · obtain ⟨content, hcontent⟩ := h
    refine ⟨_, Attribute.compile_ofSource_of_expression name hcontent, fun body hbody => ?_,
      fun hnot => ?_⟩
    · obtain ⟨content', hcontent', ht⟩ := Part.ofText_of_spans hbody
      cases hcontent.symm.trans hcontent'
      exact ⟨content, ht, fun _ => rfl⟩
    · obtain ⟨body, hbody⟩ := Part.spans_of_ofText hcontent
      exact absurd hbody (hnot body)
  · obtain ⟨d, hcompile, hd⟩ :=
      Attribute.compile_ofSource_of_text name fun content hcontent => h ⟨content, hcontent⟩
    refine ⟨d, hcompile, fun body hbody => ?_, fun _ => hd⟩
    obtain ⟨content, hcontent, -⟩ := Part.ofText_of_spans hbody
    exact absurd ⟨content, hcontent⟩ h

end ReactivePage
