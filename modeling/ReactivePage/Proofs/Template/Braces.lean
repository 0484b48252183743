import ReactivePage.Proofs.Template.Cutting

namespace ReactivePage

namespace Mustache

instance (s : List Char) : Decidable (Tokens s) :=
  decidable_of_iff (closing? (s ++ ['}', '}']) = some (s, []))
    ⟨tokens_of_closing?, fun h => closing?_append h []⟩

def Brace (c : Char) : Prop := c = '{' ∨ c = '}'

instance : DecidablePred Brace := fun c => inferInstanceAs (Decidable (c = '{' ∨ c = '}'))

namespace Brace

variable {c d : Char} {body : List Char}

theorem tokens_cons_iff (hc : Brace c) : Tokens (c :: d :: body) ↔ d ≠ c ∧ Tokens body := by
  constructor
  · intro h
    rcases hc with rfl | rfl
    · cases h with
      | plain hne _ _ => exact absurd rfl hne
      | opening hd h => exact ⟨hd, h⟩
    · cases h with
      | plain _ hne _ => exact absurd rfl hne
      | closing hd h => exact ⟨hd, h⟩
  · rintro ⟨hd, h⟩
    rcases hc with rfl | rfl
    · exact .opening hd h
    · exact .closing hd h

theorem not_tokens_singleton (hc : Brace c) : ¬ Tokens [c] := by
  intro h
  cases h with
  | plain hne hne' _ => exact hc.elim hne hne'

theorem not_white (hc : Brace c) : Text.isWhite c = false := by
  rcases hc with rfl | rfl <;> rfl

end Brace

inductive Stop : List Char → Prop
  | done : Stop []
  | lone {c : Char} : Brace c → Stop [c]
  | doubled {c : Char} {rest : List Char} : Brace c → Stop (c :: c :: rest)

section Reading

variable {u s : List Char}

theorem tokens_cons_iff_of_ne {c : Char} (hc : c ≠ '{') (hc' : c ≠ '}') :
    Tokens (c :: s) ↔ Tokens s := by
  constructor
  · intro h
    cases h with
    | plain _ _ h => exact h
    | opening _ _ => exact absurd rfl hc
    | closing _ _ => exact absurd rfl hc'
  · exact .plain hc hc'

theorem Tokens.append_iff (hu : Tokens u) : Tokens (u ++ s) ↔ Tokens s := by
  induction hu with
  | nil => exact Iff.rfl
  | plain hc hc' _ ih => rw [List.cons_append, tokens_cons_iff_of_ne hc hc', ih]
  | opening hd _ ih =>
    rw [List.cons_append, List.cons_append, Brace.tokens_cons_iff (.inl rfl), ih]
    exact and_iff_right hd
  | closing hd _ ih =>
    rw [List.cons_append, List.cons_append, Brace.tokens_cons_iff (.inr rfl), ih]
    exact and_iff_right hd

theorem not_brace_of_white {c : Char} (h : Text.White (c :: s)) : ¬ Brace c := fun hc => by
  have hwhite := h c List.mem_cons_self
  rw [hc.not_white] at hwhite
  cases hwhite

theorem tokens_of_white (h : Text.White s) : Tokens s := by
  induction s with
  | nil => exact .nil
  | cons c s ih =>
    obtain ⟨hc, hc'⟩ := not_or.1 (not_brace_of_white h)
    exact .plain hc hc' (ih (List.forall_mem_cons.1 h).2)

theorem exists_stop (s : List Char) : ∃ u r, Tokens u ∧ Stop r ∧ s = u ++ r := by
  induction s using closing?.induct with
  | case1 => exact ⟨[], [], .nil, .done, rfl⟩
  | case2 c =>
    by_cases hc : Brace c
    · exact ⟨[], [c], .nil, .lone hc, rfl⟩
    · obtain ⟨h, h'⟩ := not_or.1 hc
      exact ⟨[c], [], .plain h h' .nil, .done, rfl⟩
  | case3 rest => exact ⟨[], _, .nil, .doubled (.inr rfl), rfl⟩
  | case4 d rest hd ih =>
    obtain ⟨u, r, hu, hr, rfl⟩ := ih
    exact ⟨'}' :: d :: u, r, .closing hd hu, hr, rfl⟩
  | case5 rest => exact ⟨[], _, .nil, .doubled (.inl rfl), rfl⟩
  | case6 d rest hd _ ih =>
    obtain ⟨u, r, hu, hr, rfl⟩ := ih
    exact ⟨'{' :: d :: u, r, .opening hd hu, hr, rfl⟩
  | case7 c d rest hc hc' ih =>
    obtain ⟨u, r, hu, hr, heq⟩ := ih
    exact ⟨c :: u, r, .plain hc' hc hu, hr, congrArg (c :: ·) heq⟩

/-- In a sequence of tokens, a brace that ends it or stands in front of itself is the second
character of a token, whose first is the other brace. -/
theorem Tokens.behind_brace {p q : List Char} {c : Char} (h : Tokens (p ++ c :: q)) (hc : Brace c)
    (hq : ∀ e ∈ q.head?, e = c) : ∃ t d, Tokens t ∧ Brace d ∧ d ≠ c ∧ p = t ++ [d] := by
  obtain ⟨t, r, ht, hr, rfl⟩ := exists_stop p
  rw [List.append_assoc, ht.append_iff] at h
  cases hr with
  | done =>
    cases q with
    | nil => exact absurd h hc.not_tokens_singleton
    | cons e q =>
      obtain rfl := hq e rfl
      exact absurd rfl (hc.tokens_cons_iff.1 h).1
  | @lone d hd => exact ⟨t, d, ht, hd, ((hd.tokens_cons_iff.1 h).1).symm, rfl⟩
  | doubled hd => exact absurd rfl (hd.tokens_cons_iff.1 h).1

end Reading

/-- A span passes over closing braces only behind an opening brace that makes one token with the
first of them. -/
theorem Spans.passes {s before body after p q : List Char} (h : Spans s before body after)
    (hp : p.length < body.length) (heq : body ++ '}' :: '}' :: after = p ++ '}' :: '}' :: q) :
    ∃ t, Tokens t ∧ p = t ++ ['{'] := by
  obtain ⟨q', hbody, hq⟩ : ∃ q', body = p ++ '}' :: q' ∧ ∀ e ∈ q'.head?, e = '}' := by
    obtain ⟨b, rfl, hb⟩ | ⟨b, rfl, -⟩ := List.append_eq_append_iff.1 heq.symm
    · cases b with
      | nil => simp at hp
      | cons c q' =>
        obtain ⟨rfl, hq⟩ := List.cons.inj hb
        refine ⟨q', rfl, fun e he => ?_⟩
        cases q' with
        | nil => cases he
        | cons e' q' =>
          obtain rfl := Option.some.inj he
          exact (List.cons.inj hq).1.symm
    · rw [List.length_append] at hp
      omega
  obtain ⟨t, d, ht, hd, hne, rfl⟩ := (hbody ▸ h.tokens).behind_brace (.inr rfl) hq
  exact ⟨t, ht, by rw [hd.resolve_right hne]⟩

end Mustache

namespace Part

open Mustache (Brace Spans Tokens wrap)

theorem tokens_content {text content : String} (h : content ∈ bodies (ofText text)) :
    ∃ w, Text.White w ∧ Tokens (content.toList ++ w) := by
  have hempty : text ≠ "" := by
    rintro rfl
    rw [ofText_empty] at h
    cases h
  obtain ⟨cuts, rest, C, -⟩ := exists_cut text.toList
  obtain ⟨body, hbody, ht⟩ := (yields_ofText hempty C).trims_of_mem h
  obtain ⟨v, w, hv, hw, rfl⟩ := ht.margins
  have htokens := (C.tokens_of_mem _ hbody).1
  rw [List.append_assoc, (Mustache.tokens_of_white hv).append_iff] at htokens
  exact ⟨w, hw, htokens⟩

/-- In the content of an expression a doubled brace stands only behind a brace of the other kind,
which is the first character of a token, and a span passes over closing braces only behind such an
opening brace. Nothing else is asked of a body: tokens in any order are one. -/
theorem doubled_behind_brace (text : String) :
    (∀ content ∈ bodies (ofText text), ∀ c, Brace c → ∀ p q,
      content.toList = p ++ c :: c :: q →
        ∃ t d, Tokens t ∧ Brace d ∧ d ≠ c ∧ p = t ++ [d]) ∧
    (∀ before body after, Spans text.toList before body after → ∀ p q, p.length < body.length →
      body ++ '}' :: '}' :: after = p ++ '}' :: '}' :: q → ∃ t, Tokens t ∧ p = t ++ ['{']) ∧
    ∀ body, Tokens body → body ≠ [] → text.toList = wrap body →
      ofText text = [expression (String.ofList (Text.trimChars body))] := by
  refine ⟨fun content hcontent c hc p q heq => ?_, fun _ _ _ h _ _ hp => h.passes hp,
    fun _ h hne => ofText_wrap h hne⟩
  obtain ⟨w, -, htokens⟩ := tokens_content hcontent
  rw [heq, List.append_assoc, List.cons_append, List.cons_append] at htokens
  exact htokens.behind_brace hc fun e he => (Option.some.inj he).symm

/-- An object in an object: the braces that close both are doubled, and both are content. -/
theorem not_single_braces :
    ¬ ∀ text, ∀ content ∈ bodies (ofText text), ∀ c, Brace c →
      ¬ [c, c] <:+: content.toList := by
  intro h
  have hparts : ofText "\x7b\x7b f(\x7ba: \x7b\x7d\x7d) \x7d\x7d" =
      [expression "f(\x7ba: \x7b\x7d\x7d)"] :=
    @ofText_wrap _ " f(\x7ba: \x7b\x7d\x7d) ".toList (by decide) (by decide) rfl
  have hcontent := h "\x7b\x7b f(\x7ba: \x7b\x7d\x7d) \x7d\x7d"
  rw [hparts] at hcontent
  exact hcontent _ List.mem_cons_self '}' (.inr rfl) ⟨"f(\x7ba: \x7b".toList, [')'], rfl⟩

end Part

end ReactivePage
