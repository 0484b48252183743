import ReactivePage.Proofs.Json.Grammar
import ReactivePage.Proofs.Json.Reading
import ReactivePage.Proofs.Replay.Embedding

namespace ReactivePage

open ScriptBlock

namespace ScriptBlock

theorem exists_escapeClosing_cons (c : Char) (s : List Char) :
    ∃ t, escapeClosing (c :: s) = c :: t := by
  have hhead := head?_escapeClosing (c :: s)
  cases ht : escapeClosing (c :: s) with
  | nil => simp [ht] at hhead
  | cons d t =>
    obtain rfl : d = c := by simpa [ht] using hhead
    exact ⟨t, rfl⟩

theorem length_le_escapeClosing (s : List Char) : s.length ≤ (escapeClosing s).length := by
  induction s using escapeClosing.induct with
  | case1 => exact Nat.le_refl _
  | case2 c => exact Nat.le_refl _
  | case3 c d rest hmark ih =>
    obtain ⟨rfl, rfl⟩ := hmark
    rw [escapeClosing_mark]
    simp only [List.length_cons]
    omega
  | case4 c d rest hmark ih =>
    rw [escapeClosing, if_neg hmark]
    simpa using ih

def escapeRest {α : Type} (r : α × List Char) : α × List Char := (r.1, escapeClosing r.2)

theorem escapeClosing_of_stop {α : Type} {read : List Char → α × List Char} {c : Char} (a : α)
    (h : ∀ t, read (c :: t) = (a, c :: t)) (s : List Char) :
    read (escapeClosing (c :: s)) = escapeRest (read (c :: s)) := by
  obtain ⟨t, ht⟩ := exists_escapeClosing_cons c s
  rw [h, ht, h, ← ht]
  rfl

end ScriptBlock

theorem Digits.run_escapeClosing (s : List Char) : run (escapeClosing s) = escapeRest (run s) := by
  induction s with
  | nil => rfl
  | cons c s ih =>
    by_cases hc : c.isDigit = true
    · have hne : c ≠ '<' := by
        rintro rfl
        cases hc
      have hrun : ∀ t, run (c :: t) = (c :: (run t).1, (run t).2) := by
        intro t
        simp [run, List.span_eq_takeWhile_dropWhile, hc]
      rw [escapeClosing_cons_of_ne hne, hrun, hrun, ih]
      rfl
    · refine escapeClosing_of_stop [] (fun t => ?_) s
      simp [run, List.span_eq_takeWhile_dropWhile, hc]

namespace Json

namespace Source

theorem skipSpace_escapeClosing (s : List Char) :
    skipSpace (escapeClosing s) = escapeClosing (skipSpace s) := by
  induction s with
  | nil => rfl
  | cons c s ih =>
    cases hc : isSpace c with
    | true =>
      have hne : c ≠ '<' := by
        rintro rfl
        cases hc
      have hskip : ∀ t, skipSpace (c :: t) = skipSpace t := by
        intro t
        simp [skipSpace, hc]
      rw [escapeClosing_cons_of_ne hne, hskip, hskip, ih]
    | false =>
      obtain ⟨t, ht⟩ := exists_escapeClosing_cons c s
      rw [skipSpace_cons hc, ht, skipSpace_cons hc]

section Tokens

theorem dropWord?_escapeClosing {word : List Char} (h : '<' ∉ word) (s : List Char) :
    dropWord? word (escapeClosing s) = (dropWord? word s).map escapeClosing := by
  induction word generalizing s with
  | nil => rfl
  | cons c word ih =>
    rw [List.mem_cons, not_or] at h
    cases s with
    | nil => rfl
    | cons d s =>
      by_cases hd : c = d
      · subst hd
        rw [escapeClosing_cons_of_ne (Ne.symm h.1), dropWord?, dropWord?, if_pos rfl, if_pos rfl,
          ih h.2]
      · obtain ⟨t, ht⟩ := exists_escapeClosing_cons d s
        rw [ht, dropWord?, dropWord?, if_neg hd, if_neg hd]
        rfl

theorem sign_escapeClosing (s : List Char) : sign (escapeClosing s) = escapeRest (sign s) := by
  cases s with
  | nil => rfl
  | cons c s =>
    by_cases hc : c = '-'
    · subst hc
      rw [escapeClosing_cons_of_ne (by decide)]
      rfl
    · refine escapeClosing_of_stop false (fun t => ?_) s
      rw [sign]
      rintro _ ⟨⟩
      exact hc rfl

theorem exponentSign_escapeClosing (s : List Char) :
    exponentSign (escapeClosing s) = escapeRest (exponentSign s) := by
  cases s with
  | nil => rfl
  | cons c s =>
    by_cases hc : c = '+' ∨ c = '-'
    · rcases hc with rfl | rfl
      · rw [escapeClosing_cons_of_ne (by decide)]
        rfl
      · rw [escapeClosing_cons_of_ne (by decide)]
        rfl
    · rw [not_or] at hc
      refine escapeClosing_of_stop false (fun t => ?_) s
      rw [exponentSign]
      · rintro _ ⟨⟩
        exact hc.1 rfl
      · rintro _ ⟨⟩
        exact hc.2 rfl

theorem whole?_escapeClosing (s : List Char) :
    whole? (escapeClosing s) = (whole? s).map escapeRest := by
  rw [whole?, whole?, Digits.run_escapeClosing]
  rcases Digits.run s with ⟨digits, rest⟩
  rw [escapeRest]
  split
  · next heq =>
    cases heq
    rfl
  · next heq =>
    cases heq
    rfl
  · next hnil hzero =>
    split
    · next heq =>
      cases heq
      exact absurd rfl (hnil _)
    · next heq =>
      cases heq
      exact absurd rfl (hzero _ _ _)
    · rfl

theorem fraction?_escapeClosing (s : List Char) :
    fraction? (escapeClosing s) = (fraction? s).map escapeRest := by
  cases s with
  | nil => rfl
  | cons c s =>
    by_cases hc : c = '.'
    · subst hc
      rw [escapeClosing_cons_of_ne (by decide), fraction?, fraction?, Digits.run_escapeClosing]
      rcases Digits.run s with ⟨digits, rest⟩
      cases digits <;> rfl
    · have hfraction : ∀ t, fraction? (c :: t) = some ([], c :: t) := by
        intro t
        rw [fraction?]
        rintro _ ⟨⟩
        exact hc rfl
      obtain ⟨t, ht⟩ := exists_escapeClosing_cons c s
      rw [hfraction, ht, hfraction, ← ht]
      rfl

theorem exponent?_escapeClosing (s : List Char) :
    exponent? (escapeClosing s) = (exponent? s).map escapeRest := by
  cases s with
  | nil => rfl
  | cons c s =>
    by_cases hc : c = 'e' ∨ c = 'E'
    · have hne : c ≠ '<' := by
        rintro rfl
        rcases hc with h | h <;> cases h
      rw [escapeClosing_cons_of_ne hne, exponent?, exponent?, if_pos hc, if_pos hc,
        exponentSign_escapeClosing]
      rcases exponentSign s with ⟨negative, t⟩
      simp only [escapeRest, Digits.run_escapeClosing]
      rcases Digits.run t with ⟨digits, rest⟩
      cases digits <;> rfl
    · obtain ⟨t, ht⟩ := exists_escapeClosing_cons c s
      rw [ht, exponent?, exponent?, if_neg hc, if_neg hc, ← ht]
      rfl

theorem number?_escapeClosing (s : List Char) :
    number? (escapeClosing s) = (number? s).map escapeRest := by
  rw [number?, number?, sign_escapeClosing]
  rcases sign s with ⟨negative, s⟩
  simp only [escapeRest, whole?_escapeClosing]
  cases whole? s with
  | none => rfl
  | some w =>
    simp only [Option.map_some, Option.bind_eq_bind, Option.bind_some, escapeRest,
      fraction?_escapeClosing]
    cases fraction? w.2 with
    | none => rfl
    | some f =>
      simp only [Option.map_some, Option.bind_some, escapeRest, exponent?_escapeClosing]
      cases exponent? f.2 <;> rfl

end Tokens

section Strings

theorem hexNumber?_of_mem {a b c d : Char} (h : '<' ∈ [a, b, c, d]) :
    hexNumber? [a, b, c, d] = none := by
  have hmark : hexValue? '<' = none := rfl
  simp only [List.mem_cons, List.not_mem_nil, or_false] at h
  rcases h with rfl | rfl | rfl | rfl <;> simp [hexNumber?, hmark]

theorem string?_escapeClosing_cons {c : Char} (hq : c ≠ '"') (hb : c ≠ '\\')
    (hc : ¬c.toNat < 0x20) (s : List Char) :
    string? (escapeClosing (c :: s)) = (string? (escapeClosing s)).map (consItem (.char c)) := by
  by_cases hlt : c = '<'
  · subst hlt
    by_cases hhead : s.head? = some '/'
    · obtain ⟨rest, rfl⟩ := List.head?_eq_some_iff.1 hhead
      have hescape := string?_escape (e := '/') (c := '/') (by decide) rfl (escapeClosing rest)
      rw [escapeClosing_mark, string?_char hq hb hc, hescape,
        escapeClosing_cons_of_ne (by decide), string?_char (by decide) (by decide) (by decide)]
    · rw [escapeClosing_cons_of_head hhead, string?_char hq hb hc]
  · rw [escapeClosing_cons_of_ne hlt, string?_char hq hb hc]

theorem string?_escapeClosing {s : List Char} {r : List StringItem × List Char}
    (h : string? s = some r) : string? (escapeClosing s) = some (escapeRest r) := by
  induction s using string?.induct generalizing r with
  | case1 => cases h
  | case2 rest =>
    cases h
    rw [escapeClosing_cons_of_ne (by decide)]
    rfl
  | case3 a b c d rest ih =>
    cases hn : hexNumber? [a, b, c, d] with
    | none =>
      rw [string?.eq_3, hn] at h
      cases h
    | some n =>
      rw [string?_unit hn] at h
      obtain ⟨r, hr, rfl⟩ := Option.map_eq_some_iff.1 h
      have hne : '<' ∉ [a, b, c, d] := fun hm => by simp [hexNumber?_of_mem hm] at hn
      simp only [List.mem_cons, List.not_mem_nil, or_false, not_or] at hne
      obtain ⟨ha, hb, hc, hd⟩ := hne
      rw [escapeClosing_cons_of_ne (by decide), escapeClosing_cons_of_ne (by decide),
        escapeClosing_cons_of_ne (Ne.symm ha), escapeClosing_cons_of_ne (Ne.symm hb),
        escapeClosing_cons_of_ne (Ne.symm hc), escapeClosing_cons_of_ne (Ne.symm hd),
        string?_unit hn, ih hr]
      rfl
  | case4 e rest hnot ih =>
    cases hc : escape? e with
    | none =>
      rw [string?.eq_4 e rest hnot, hc] at h
      cases h
    | some c =>
      have hu : e ≠ 'u' := by
        rintro rfl
        cases hc
      have hlt : e ≠ '<' := by
        rintro rfl
        cases hc
      rw [string?_escape hu hc] at h
      obtain ⟨r, hr, rfl⟩ := Option.map_eq_some_iff.1 h
      rw [escapeClosing_cons_of_ne (by decide), escapeClosing_cons_of_ne hlt,
        string?_escape hu hc, ih hr]
      rfl
  | case5 c rest hq hu hb hbad =>
    rw [string?.eq_5 c rest hq hu hb, if_pos hbad] at h
    cases h
  | case6 c rest hq hu hb hplain ih =>
    rw [not_or] at hplain
    rw [string?_char hq hplain.2 hplain.1] at h
    obtain ⟨r, hr, rfl⟩ := Option.map_eq_some_iff.1 h
    rw [string?_escapeClosing_cons hq hplain.2 hplain.1, ih hr]
    rfl

end Strings

section Values

/-- A reader takes from an escaped text what it takes from the text. -/
def SeesThrough {α : Type} (read : List Char → Option (α × List Char)) : Prop :=
  ∀ s r, read s = some r → read (escapeClosing s) = some (escapeRest r)

variable {value : List Char → Option (Source × List Char)}
  {items : List Char → Option (List Source × List Char)}
  {members : List Char → Option (List (List StringItem × Source) × List Char)} {s : List Char}

theorem skipSpace_escapeClosing_cons {c : Char} {rest : List Char} (hc : c ≠ '<')
    (h : skipSpace s = c :: rest) : skipSpace (escapeClosing s) = c :: escapeClosing rest := by
  rw [skipSpace_escapeClosing, h, escapeClosing_cons_of_ne hc]

theorem ValueStep.escapeClosing (hitems : SeesThrough items) (hmembers : SeesThrough members)
    {r : Source × List Char} (h : ValueStep items members s r) :
    ValueStep items members (escapeClosing s) (escapeRest r) := by
  cases h with
  | string hr =>
    rw [escapeClosing_cons_of_ne (by decide)]
    exact .string (string?_escapeClosing hr)
  | emptyArray hrest =>
    rw [escapeClosing_cons_of_ne (by decide)]
    exact .emptyArray (skipSpace_escapeClosing_cons (by decide) hrest)
  | array hrest hr =>
    rw [escapeClosing_cons_of_ne (by decide)]
    refine .array ?_ (hitems _ _ hr)
    rwa [skipSpace_escapeClosing, head?_escapeClosing]
  | emptyObject hrest =>
    rw [escapeClosing_cons_of_ne (by decide)]
    exact .emptyObject (skipSpace_escapeClosing_cons (by decide) hrest)
  | object hrest hr =>
    rw [escapeClosing_cons_of_ne (by decide)]
    refine .object ?_ (hmembers _ _ hr)
    rwa [skipSpace_escapeClosing, head?_escapeClosing]
  | true hr =>
    rw [escapeClosing_cons_of_ne (by decide)]
    exact .true (by rw [dropWord?_escapeClosing (by decide), hr]; rfl)
  | false hr =>
    rw [escapeClosing_cons_of_ne (by decide)]
    exact .false (by rw [dropWord?_escapeClosing (by decide), hr]; rfl)
  | null hr =>
    rw [escapeClosing_cons_of_ne (by decide)]
    exact .null (by rw [dropWord?_escapeClosing (by decide), hr]; rfl)
  | number hstart hr =>
    refine .number ?_ (by rw [number?_escapeClosing, hr]; rfl)
    rwa [head?_escapeClosing]

theorem ItemsStep.escapeClosing (hvalue : SeesThrough value) (hitems : SeesThrough items)
    {r : List Source × List Char} (h : ItemsStep value items s r) :
    ItemsStep value items (escapeClosing s) (escapeRest r) := by
  cases h with
  | last hv ht => exact .last (hvalue _ _ hv) (skipSpace_escapeClosing_cons (by decide) ht)
  | more hv ht hr =>
    exact .more (hvalue _ _ hv) (skipSpace_escapeClosing_cons (by decide) ht) (hitems _ _ hr)

theorem MembersStep.escapeClosing (hvalue : SeesThrough value) (hmembers : SeesThrough members)
    {r : List (List StringItem × Source) × List Char} (h : MembersStep value members s r) :
    MembersStep value members (escapeClosing s) (escapeRest r) := by
  cases h with
  | last hs hname hu hv hw =>
    exact .last (skipSpace_escapeClosing_cons (by decide) hs) (string?_escapeClosing hname)
      (skipSpace_escapeClosing_cons (by decide) hu) (hvalue _ _ hv)
      (skipSpace_escapeClosing_cons (by decide) hw)
  | more hs hname hu hv hw hr =>
    exact .more (skipSpace_escapeClosing_cons (by decide) hs) (string?_escapeClosing hname)
      (skipSpace_escapeClosing_cons (by decide) hu) (hvalue _ _ hv)
      (skipSpace_escapeClosing_cons (by decide) hw) (hmembers _ _ hr)

theorem seesThrough (fuel : Nat) :
    SeesThrough (value? fuel) ∧ SeesThrough (items? fuel) ∧ SeesThrough (members? fuel) := by
  -- By induction on the fuel, for the three readers together.
  induction fuel with
  | zero => exact ⟨nofun, nofun, nofun⟩
  | succ fuel ih =>
    obtain ⟨hvalue, hitems, hmembers⟩ := ih
    refine ⟨fun s r h => ?_, fun s r h => ?_, fun s r h => ?_⟩
    · rw [value?_succ_iff] at h ⊢
      rw [skipSpace_escapeClosing]
      exact h.escapeClosing hitems hmembers
    · rw [items?_succ_iff] at h ⊢
      exact h.escapeClosing hvalue hitems
    · rw [members?_succ_iff] at h ⊢
      exact h.escapeClosing hvalue hmembers

theorem read?_escapeClosing {text : String} {tree : Source} (h : read? text = some tree) :
    read? (String.ofList (escapeClosing text.toList)) = some tree := by
  simp only [read?, Option.bind_eq_bind, Option.bind_eq_some_iff, Prod.exists] at h ⊢
  obtain ⟨found, rest, hvalue, hrest⟩ := h
  rw [String.toList_ofList]
  have hle := length_le_escapeClosing text.toList
  refine ⟨found, escapeClosing rest,
    value?_mono ((seesThrough _).1 _ _ hvalue) (by omega), ?_⟩
  rw [skipSpace_escapeClosing]
  split at hrest
  · next hnil =>
    rw [hnil]
    exact hrest
  · cases hrest

end Values

end Source

end Json

end ReactivePage
