import ReactivePage.Json.Syntax

/-!
The grammar of JSON text, one call of the reader at a time.

What a call returns is said by what the calls inside it return, so what holds of a reader is shown
by induction on its fuel, with one case for each form of text. The first consequence: a reader that
has returned something returns the same with more fuel.
-/

namespace ReactivePage

namespace Json

namespace Source

def starts : List Char := ['"', '[', '{', 't', 'f', 'n']

inductive ValueStep (items : List Char → Option (List Source × List Char))
    (members : List Char → Option (List (List StringItem × Source) × List Char)) :
    List Char → Source × List Char → Prop
  | string {rest : List Char} {r : List StringItem × List Char} :
      string? rest = some r → ValueStep items members ('"' :: rest) (string r.1, r.2)
  | emptyArray {rest after : List Char} :
      skipSpace rest = ']' :: after → ValueStep items members ('[' :: rest) (array [], after)
  | array {rest : List Char} {r : List Source × List Char} :
      (skipSpace rest).head? ≠ some ']' → items rest = some r →
        ValueStep items members ('[' :: rest) (array r.1, r.2)
  | emptyObject {rest after : List Char} :
      skipSpace rest = '}' :: after → ValueStep items members ('{' :: rest) (object [], after)
  | object {rest : List Char} {r : List (List StringItem × Source) × List Char} :
      (skipSpace rest).head? ≠ some '}' → members rest = some r →
        ValueStep items members ('{' :: rest) (object r.1, r.2)
  | true {rest after : List Char} :
      dropWord? ['r', 'u', 'e'] rest = some after →
        ValueStep items members ('t' :: rest) (bool true, after)
  | false {rest after : List Char} :
      dropWord? ['a', 'l', 's', 'e'] rest = some after →
        ValueStep items members ('f' :: rest) (bool false, after)
  | null {rest after : List Char} :
      dropWord? ['u', 'l', 'l'] rest = some after →
        ValueStep items members ('n' :: rest) (null, after)
  | number {s : List Char} {r : Numeral × List Char} :
      (∀ c ∈ s.head?, c ∉ starts) → number? s = some r →
        ValueStep items members s (number r.1, r.2)

inductive ItemsStep (value : List Char → Option (Source × List Char))
    (items : List Char → Option (List Source × List Char)) :
    List Char → List Source × List Char → Prop
  | last {s t after : List Char} {item : Source} :
      value s = some (item, t) → skipSpace t = ']' :: after →
      ItemsStep value items s ([item], after)
  | more {s t rest : List Char} {item : Source} {r : List Source × List Char} :
      value s = some (item, t) → skipSpace t = ',' :: rest → items rest = some r →
        ItemsStep value items s (item :: r.1, r.2)

inductive MembersStep (value : List Char → Option (Source × List Char))
    (members : List Char → Option (List (List StringItem × Source) × List Char)) :
    List Char → List (List StringItem × Source) × List Char → Prop
  | last {s t u v w after : List Char} {name : List StringItem} {item : Source} :
      skipSpace s = '"' :: t → string? t = some (name, u) → skipSpace u = ':' :: v →
        value v = some (item, w) → skipSpace w = '}' :: after →
        MembersStep value members s ([(name, item)], after)
  | more {s t u v w rest : List Char} {name : List StringItem} {item : Source}
      {r : List (List StringItem × Source) × List Char} :
      skipSpace s = '"' :: t → string? t = some (name, u) → skipSpace u = ':' :: v →
        value v = some (item, w) → skipSpace w = ',' :: rest → members rest = some r →
        MembersStep value members s ((name, item) :: r.1, r.2)

variable {fuel : Nat} {s : List Char}

theorem valueStep_of_value?_succ {r : Source × List Char} (h : value? (fuel + 1) s = some r) :
    ValueStep (items? fuel) (members? fuel) (skipSpace s) r := by
  rw [value?] at h
  split at h
  · next heq =>
    obtain ⟨r, hr, rfl⟩ := Option.map_eq_some_iff.1 h
    exact heq ▸ .string hr
  · next heq =>
    split at h
    · next hrest =>
      cases h
      exact heq ▸ .emptyArray hrest
    · next hrest =>
      obtain ⟨r, hr, rfl⟩ := Option.map_eq_some_iff.1 h
      exact heq ▸ .array (fun hhead => (List.head?_eq_some_iff.1 hhead).elim hrest) hr
  · next heq =>
    split at h
    · next hrest =>
      cases h
      exact heq ▸ .emptyObject hrest
    · next hrest =>
      obtain ⟨r, hr, rfl⟩ := Option.map_eq_some_iff.1 h
      exact heq ▸ .object (fun hhead => (List.head?_eq_some_iff.1 hhead).elim hrest) hr
  · next heq =>
    obtain ⟨r, hr, rfl⟩ := Option.map_eq_some_iff.1 h
    exact heq ▸ .true hr
  · next heq =>
    obtain ⟨r, hr, rfl⟩ := Option.map_eq_some_iff.1 h
    exact heq ▸ .false hr
  · next heq =>
    obtain ⟨r, hr, rfl⟩ := Option.map_eq_some_iff.1 h
    exact heq ▸ .null hr
  · next hstring harray hobject htrue hfalse hnull =>
    obtain ⟨r, hr, rfl⟩ := Option.map_eq_some_iff.1 h
    refine .number (fun c hc hm => ?_) hr
    obtain ⟨rest, hrest⟩ := List.head?_eq_some_iff.1 hc
    simp only [starts, List.mem_cons, List.not_mem_nil, or_false] at hm
    rcases hm with rfl | rfl | rfl | rfl | rfl | rfl
    · exact hstring rest hrest
    · exact harray rest hrest
    · exact hobject rest hrest
    · exact htrue rest hrest
    · exact hfalse rest hrest
    · exact hnull rest hrest

theorem ValueStep.value?_succ {r : Source × List Char}
    (h : ValueStep (items? fuel) (members? fuel) (skipSpace s) r) :
    value? (fuel + 1) s = some r := by
  rw [value?]
  generalize skipSpace s = t at h
  cases h with
  | string hr => simp only [hr, Option.map_some]
  | emptyArray hrest => simp only [hrest]
  | array hrest hr =>
    simp only
    split
    · next heq => simp [heq] at hrest
    · rw [hr, Option.map_some]
  | emptyObject hrest => simp only [hrest]
  | object hrest hr =>
    simp only
    split
    · next heq => simp [heq] at hrest
    · rw [hr, Option.map_some]
  | true hr => simp only [hr, Option.map_some]
  | false hr => simp only [hr, Option.map_some]
  | null hr => simp only [hr, Option.map_some]
  | number hstart hr =>
    -- The first character is none of those that begin another form, so six of the cases are out.
    split
    all_goals first
      | exact absurd (by decide) (hstart _ rfl)
      | skip
    rw [hr, Option.map_some]

theorem value?_succ_iff {r : Source × List Char} : value? (fuel + 1) s = some r ↔
    ValueStep (items? fuel) (members? fuel) (skipSpace s) r :=
  ⟨valueStep_of_value?_succ, ValueStep.value?_succ⟩

theorem items?_succ_iff {r : List Source × List Char} : items? (fuel + 1) s = some r ↔
    ItemsStep (value? fuel) (items? fuel) s r := by
  rw [items?]
  simp only [Option.bind_eq_bind, Option.bind_eq_some_iff, Prod.exists]
  constructor
  · rintro ⟨item, t, hv, h⟩
    split at h
    · next heq =>
      obtain ⟨r, hr, h⟩ := Option.bind_eq_some_iff.1 h
      cases h
      exact .more hv heq hr
    · next heq =>
      cases h
      exact .last hv heq
    · cases h
  · rintro (⟨hv, ht⟩ | ⟨hv, ht, hr⟩)
    · exact ⟨_, _, hv, by simp only [ht]; rfl⟩
    · exact ⟨_, _, hv, by simp only [ht, hr]; rfl⟩

theorem members?_succ_iff {r : List (List StringItem × Source) × List Char} :
    members? (fuel + 1) s = some r ↔ MembersStep (value? fuel) (members? fuel) s r := by
  rw [members?]
  constructor
  · intro h
    split at h
    · next hs =>
      obtain ⟨⟨name, u⟩, hname, h⟩ := Option.bind_eq_some_iff.1 h
      simp only at h
      split at h
      · next hu =>
        obtain ⟨⟨item, w⟩, hv, h⟩ := Option.bind_eq_some_iff.1 h
        simp only at h
        split at h
        · next hw =>
          obtain ⟨r, hr, h⟩ := Option.bind_eq_some_iff.1 h
          cases h
          exact .more hs hname hu hv hw hr
        · next hw =>
          cases h
          exact .last hs hname hu hv hw
        · cases h
      · cases h
    · cases h
  · rintro (⟨hs, hname, hu, hv, hw⟩ | ⟨hs, hname, hu, hv, hw, hr⟩)
    · simp only [hs, hname, Option.bind_eq_bind, Option.bind_some, hu, hv, hw]
      rfl
    · simp only [hs, hname, Option.bind_eq_bind, Option.bind_some, hu, hv, hw, hr]
      rfl

theorem reads_succ (fuel : Nat) :
    (∀ s r, value? fuel s = some r → value? (fuel + 1) s = some r) ∧
    (∀ s r, items? fuel s = some r → items? (fuel + 1) s = some r) ∧
    ∀ s r, members? fuel s = some r → members? (fuel + 1) s = some r := by
  -- By induction on the fuel, for the three readers together.
  induction fuel with
  | zero => exact ⟨nofun, nofun, nofun⟩
  | succ fuel ih =>
    obtain ⟨hvalue, hitems, hmembers⟩ := ih
    refine ⟨fun s r h => ?_, fun s r h => ?_, fun s r h => ?_⟩
    · rw [value?_succ_iff] at h ⊢
      generalize skipSpace s = t at h ⊢
      cases h with
      | string hr => exact .string hr
      | emptyArray hrest => exact .emptyArray hrest
      | array hrest hr => exact .array hrest (hitems _ _ hr)
      | emptyObject hrest => exact .emptyObject hrest
      | object hrest hr => exact .object hrest (hmembers _ _ hr)
      | true hr => exact .true hr
      | false hr => exact .false hr
      | null hr => exact .null hr
      | number hstart hr => exact .number hstart hr
    · rw [items?_succ_iff] at h ⊢
      cases h with
      | last hv ht => exact .last (hvalue _ _ hv) ht
      | more hv ht hr => exact .more (hvalue _ _ hv) ht (hitems _ _ hr)
    · rw [members?_succ_iff] at h ⊢
      cases h with
      | last hs hname hu hv hw => exact .last hs hname hu (hvalue _ _ hv) hw
      | more hs hname hu hv hw hr => exact .more hs hname hu (hvalue _ _ hv) hw (hmembers _ _ hr)

theorem value?_mono {m n : Nat} {r : Source × List Char} (h : value? m s = some r) (hle : m ≤ n) :
    value? n s = some r := by
  induction hle with
  | refl => exact h
  | step _ ih => exact (reads_succ _).1 s r ih

end Source

end Json

end ReactivePage
