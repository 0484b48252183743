import ReactivePage.Json.Printer
import ReactivePage.Json.Syntax
import Mathlib.Data.List.TakeDrop

namespace ReactivePage

namespace Digits

theorem all_isDigit_write (n : Nat) : ∀ c ∈ write n, c.isDigit = true :=
  fun _ h => Nat.isDigit_of_mem_toDigits (by decide) (by decide) h

theorem write_ne_nil (n : Nat) : write n ≠ [] := Nat.toDigits_ne_nil

theorem run_append {digits rest : List Char} (h : ∀ c ∈ digits, c.isDigit = true)
    (hrest : ∀ c ∈ rest.head?, c.isDigit = false) : run (digits ++ rest) = (digits, rest) := by
  induction digits with
  | nil =>
    cases rest with
    | nil => rfl
    | cons c rest => simp [run, List.span_eq_takeWhile_dropWhile, hrest c rfl]
  | cons c digits ih =>
    have hc := h c (by simp)
    have := ih fun d hd => h d (by simp [hd])
    simp only [run, List.span_eq_takeWhile_dropWhile, Prod.mk.injEq] at this ⊢
    simp [hc, this]

theorem head?_write {n : Nat} (h : n ≠ 0) : (write n).head? ≠ some '0' := by
  induction n using Nat.strongRecOn with
  | ind n ih =>
    rw [write, Nat.toDigits_eq_if (by decide)]
    split
    · next hlt =>
      have hdigit : ∀ m, m < 10 → m ≠ 0 → m.digitChar ≠ '0' := by decide
      simpa using hdigit n hlt h
    · next hle =>
      have hpos : n / 10 ≠ 0 := by omega
      have := ih (n / 10) (by omega) hpos
      rw [write] at this
      cases hw : Nat.toDigits 10 (n / 10) with
      | nil => exact absurd hw Nat.toDigits_ne_nil
      | cons c digits => simpa [hw] using this

end Digits

namespace Json

namespace Source

def Stops (rest : List Char) : Prop := ∀ c ∈ rest.head?, c = ',' ∨ c = ']' ∨ c = '}'

theorem stops_nil : Stops [] := fun _ h => nomatch h

theorem Stops.isDigit {rest : List Char} (h : Stops rest) :
    ∀ c ∈ rest.head?, c.isDigit = false := by
  intro c hc
  rcases h c hc with rfl | rfl | rfl <;> rfl

theorem Stops.fraction? {rest : List Char} (h : Stops rest) : fraction? rest = some ([], rest) := by
  cases rest with
  | nil => rfl
  | cons c rest => rcases h c rfl with rfl | rfl | rfl <;> rfl

theorem Stops.exponent? {rest : List Char} (h : Stops rest) :
    exponent? rest = some (none, rest) := by
  cases rest with
  | nil => rfl
  | cons c rest => rcases h c rfl with rfl | rfl | rfl <;> rfl

theorem whole?_write (n : Nat) {rest : List Char} (h : Stops rest) :
    whole? (Digits.write n ++ rest) = some (Digits.write n, rest) := by
  rw [whole?, Digits.run_append (Digits.all_isDigit_write n) h.isDigit]
  by_cases hn : n = 0
  · subst hn
    rfl
  · have hne := Digits.write_ne_nil n
    have hhead := Digits.head?_write hn
    cases hw : Digits.write n with
    | nil => exact absurd hw hne
    | cons c digits =>
      rw [hw] at hhead
      split
      · next heq => cases heq
      · next heq =>
        cases heq
        exact absurd rfl hhead
      · rfl

theorem sign_write (n : Nat) (rest : List Char) :
    sign (Digits.write n ++ rest) = (false, Digits.write n ++ rest) := by
  cases hw : Digits.write n with
  | nil => exact absurd hw (Digits.write_ne_nil n)
  | cons c digits =>
    have hc := Digits.all_isDigit_write n c (by simp [hw])
    simp only [List.cons_append, sign]
    split
    · next heq =>
      cases heq
      simp at hc
    · rfl

def natural (n : Nat) : Numeral := ⟨false, Digits.write n, [], none⟩

theorem number?_write (n : Nat) {rest : List Char} (h : Stops rest) :
    number? (Digits.write n ++ rest) = some (natural n, rest) := by
  simp [number?, sign_write, whole?_write n h, h.fraction?, h.exponent?, natural]

def consItem (item : StringItem) (r : List StringItem × List Char) : List StringItem × List Char :=
  (item :: r.1, r.2)

theorem string?_char {c : Char} (hq : c ≠ '"') (hb : c ≠ '\\') (hc : ¬c.toNat < 0x20)
    (s : List Char) : string? (c :: s) = (string? s).map (consItem (.char c)) := by
  rw [string?.eq_5 c s (fun h => hq h) (fun _ _ _ _ _ h => absurd h hb) fun _ _ h => absurd h hb]
  simp only [hc, hb, or_self, if_false]
  cases string? s <;> rfl

theorem string?_escape {e c : Char} (he : e ≠ 'u') (h : escape? e = some c) (s : List Char) :
    string? ('\\' :: e :: s) = (string? s).map (consItem (.char c)) := by
  rw [string?.eq_4 e s fun _ _ _ _ _ hu => absurd hu he, h]
  cases string? s <;> rfl

theorem string?_unit {a b c d : Char} {n : Nat} (h : hexNumber? [a, b, c, d] = some n)
    (s : List Char) :
    string? ('\\' :: 'u' :: a :: b :: c :: d :: s) = (string? s).map (consItem (.unit n)) := by
  rw [string?.eq_3, h]
  cases string? s <;> rfl

end Source

namespace Numeral

theorem le_ofDigitChars (n : Nat) (digits : List Char) : n ≤ Nat.ofDigitChars 10 digits n := by
  induction digits generalizing n with
  | nil => simp
  | cons c digits ih =>
    rw [Nat.ofDigitChars_cons]
    exact Nat.le_trans (by omega) (ih _)

theorem accumulate_of_le {n : Nat} {digits : List Char}
    (h : Nat.ofDigitChars 10 digits n ≤ maxInteger) :
    accumulate n digits = (Nat.ofDigitChars 10 digits n, []) := by
  induction digits generalizing n with
  | nil => simp [accumulate]
  | cons c digits ih =>
    rw [Nat.ofDigitChars_cons] at h ⊢
    have hnext := Nat.le_trans (le_ofDigitChars _ digits) h
    rw [accumulate, if_pos hnext, ih h]

theorem number?_natural {n : Nat} (h : n ≤ maxInteger) :
    (Source.natural n).number? = some (.integer n) := by
  have hvalue : Nat.ofDigitChars 10 (Digits.write n) 0 = n := Digits.value_write n
  have haccumulate : accumulate 0 (Digits.write n) = (Nat.ofDigitChars 10 (Digits.write n) 0, []) :=
    accumulate_of_le (by rwa [hvalue])
  simp [number?, Source.natural, haccumulate, hvalue]

end Numeral

/-- How a character is read back: a control character without a short escape as its unit. -/
def itemOf (c : Char) : StringItem :=
  if (escapeChar c).length = 6 then .unit c.toNat else .char c

theorem hexNumber?_hexDigit :
    ∀ n < 32, Source.hexNumber? ['0', '0', hexDigit (n / 16), hexDigit (n % 16)] = some n := by
  decide

theorem escapeChar_cases (c : Char) :
    (c ≠ '"' ∧ c ≠ '\\' ∧ ¬c.toNat < 0x20 ∧ escapeChar c = [c]) ∨
      (∃ e, escapeChar c = ['\\', e] ∧ e ≠ 'u' ∧ Source.escape? e = some c) ∨
      (c.toNat < 0x20 ∧
        escapeChar c
          = ['\\', 'u', '0', '0', hexDigit (c.toNat / 16), hexDigit (c.toNat % 16)]) := by
  have hofNat (n : Nat) (h : c.toNat = n) : c = Char.ofNat n := by
    rw [← h, Char.ofNat_toNat]
  unfold escapeChar
  split
  · next h => exact .inr (.inl ⟨'"', rfl, by decide, by subst h; rfl⟩)
  split
  · next h => exact .inr (.inl ⟨'\\', rfl, by decide, by subst h; rfl⟩)
  split
  · split
    · next h => exact .inr (.inl ⟨'b', rfl, by decide, by rw [hofNat _ h]; rfl⟩)
    split
    · next h => exact .inr (.inl ⟨'f', rfl, by decide, by rw [hofNat _ h]; rfl⟩)
    split
    · next h => exact .inr (.inl ⟨'n', rfl, by decide, by subst h; rfl⟩)
    split
    · next h => exact .inr (.inl ⟨'r', rfl, by decide, by subst h; rfl⟩)
    split
    · next h => exact .inr (.inl ⟨'t', rfl, by decide, by subst h; rfl⟩)
    · next h _ _ _ _ _ => exact .inr (.inr ⟨h, rfl⟩)
  · next hq hb hc => exact .inl ⟨hq, hb, hc, rfl⟩

theorem string?_escapeChar (c : Char) (s : List Char) :
    Source.string? (escapeChar c ++ s) = (Source.string? s).map (Source.consItem (itemOf c)) := by
  rcases escapeChar_cases c with ⟨hq, hb, hc, h⟩ | ⟨e, h, he, hesc⟩ | ⟨hc, h⟩
  · rw [itemOf, h]
    exact Source.string?_char hq hb hc s
  · rw [itemOf, h]
    exact Source.string?_escape he hesc s
  · rw [itemOf, h]
    exact Source.string?_unit (hexNumber?_hexDigit c.toNat hc) s

theorem decodeString?_unit {n : Nat} (h : n < 0xD800) (items : List StringItem) :
    decodeString? (.unit n :: items) = (decodeString? items).map (Char.ofNat n :: ·) := by
  cases items with
  | nil => simp [decodeString?, h]
  | cons item items =>
    cases item with
    | char c => simp [decodeString?, h]
    | unit low => rw [decodeString?.eq_3, if_pos (.inl h)]

theorem decodeString?_itemOf (c : Char) (items : List StringItem) :
    decodeString? (itemOf c :: items) = (decodeString? items).map (c :: ·) := by
  rcases escapeChar_cases c with ⟨hq, hb, hc, h⟩ | ⟨e, h, he, hesc⟩ | ⟨hc, h⟩
  · simp [itemOf, h, decodeString?]
  · simp [itemOf, h, decodeString?]
  · rw [itemOf, h]
    exact (decodeString?_unit (by omega) items).trans (by rw [Char.ofNat_toNat])

theorem decodeString?_map_itemOf (s : List Char) : decodeString? (s.map itemOf) = some s := by
  induction s with
  | nil => rfl
  | cons c s ih => rw [List.map_cons, decodeString?_itemOf, ih, Option.map_some]

end Json

end ReactivePage
