import ReactivePage.Text.CaseFold
import ReactivePage.Text.WordChar

namespace ReactivePage.Text

def FoldRun.StaysOut (r : FoldRun) : Prop :=
  (0x80 ≤ r.first + r.shift ∧
      (r.last + r.shift < 0xD800 ∨ 0xDFFF < r.first + r.shift ∧ r.last + r.shift < 0x110000)) ∨
    r.first = r.last ∧ (r.first + r.shift = 0x73 ∨ r.first + r.shift = 0x6B)

instance (r : FoldRun) : Decidable r.StaysOut := by
  unfold FoldRun.StaysOut
  infer_instance

theorem lowFoldRuns_stayOut : ∀ r ∈ lowFoldRuns, r.StaysOut := by decide +kernel

theorem highFoldRuns_stayOut : ∀ r ∈ highFoldRuns, r.StaysOut := by decide +kernel

theorem FoldRun.StaysOut.folded {r : FoldRun} (h : r.StaysOut) {n : Nat} (hn : r.covers n = true) :
    0x80 ≤ (Char.ofNat (n + r.shift).toNat).toNat ∨ Char.ofNat (n + r.shift).toNat = 's' ∨
      Char.ofNat (n + r.shift).toNat = 'k' := by
  simp only [covers, Bool.and_eq_true, decide_eq_true_eq] at hn
  rcases h with ⟨hlow, hvalid⟩ | ⟨hone, hs | hk⟩
  · left
    have hchar : (n + r.shift).toNat.isValidChar := by
      simp only [Nat.isValidChar]
      omega
    have hcode : (Char.ofNat (n + r.shift).toNat).toNat = (n + r.shift).toNat := by
      rw [Char.ofNat, dif_pos hchar]
      rfl
    omega
  · right; left
    have : (n + r.shift).toNat = 0x73 := by omega
    rw [this]
  · right; right
    have : (n + r.shift).toNat = 0x6B := by omega
    rw [this]

section Ascii

variable {c d : Char}

theorem of_ascii {p : Char → Prop} (h : ∀ n < 0x80, p (Char.ofNat n)) (hc : c.toNat < 0x80) :
    p c := by
  simpa using h c.toNat hc

theorem foldCase_of_ascii (h : c.toNat < 0x80) : foldCase c = c.toLower :=
  of_ascii (p := fun c => foldCase c = c.toLower) (by decide +kernel) h

theorem foldCase_of_not_ascii (h : ¬c.toNat < 0x80) :
    0x80 ≤ (foldCase c).toNat ∨ foldCase c = 's' ∨ foldCase c = 'k' := by
  have hfound {runs : List FoldRun} {r : FoldRun} (hall : ∀ r ∈ runs, r.StaysOut)
      (hr : runs.find? (fun r : FoldRun => r.covers c.toNat) = some r) :=
    (hall r (List.mem_of_find?_eq_some hr)).folded
      (List.find?_some (p := fun r : FoldRun => r.covers c.toNat) hr)
  rw [foldCase, if_neg h]
  split
  · next r hr =>
    rcases Option.or_eq_some_iff.1 hr with hlow | ⟨-, hhigh⟩
    · exact hfound lowFoldRuns_stayOut hlow
    · exact hfound highFoldRuns_stayOut hhigh
  · exact .inl (Nat.le_of_not_lt h)

theorem toLower_of_foldCase (h : foldCase c = d) (hd : d.toNat < 0x80) (hs : d ≠ 's')
    (hk : d ≠ 'k') : c.toNat < 0x80 ∧ c.toLower = d := by
  subst h
  by_cases hc : c.toNat < 0x80
  · exact ⟨hc, (foldCase_of_ascii hc).symm⟩
  · rcases foldCase_of_not_ascii hc with hout | hs' | hk'
    · omega
    · exact absurd hs' hs
    · exact absurd hk' hk

theorem foldCase_eq_iff (hd : d.toNat < 0x80) (hmark : d.isAlpha = false) :
    foldCase c = d ↔ c = d := by
  constructor
  · intro h
    obtain ⟨hc, hlower⟩ := toLower_of_foldCase h hd (by rintro rfl; cases hmark)
      (by rintro rfl; cases hmark)
    have hsame := of_ascii (p := fun c => c.toLower.isAlpha = false → c.toLower = c)
      (by decide +kernel) hc
    rw [hlower] at hsame
    exact (hsame hmark).symm
  · rintro rfl
    exact of_ascii (p := fun c => c.isAlpha = false → foldCase c = c) (by decide +kernel) hd hmark

theorem mem_map_foldCase (hd : d.toNat < 0x80) (hmark : d.isAlpha = false) {s : List Char} :
    d ∈ s.map foldCase ↔ d ∈ s := by
  simp [foldCase_eq_iff hd hmark]

theorem mem_iff_of_map_foldCase_eq (hd : d.toNat < 0x80) (hmark : d.isAlpha = false)
    {s t : List Char} (h : s.map foldCase = t.map foldCase) : d ∈ s ↔ d ∈ t := by
  rw [← mem_map_foldCase hd hmark, h, mem_map_foldCase hd hmark]

theorem isWordChar_of_foldCase (h : foldCase c = d) (hd : d.toNat < 0x80)
    (hletter : d.isAlpha = true) (hs : d ≠ 's') (hk : d ≠ 'k') : isWordChar c = true := by
  obtain ⟨hc, rfl⟩ := toLower_of_foldCase h hd hs hk
  exact of_ascii (p := fun c => c.toLower.isAlpha = true → isWordChar c = true)
    (by decide +kernel) hc hletter

end Ascii

end ReactivePage.Text
