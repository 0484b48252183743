import Mathlib.Data.List.Induction

namespace ReactivePage.Trace

variable {α : Type} {kind other : α → Bool} {l tail : List α} {x : α}

theorem split_concat {before after : List α} {y : α} (h : l ++ [x] = before ++ y :: after) :
    (after = [] ∧ x = y ∧ l = before) ∨
      ∃ rest, after = rest ++ [x] ∧ l = before ++ y :: rest := by
  rcases List.eq_nil_or_concat after with rfl | ⟨rest, z, rfl⟩
  · obtain ⟨rfl, heq⟩ := List.append_inj' h rfl
    cases heq
    exact .inl ⟨rfl, rfl, rfl⟩
  · rw [List.concat_eq_append, ← List.cons_append, ← List.append_assoc] at h
    obtain ⟨rfl, heq⟩ := List.append_inj' h rfl
    cases heq
    exact .inr ⟨rest, List.concat_eq_append, rfl⟩

/-- There was something of a kind, and nothing of the other kind since. -/
def Recent (kind other : α → Bool) (l : List α) : Prop :=
  ∃ before y after, l = before ++ y :: after ∧ kind y = true ∧ ∀ z ∈ after, other z = false

@[simp] theorem not_recent_nil : ¬ Recent kind other [] := by
  rintro ⟨before, y, after, h, -⟩
  simp at h

@[simp] theorem recent_concat :
    Recent kind other (l ++ [x]) ↔ kind x = true ∨ other x = false ∧ Recent kind other l := by
  constructor
  · rintro ⟨before, y, after, h, hy, hafter⟩
    rcases split_concat h with ⟨-, rfl, -⟩ | ⟨rest, rfl, rfl⟩
    · exact .inl hy
    · rw [List.forall_mem_append, List.forall_mem_singleton] at hafter
      exact .inr ⟨hafter.2, before, y, rest, rfl, hy, hafter.1⟩
  · rintro (hx | ⟨hx, before, y, after, rfl, hy, hafter⟩)
    · exact ⟨l, x, [], rfl, hx, by simp⟩
    · refine ⟨before, y, after ++ [x], by simp, hy, ?_⟩
      rw [List.forall_mem_append, List.forall_mem_singleton]
      exact ⟨hafter, hx⟩

theorem recent_append (h : ∀ z ∈ tail, kind z = false ∧ other z = false) :
    Recent kind other (l ++ tail) ↔ Recent kind other l := by
  induction tail using List.reverseRecOn with
  | nil => rw [List.append_nil]
  | append_singleton tail z ih =>
    rw [List.forall_mem_append, List.forall_mem_singleton] at h
    rw [← List.append_assoc, recent_concat, ih h.1]
    simp [h.2.1, h.2.2]

theorem recent_of_mem (hx : x ∈ l) (hkind : kind x = true) : Recent kind kind l := by
  induction l using List.reverseRecOn with
  | nil => cases hx
  | append_singleton l z ih =>
    rw [recent_concat]
    cases hz : kind z with
    | true => exact .inl rfl
    | false =>
      rw [List.mem_append, List.mem_singleton] at hx
      rcases hx with hx | rfl
      · exact .inr ⟨rfl, ih hx⟩
      · cases hz.symm.trans hkind

end ReactivePage.Trace
