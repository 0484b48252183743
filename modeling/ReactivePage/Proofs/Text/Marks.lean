import Mathlib.Data.List.Basic

namespace ReactivePage.Text

variable {p : Char → Bool} {u v s t : List Char} {c d : Char}

theorem length_le_of_count_le {m : Char} (h : u ++ m :: s = v ++ m :: t)
    (hcount : u.count m ≤ v.count m) : t.length ≤ s.length := by
  rcases List.append_eq_append_iff.1 h with ⟨e, rfl, hs⟩ | ⟨e, rfl, ht⟩
  · have := congrArg List.length hs
    simp only [List.length_cons, List.length_append] at this
    omega
  · cases e with
    | nil => exact Nat.le_of_eq (congrArg List.length (List.cons.inj ht).2)
    | cons c e =>
      obtain rfl := (List.cons.inj ht).1
      simp only [List.count_append, List.count_cons_self] at hcount
      omega

theorem cut_at_first (hu : ∀ x ∈ u, p x = false) (hv : ∀ x ∈ v, p x = false) (hc : p c = true)
    (hd : p d = true) (h : u ++ c :: s = v ++ d :: t) : u = v ∧ c = d ∧ s = t := by
  have htake {w r : List Char} {e : Char} (hw : ∀ x ∈ w, p x = false) (he : p e = true) :
      (w ++ e :: r).takeWhile (fun x => !p x) = w := by
    rw [List.takeWhile_append_of_pos fun x hx => by simp [hw x hx]]
    simp [he]
  have huv := congrArg (List.takeWhile fun x => !p x) h
  rw [htake hu hc, htake hv hd] at huv
  subst huv
  obtain ⟨hcd, hst⟩ := List.cons.inj (List.append_cancel_left h)
  exact ⟨rfl, hcd, hst⟩

theorem cut_at_last (hs : ∀ x ∈ s, p x = false) (ht : ∀ x ∈ t, p x = false) (hc : p c = true)
    (hd : p d = true) (h : u ++ c :: s = v ++ d :: t) : u = v ∧ c = d ∧ s = t := by
  have hreverse : s.reverse ++ c :: u.reverse = t.reverse ++ d :: v.reverse := by
    simpa using congrArg List.reverse h
  obtain ⟨hst, hcd, huv⟩ := cut_at_first (fun x hx => hs x (List.mem_reverse.1 hx))
    (fun x hx => ht x (List.mem_reverse.1 hx)) hc hd hreverse
  exact ⟨List.reverse_injective huv, hcd, List.reverse_injective hst⟩

end ReactivePage.Text
