import ReactivePage.Model.Path
import Mathlib.Data.List.TakeDrop

namespace ReactivePage

theorem Digits.word?_write {n : Nat} (h : n < wordLimit) : word? (write n) = some n := by
  have hplus : dropPlus (write n) = write n := by
    cases hw : write n with
    | nil => rfl
    | cons c rest =>
      have hdigit : c.isDigit = true :=
        Nat.isDigit_of_mem_toDigits (by decide) (by decide) (hw ▸ List.mem_cons_self)
      rw [dropPlus]
      rintro _ ⟨⟩
      cases hdigit
  rw [word?, hplus, value?_write]
  simp only [if_pos h]

theorem Digits.lt_of_word?_eq_some {s : List Char} {n : Nat} (h : word? s = some n) :
    n < wordLimit := by
  rw [word?] at h
  cases hv : value? (dropPlus s) with
  | none =>
    rw [hv] at h
    cases h
  | some m =>
    rw [hv] at h
    simp only [Option.ite_none_right_eq_some, Option.some.injEq] at h
    exact h.2 ▸ h.1

theorem Text.mem_of_mem_trimChars {s : List Char} {c : Char} (h : c ∈ trimChars s) : c ∈ s := by
  obtain ⟨v, w, -, -, heq⟩ := exists_white_trimChars s
  rw [← heq]
  exact List.mem_append_left _ (List.mem_append_right _ h)

namespace Step

structure Proper (step : Step) : Prop where
  noPoint : '.' ∉ step.asKey.toList
  reads : ofHead step.asKey.toList = step

theorem proper_index {i : Nat} (h : i < Digits.wordLimit) : (index i).Proper := by
  have hkey : (index i).asKey.toList = Digits.write i := String.toList_ofList
  constructor
  · rw [hkey]
    intro hmem
    cases (Nat.isDigit_of_mem_toDigits (by decide) (by decide) hmem : '.'.isDigit = true)
  · rw [hkey, ofHead, Digits.word?_write h]

theorem proper_ofHead {head : List Char} (h : '.' ∉ head) : (ofHead head).Proper := by
  cases hw : Digits.word? head with
  | some i =>
    rw [ofHead, hw]
    exact proper_index (Digits.lt_of_word?_eq_some hw)
  | none =>
    have hof : ofHead head = key (String.ofList head) := by rw [ofHead, hw]
    have hkey : (key (String.ofList head)).asKey.toList = head := String.toList_ofList
    rw [hof]
    exact ⟨by rwa [hkey], by rw [hkey, hof]⟩

end Step

namespace Path

theorem map_eq_ok_iff {α β : Type} {f : α → β} {x : Except PathError α} {b : β} :
    f <$> x = .ok b ↔ ∃ a, x = .ok a ∧ f a = b := by
  cases x with
  | error e => simp [Functor.map, Except.map]
  | ok a => simp [Functor.map, Except.map]

theorem bind_eq_ok_iff {α β : Type} {f : α → Except PathError β} {x : Except PathError α} {b : β} :
    x >>= f = .ok b ↔ ∃ a, x = .ok a ∧ f a = .ok b := by
  cases x with
  | error e => simp [Bind.bind, Except.bind]
  | ok a => simp [Bind.bind, Except.bind]

theorem proper_groups {fuel : Nat} {s : List Char} {steps : List Step}
    (h : groups fuel s = .ok steps) : ∀ step ∈ steps, step.Proper := by
  induction fuel generalizing s steps with
  | zero =>
    cases s with
    | nil =>
      cases h
      simp
    | cons c rest => cases h
  | succ fuel ih =>
    cases s with
    | nil =>
      cases h
      simp
    | cons c rest =>
      rw [groups] at h
      split at h
      · cases h
      · split at h
        · cases h
        · next inner x after hspan =>
          cases hw : Digits.word? (Text.trimChars inner) with
          | none =>
            rw [hw] at h
            cases h
          | some i =>
            rw [hw] at h
            obtain ⟨more, hmore, rfl⟩ := map_eq_ok_iff.1 h
            rw [List.forall_mem_cons]
            exact ⟨Step.proper_index (Digits.lt_of_word?_eq_some hw), ih hmore⟩

theorem proper_segment {isFirst : Bool} {s : List Char} {steps : List Step} (hs : '.' ∉ s)
    (h : segment isFirst s = .ok steps) : ∀ step ∈ steps, step.Proper := by
  have hhead : '.' ∉ Text.trimChars (s.span (· ≠ '[')).1 := by
    intro hmem
    rw [List.span_eq_takeWhile_dropWhile] at hmem
    exact hs ((List.takeWhile_sublist _).mem (Text.mem_of_mem_trimChars hmem))
  simp only [segment] at h
  split at h
  · split at h
    · cases h
    · exact proper_groups h
  · obtain ⟨more, hmore, rfl⟩ := map_eq_ok_iff.1 h
    rw [List.forall_mem_cons]
    exact ⟨Step.proper_ofHead hhead, proper_groups hmore⟩

theorem proper_segments {isFirst : Bool} {pieces : List (List Char)} {steps : List Step}
    (hp : ∀ s ∈ pieces, '.' ∉ s) (h : segments isFirst pieces = .ok steps) :
    ∀ step ∈ steps, step.Proper := by
  induction pieces generalizing isFirst steps with
  | nil =>
    cases h
    simp
  | cons s rest ih =>
    rw [List.forall_mem_cons] at hp
    rw [segments] at h
    obtain ⟨first, hfirst, h⟩ := bind_eq_ok_iff.1 h
    obtain ⟨more, hmore, h⟩ := bind_eq_ok_iff.1 h
    cases h
    rw [List.forall_mem_append]
    exact ⟨proper_segment hp.1 hfirst, ih hp.2 hmore⟩

theorem splitPoints_ne_nil (s : List Char) : splitPoints s ≠ [] := by
  cases s with
  | nil => nofun
  | cons c rest =>
    rw [splitPoints]
    split
    · nofun
    · split <;> nofun

theorem not_mem_of_mem_splitPoints {s piece : List Char} (h : piece ∈ splitPoints s) :
    '.' ∉ piece := by
  induction s generalizing piece with
  | nil =>
    cases List.mem_singleton.1 h
    nofun
  | cons c rest ih =>
    rw [splitPoints] at h
    split at h
    · rcases List.mem_cons.1 h with rfl | h
      · nofun
      · exact ih h
    · next hc =>
      cases hr : splitPoints rest with
      | nil => exact absurd hr (splitPoints_ne_nil rest)
      | cons first more =>
        rw [hr] at h ih
        rcases List.mem_cons.1 h with rfl | h
        · rw [List.mem_cons, not_or]
          exact ⟨Ne.symm hc, ih List.mem_cons_self⟩
        · exact ih (List.mem_cons_of_mem _ h)

theorem proper_parse {text : String} {p : Path} (h : parse text = .ok p) :
    ∀ step ∈ p.steps, step.Proper := by
  rw [parse] at h
  split at h
  · cases h
  · next s _ =>
    split at h
    · cases h
    · next steps hs =>
      have hproper := proper_segments (fun _ => not_mem_of_mem_splitPoints) hs
      rw [ofSteps?] at h
      split at h
      · next path hpath =>
        split at hpath
        · cases hpath
        · cases hpath
          cases h
          exact hproper
      · cases h

theorem parse_of_read {text : String} {p : Path} (h : read text = .ok p) : parse text = .ok p := by
  rw [read] at h
  cases hp : parse text with
  | error e =>
    rw [hp] at h
    cases h
  | ok q =>
    rw [hp] at h
    cases h
    rfl

theorem read_of_parse {text : String} {p : Path} (h : parse text = .ok p) : read text = .ok p := by
  rw [read, h]
  rfl

theorem splitPoints_of_not_mem {s : List Char} (h : '.' ∉ s) : splitPoints s = [s] := by
  induction s with
  | nil => rfl
  | cons c rest ih =>
    rw [List.mem_cons, not_or] at h
    rw [splitPoints, if_neg (Ne.symm h.1), ih h.2]

theorem splitPoints_append {s : List Char} (h : '.' ∉ s) (rest : List Char) :
    splitPoints (s ++ '.' :: rest) = s :: splitPoints rest := by
  induction s with
  | nil => rw [List.nil_append, splitPoints, if_pos rfl]
  | cons c s ih =>
    rw [List.mem_cons, not_or] at h
    rw [List.cons_append, splitPoints, if_neg (Ne.symm h.1), ih h.2]

theorem splitPoints_intercalate {pieces : List (List Char)} (hne : pieces ≠ [])
    (h : ∀ s ∈ pieces, '.' ∉ s) : splitPoints (['.'].intercalate pieces) = pieces := by
  induction pieces with
  | nil => exact absurd rfl hne
  | cons s rest ih =>
    rw [List.forall_mem_cons] at h
    cases rest with
    | nil =>
      rw [List.intercalate_singleton]
      exact splitPoints_of_not_mem h.1
    | cons s' rest =>
      rw [List.intercalate_cons_cons, List.append_assoc, List.singleton_append,
        splitPoints_append h.1, ih (List.cons_ne_nil _ _) h.2]

theorem toList_display (p : Path) :
    p.display.toList = ['.'].intercalate (p.steps.map fun step => step.asKey.toList) := by
  rw [display, String.toList_intercalate, List.map_map]
  rfl

theorem splitPoints_display {p : Path} (h : ∀ step ∈ p.steps, step.Proper) :
    splitPoints p.display.toList = p.steps.map fun step => step.asKey.toList := by
  have hpieces : ∀ s ∈ p.steps.map (fun step => step.asKey.toList), '.' ∉ s := by
    intro s hs
    obtain ⟨step, hstep, rfl⟩ := List.mem_map.1 hs
    exact (h step hstep).noPoint
  have hne : p.steps.map (fun step => step.asKey.toList) ≠ [] := by
    simpa using p.steps_ne_nil
  rw [toList_display, splitPoints_intercalate hne hpieces]

theorem map_ofHead_asKey {steps : List Step} (h : ∀ step ∈ steps, step.Proper) :
    (steps.map fun step => step.asKey.toList).map Step.ofHead = steps := by
  rw [List.map_map]
  exact (List.map_congr_left fun step hstep => (h step hstep).reads).trans (List.map_id' steps)

theorem eq_of_display_eq {text text' : String} {p q : Path} (hp : read text = .ok p)
    (hq : read text' = .ok q) (h : p.display = q.display) : p = q := by
  have hproper := proper_parse (parse_of_read hp)
  have hproper' := proper_parse (parse_of_read hq)
  have hpieces : p.steps.map (fun step => step.asKey.toList)
      = q.steps.map fun step => step.asKey.toList := by
    rw [← splitPoints_display hproper, ← splitPoints_display hproper', h]
  have heq : p.steps = q.steps := by
    rw [← map_ofHead_asKey hproper, hpieces, map_ofHead_asKey hproper']
  cases p
  cases q
  cases heq
  rfl

end Path

end ReactivePage
