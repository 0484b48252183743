import ReactivePage.Proofs.Json.Grammar
import ReactivePage.Proofs.Json.Tokens

namespace ReactivePage

namespace Json

theorem string?_chars (s rest : List Char) :
    Source.string? (s.flatMap escapeChar ++ '"' :: rest) = some (s.map itemOf, rest) := by
  induction s with
  | nil => rfl
  | cons c s ih =>
    rw [List.flatMap_cons, List.append_assoc, string?_escapeChar, ih]
    rfl

namespace Source

structure Readable (t : List Char) (tree : Source) : Prop where
  start : ∃ c rest, t = c :: rest ∧ isSpace c = false ∧ c ≠ ']'
  reads : ∀ fuel rest, 2 * t.length ≤ fuel → Stops rest →
    value? fuel (t ++ rest) = some (tree, rest)

theorem skipSpace_cons {c : Char} (h : isSpace c = false) (s : List Char) :
    skipSpace (c :: s) = c :: s := by
  simp [skipSpace, h]

theorem readable_null : Readable (chars .null) null where
  start := ⟨'n', _, rfl, rfl, by decide⟩
  reads := fun fuel rest hfuel _ => by
    cases fuel with
    | zero => simp [chars] at hfuel
    | succ fuel => exact value?_succ_iff.2 (.null rfl)

theorem readable_string (s : String) :
    Readable (chars (.string s)) (string (s.toList.map itemOf)) where
  start := ⟨'"', _, rfl, rfl, by decide⟩
  reads := fun fuel rest hfuel _ => by
    rw [chars, stringChars] at hfuel ⊢
    cases fuel with
    | zero => simp at hfuel
    | succ fuel =>
      rw [List.cons_append, List.cons_append, List.append_assoc, value?_succ_iff,
        skipSpace_cons (by rfl)]
      exact .string (string?_chars s.toList rest)

theorem chars_ofNat (n : Nat) : chars (ofNat n) = Digits.write n := by
  simp [ofNat, chars, Number.chars, Int.not_lt.2 (Int.natCast_nonneg n)]

theorem readable_ofNat (n : Nat) : Readable (chars (ofNat n)) (number (natural n)) := by
  rw [chars_ofNat]
  cases hw : Digits.write n with
  | nil => exact absurd hw (Digits.write_ne_nil n)
  | cons c digits =>
    have hc := Digits.all_isDigit_write n c (by simp [hw])
    have hspace : isSpace c = false := by
      cases h : isSpace c with
      | false => rfl
      | true =>
        simp only [isSpace, Bool.or_eq_true, decide_eq_true_eq] at h
        rcases h with ((rfl | rfl) | rfl) | rfl <;> simp at hc
    refine ⟨⟨c, digits, rfl, hspace, ?_⟩, fun fuel rest hfuel hrest => ?_⟩
    · rintro rfl
      simp at hc
    · cases fuel with
      | zero => simp at hfuel
      | succ fuel =>
        have hread := number?_write n hrest
        rw [hw, List.cons_append] at hread
        rw [List.cons_append, value?_succ_iff, skipSpace_cons hspace]
        refine .number ?_ hread
        rintro _ ⟨⟩ hm
        have hstarts : ∀ d ∈ starts, d.isDigit = false := by simp [starts]
        rw [hstarts c hm] at hc
        cases hc

theorem itemsChars_cons (j : Json) {items : List Json} (h : items ≠ []) :
    itemsChars (j :: items) = chars j ++ ',' :: itemsChars items := by
  cases items with
  | nil => exact absurd rfl h
  | cons k items => rfl

theorem exists_itemsChars_cons (j : Json) (items : List Json) :
    ∃ more, itemsChars (j :: items) = chars j ++ more := by
  cases items with
  | nil => exact ⟨_, rfl⟩
  | cons k items => exact ⟨_, rfl⟩

theorem membersChars_single (m : String × Json) : membersChars [m]
    = '"' :: (m.1.toList.flatMap escapeChar ++ '"' :: ':' :: (chars m.2 ++ ['}'])) := by
  simp [membersChars, stringChars]

theorem membersChars_cons (m : String × Json) {members : List (String × Json)}
    (h : members ≠ []) : membersChars (m :: members)
      = '"' :: (m.1.toList.flatMap escapeChar ++
          '"' :: ':' :: (chars m.2 ++ ',' :: membersChars members)) := by
  cases members with
  | nil => exact absurd rfl h
  | cons k members => simp [membersChars, stringChars]

theorem exists_membersChars_cons (m : String × Json) (members : List (String × Json)) :
    ∃ more, membersChars (m :: members) = '"' :: more := by
  cases members with
  | nil => exact ⟨_, rfl⟩
  | cons k members => exact ⟨_, rfl⟩

theorem items?_itemsChars {items : List Json} {trees : List Source}
    (h : List.Forall₂ (fun j tree => Readable (chars j) tree) items trees) (hne : items ≠ [])
    (fuel : Nat) (rest : List Char) (hfuel : 2 * (itemsChars items).length + 1 ≤ fuel) :
    items? fuel (itemsChars items ++ rest) = some (trees, rest) := by
  induction h generalizing fuel with
  | nil => exact absurd rfl hne
  | @cons j tree items trees hj htail ih =>
    cases fuel with
    | zero => simp at hfuel
    | succ fuel =>
      cases htail with
      | nil =>
        rw [itemsChars] at hfuel ⊢
        have hread := hj.reads fuel (']' :: rest) (by simp at hfuel; omega) (by simp [Stops])
        rw [List.append_assoc]
        exact items?_succ_iff.2 (.last hread (skipSpace_cons (by rfl) rest))
      | @cons k ktree items trees hk hitems =>
        have hcons : k :: items ≠ [] := List.cons_ne_nil k items
        rw [itemsChars_cons j hcons] at hfuel ⊢
        rw [List.length_append, List.length_cons] at hfuel
        have hread := hj.reads fuel (',' :: (itemsChars (k :: items) ++ rest))
          (by omega) (by simp [Stops])
        have hrest := ih hcons fuel (by omega)
        rw [List.append_assoc, List.cons_append]
        exact items?_succ_iff.2 (.more hread (skipSpace_cons (by rfl) _) hrest)

theorem readable_array {items : List Json} {trees : List Source}
    (h : List.Forall₂ (fun j tree => Readable (chars j) tree) items trees) :
    Readable (chars (.array items)) (array trees) := by
  rw [chars]
  refine ⟨⟨'[', _, rfl, rfl, by decide⟩, fun fuel rest hfuel _ => ?_⟩
  rw [List.length_cons] at hfuel
  cases fuel with
  | zero => omega
  | succ fuel =>
    rw [List.cons_append, value?_succ_iff, skipSpace_cons (by rfl)]
    cases h with
    | nil => exact .emptyArray (skipSpace_cons (by rfl) rest)
    | @cons j tree items trees hj htail =>
      obtain ⟨c, t, hstart, hspace, hc⟩ := hj.start
      have hread :=
        items?_itemsChars (.cons hj htail) (List.cons_ne_nil j items) fuel rest (by omega)
      obtain ⟨more, hmore⟩ := exists_itemsChars_cons j items
      refine .array ?_ hread
      rw [hmore, hstart, List.cons_append, List.cons_append, skipSpace_cons hspace]
      simpa using hc

def named (members : List (String × Source)) : Source :=
  object (members.map fun m => (m.1.toList.map itemOf, m.2))

abbrev ReadableMember (m : String × Json) (n : String × Source) : Prop :=
  m.1 = n.1 ∧ Readable (chars m.2) n.2

theorem members?_membersChars {members : List (String × Json)} {trees : List (String × Source)}
    (h : List.Forall₂ ReadableMember members trees) (hne : members ≠ [])
    (fuel : Nat) (rest : List Char) (hfuel : 2 * (membersChars members).length + 1 ≤ fuel) :
    members? fuel (membersChars members ++ rest)
      = some (trees.map fun m => (m.1.toList.map itemOf, m.2), rest) := by
  induction h generalizing fuel with
  | nil => exact absurd rfl hne
  | @cons m tree members trees hm htail ih =>
    cases fuel with
    | zero => simp at hfuel
    | succ fuel =>
      cases htail with
      | nil =>
        rw [membersChars_single] at hfuel ⊢
        have hread := hm.2.reads fuel ('}' :: rest) (by simp at hfuel; omega) (by simp [Stops])
        have hname := string?_chars m.1.toList (':' :: (chars m.2 ++ '}' :: rest))
        rw [List.map_cons, List.map_nil, ← hm.1]
        simp only [List.cons_append, List.append_assoc]
        exact members?_succ_iff.2 (.last (skipSpace_cons (by rfl) _) hname
          (skipSpace_cons (by rfl) _) hread (skipSpace_cons (by rfl) _))
      | @cons k ktree members trees hk hmembers =>
        have hcons : k :: members ≠ [] := List.cons_ne_nil k members
        rw [membersChars_cons m hcons] at hfuel ⊢
        have hread := hm.2.reads fuel (',' :: (membersChars (k :: members) ++ rest))
          (by simp at hfuel; omega) (by simp [Stops])
        have hname := string?_chars m.1.toList
          (':' :: (chars m.2 ++ ',' :: (membersChars (k :: members) ++ rest)))
        have hrest := ih hcons fuel (by simp at hfuel; omega)
        rw [List.map_cons, ← hm.1]
        simp only [List.cons_append, List.append_assoc]
        exact members?_succ_iff.2 (.more (skipSpace_cons (by rfl) _) hname
          (skipSpace_cons (by rfl) _) hread (skipSpace_cons (by rfl) _) hrest)

theorem readable_object {members : List (String × Json)} {trees : List (String × Source)}
    (h : List.Forall₂ ReadableMember members trees) :
    Readable (chars (.object members)) (named trees) := by
  rw [chars]
  refine ⟨⟨'{', _, rfl, rfl, by decide⟩, fun fuel rest hfuel _ => ?_⟩
  rw [List.length_cons] at hfuel
  cases fuel with
  | zero => omega
  | succ fuel =>
    rw [List.cons_append, value?_succ_iff, skipSpace_cons (by rfl)]
    cases h with
    | nil => exact .emptyObject (skipSpace_cons (by rfl) rest)
    | @cons m tree members trees hm htail =>
      have hread :=
        members?_membersChars (.cons hm htail) (List.cons_ne_nil m members) fuel rest (by omega)
      obtain ⟨u, hu⟩ := exists_membersChars_cons m members
      refine .object ?_ hread
      rw [hu, List.cons_append, skipSpace_cons (by rfl)]
      simp

theorem read?_render {j : Json} {tree : Source} (h : Readable j.chars tree) :
    read? j.render = some tree := by
  have hread := h.reads (2 * j.chars.length + 2) [] (by omega) stops_nil
  rw [List.append_nil] at hread
  simp only [read?, render, String.toList_ofList, hread, Option.bind_eq_bind, Option.bind_some]
  exact if_pos rfl

end Source

end Json

end ReactivePage
