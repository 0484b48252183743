import ReactivePage.Proofs.Model.Nesting
import ReactivePage.Proofs.Model.Splicing
import ReactivePage.Proofs.Watch.Firing

namespace ReactivePage

def Json.size : Json → Nat
  | array items => items.length
  | object members => members.length
  | _ => 0

namespace Change

/-- How a change tells that one collection turned into another. A splice names the items that
stood there, and all around them stays; an entry is named with the value before and after. -/
inductive Turns : Json → Change → Json → Prop
  | splice (before removed added after : List Json) :
      Turns (.array (before ++ removed ++ after))
        (.splice before.length removed added.length) (.array (before ++ added ++ after))
  | put (d : Dict String Json) (key : String) (j : Json) :
      Turns (.object d.toList) (.key key (d.find? key) (some j)) (.object (d.insert key j).toList)
  | erase (d : Dict String Json) (key : String) (j : Json) : d.find? key = some j →
      Turns (.object d.toList) (.key key (some j) none) (.object (d.erase key).toList)

structure Faithful (j : Json) (change : Change) (j' : Json) : Prop where
  turns : Turns j change j'
  delta : change.lengthDelta = (j'.size : Int) - j.size
  structural : change.isStructural = true ↔ j'.size ≠ j.size

inductive Replays : Json → List Change → Json → Prop
  | nil (j : Json) : Replays j [] j
  | cons {j j' j'' : Json} {change : Change} {rest : List Change} :
      Faithful j change j' → Replays j' rest j'' → Replays j (change :: rest) j''

variable {j j' j'' : Json} {change : Change} {changes more : List Change}

theorem Replays.append (h : Replays j changes j') (h' : Replays j' more j'') :
    Replays j (changes ++ more) j'' := by
  induction h with
  | nil => exact h'
  | cons hfirst _ ih => exact .cons hfirst (ih h')

theorem Replays.sum_lengthDelta (h : Replays j changes j') :
    (changes.map lengthDelta).sum = (j'.size : Int) - j.size := by
  induction h with
  | nil => simp
  | cons hfirst _ ih =>
    rw [List.map_cons, List.sum_cons, ih, hfirst.delta]
    omega

theorem Turns.lengthDelta_eq (h : Turns j change j') (hj : j.size ≤ maxCount)
    (hj' : j'.size ≤ maxCount) : change.lengthDelta = (j'.size : Int) - j.size := by
  cases h with
  | splice before removed added after =>
    simp only [Json.size, List.length_append] at hj hj' ⊢
    rw [lengthDelta, Nat.min_eq_left (by omega), Nat.min_eq_left (by omega)]
    omega
  | put d key v =>
    simp only [Json.size]
    cases hold : d.find? key with
    | none =>
      have hsize := Dict.size_insert_of_none hold v
      simp only [Dict.size] at hsize
      rw [hsize, lengthDelta]
      omega
    | some old =>
      have hsize := Dict.size_insert_of_some hold v
      simp only [Dict.size] at hsize
      have hzero : lengthDelta (.key key (some old) (some v)) = 0 := rfl
      rw [hsize, hzero, Int.sub_self]
  | erase d key old hold =>
    have hsize := Dict.size_erase hold
    simp only [Dict.size] at hsize
    simp only [Json.size, ← hsize, lengthDelta]
    omega

theorem Turns.faithful (h : Turns j change j') (hj : j.size ≤ maxCount) (hj' : j'.size ≤ maxCount) :
    Faithful j change j' where
  turns := h
  delta := h.lengthDelta_eq hj hj'
  structural := by
    have hdelta := h.lengthDelta_eq hj hj'
    have hne : change.isStructural = true ↔ change.lengthDelta ≠ 0 := by
      cases h <;> simp [isStructural]
    rw [hne, hdelta]
    omega

end Change

def Value.json : Value → Json
  | scalar j => j
  | ref _ => .null

namespace Heap

variable {h h' : Heap} {c : Handle}

/-- A container of scalars, with no more of them than memory can hold. -/
structure HoldsScalars (h : Heap) (c : Handle) : Prop where
  scalars : ∀ v ∈ (h.contents c).values, v.handle? = none
  counted : (h.contents c).values.length ≤ Change.maxCount

instance (h : Heap) (c : Handle) : Decidable (h.HoldsScalars c) :=
  decidable_of_iff ((∀ v ∈ (h.contents c).values, v.handle? = none) ∧
    (h.contents c).values.length ≤ Change.maxCount) ⟨fun S => ⟨S.1, S.2⟩, fun S => ⟨S.1, S.2⟩⟩

theorem HoldsScalars.jsonWithin? (S : h.HoldsScalars c) {v : Value}
    (hv : v ∈ (h.contents c).values) (n : Nat) : h'.jsonWithin? n v = some v.json := by
  have hscalar := S.scalars v hv
  cases v with
  | scalar j => exact jsonWithin?_scalar h' n j
  | ref d => cases hscalar

theorem HoldsScalars.toJson_value (S : h.HoldsScalars c) {v : Value}
    (hv : v ∈ (h.contents c).values) : h'.toJson v = v.json := by
  rw [toJson, toJson?, S.jsonWithin? hv, Option.getD_some]

theorem mapM_eq_some {α β : Type} {f : α → Option β} {g : α → β} {l : List α}
    (hl : ∀ a ∈ l, f a = some (g a)) : l.mapM f = some (l.map g) := by
  induction l with
  | nil => rfl
  | cons a rest ih =>
    rw [List.forall_mem_cons] at hl
    simp [List.mapM_cons, hl.1, ih hl.2]

theorem HoldsScalars.toJson_sequence (S : h.HoldsScalars c) {items : List Value}
    (hc : h.contents c = .sequence items) : h.toJson (.ref c) = .array (items.map Value.json) := by
  have hitems : items.mapM (fun v => h.jsonWithin? h.cells.size v) = some (items.map Value.json) :=
    mapM_eq_some fun v hv => S.jsonWithin? (by rwa [hc]) _
  rw [toJson, toJson?, Heap.jsonWithin?, hc]
  simp only [hitems, Option.map_some, Option.getD_some]

def HasEntries (h : Heap) (c : Handle) (entries : Dict String Value) : Prop :=
  h.contents c = .object entries ∨ h.contents c = .map entries

theorem HasEntries.values {entries : Dict String Value} (hc : h.HasEntries c entries) :
    (h.contents c).values = entries.values := by
  rcases hc with hc | hc <;> rw [hc] <;> rfl

theorem HoldsScalars.toJson_entries (S : h.HoldsScalars c) {entries : Dict String Value}
    (hc : h.HasEntries c entries) :
    h.toJson (.ref c) = .object (entries.map Value.json).toList := by
  have hentries : entries.toList.mapM (fun e => (e.1, ·) <$> h.jsonWithin? h.cells.size e.2)
      = some (entries.toList.map fun e => (e.1, e.2.json)) := by
    refine mapM_eq_some fun e he => ?_
    rw [S.jsonWithin? (hc.values ▸ List.mem_map_of_mem he)]
    rfl
  rw [toJson, toJson?, Heap.jsonWithin?]
  rcases hc with hc | hc
  · simp only [hc, hentries, Option.map_some, Option.getD_some]
    rfl
  · simp only [hc, hentries, Option.map_some, Option.getD_some]
    rfl

theorem HoldsScalars.size (S : h.HoldsScalars c) :
    (h.toJson (.ref c)).size = (h.contents c).values.length := by
  cases hc : h.contents c with
  | sequence items =>
    rw [S.toJson_sequence hc, Json.size, List.length_map]
    rfl
  | object fields =>
    rw [S.toJson_entries (.inl hc), Json.size]
    simp [Dict.map, Contents.values, Dict.values]
  | map entries =>
    rw [S.toJson_entries (.inr hc), Json.size]
    simp [Dict.map, Contents.values, Dict.values]

theorem HoldsScalars.congr (S : h.HoldsScalars c) (hc : h'.contents c = h.contents c) :
    h'.HoldsScalars c where
  scalars := hc ▸ S.scalars
  counted := hc ▸ S.counted

theorem HoldsScalars.toJson_congr (S : h.HoldsScalars c) (hc : h'.contents c = h.contents c) :
    h'.toJson (.ref c) = h.toJson (.ref c) := by
  have S' := S.congr hc
  cases hk : h.contents c with
  | sequence items => rw [S.toJson_sequence hk, S'.toJson_sequence (hc.trans hk)]
  | object fields => rw [S.toJson_entries (.inl hk), S'.toJson_entries (.inl (hc.trans hk))]
  | map entries => rw [S.toJson_entries (.inr hk), S'.toJson_entries (.inr (hc.trans hk))]

theorem HasEntries.update {entries : Dict String Value} (hc : h.HasEntries c entries)
    (f : Dict String Value → Dict String Value) :
    (h.updateEntries c f).HasEntries c (f entries) := by
  rcases hc with hc | hc
  · left
    simp only [updateEntries, hc, contents_setContents, if_true]
  · right
    simp only [updateEntries, hc, contents_setContents, if_true]

theorem exists_hasEntries (hk : h.isKeyed c = true) :
    ∃ entries, h.HasEntries c entries ∧ ∀ key, h.valueAt? c key = entries.find? key := by
  rw [isKeyed] at hk
  cases hc : h.contents c with
  | object fields => exact ⟨fields, .inl hc, fun key => by rw [valueAt?, hc]⟩
  | map entries => exact ⟨entries, .inr hc, fun key => by rw [valueAt?, hc]⟩
  | sequence items =>
    rw [hc] at hk
    cases hk

theorem HoldsScalars.snapshot_find? (S : h.HoldsScalars c) {entries : Dict String Value}
    (hc : h.HasEntries c entries) (key : String) :
    h'.snapshot (entries.find? key) = (entries.map Value.json).find? key := by
  rw [Dict.find?_map]
  cases hv : entries.find? key with
  | none => rfl
  | some v =>
    have hm : v ∈ (h.contents c).values := hc.values ▸ Dict.mem_values_of_find? hv
    rw [snapshot, Option.map_some, Option.map_some, S.toJson_value hm]

theorem turns_put {key : String} {v : Value} {e : Event}
    (hw : h.write (.put c key v) = (h', some e)) (S : h.HoldsScalars c) (S' : h'.HoldsScalars c) :
    Change.Turns (h.toJson (.ref c)) (e.change h') (h'.toJson (.ref c)) := by
  simp only [write] at hw
  split at hw
  · next hk =>
    cases hw
    obtain ⟨entries, hc, hfind⟩ := exists_hasEntries hk
    have hc' := hc.update (·.insert key v)
    have hv : v ∈ ((h.updateEntries c (·.insert key v)).contents c).values := by
      rw [hc'.values]
      exact Dict.mem_values_of_find? (Dict.find?_insert_self _ _ _)
    rw [S.toJson_entries hc, S'.toJson_entries hc', Dict.map_insert, Event.change, hfind,
      S.snapshot_find? hc, snapshot, Option.map_some, S'.toJson_value hv]
    exact .put _ _ _
  · cases hw

theorem turns_erase {key : String} {e : Event} (hw : h.write (.erase c key) = (h', some e))
    (S : h.HoldsScalars c) (S' : h'.HoldsScalars c) :
    Change.Turns (h.toJson (.ref c)) (e.change h') (h'.toJson (.ref c)) := by
  simp only [write] at hw
  split at hw
  · next old hold =>
    cases hw
    obtain ⟨entries, hc, hfind⟩ := exists_hasEntries (isKeyed_of_valueAt? hold)
    have hc' := hc.update (·.erase key)
    rw [S.toJson_entries hc, S'.toJson_entries hc', Dict.map_erase]
    refine .erase _ _ _ ?_
    rw [← S.snapshot_find? hc, ← hfind, hold]
    rfl
  · cases hw

theorem turns_splice {index remove : Nat} {insert : List Value} {e : Event}
    (hw : h.write (.splice c index remove insert) = (h', some e))
    (S : h.HoldsScalars c) (S' : h'.HoldsScalars c) :
    Change.Turns (h.toJson (.ref c)) (e.change h') (h'.toJson (.ref c)) := by
  cases hc : h.contents c with
  | sequence items =>
    have hc' := contents_write_splice hc index remove insert c
    have he := event_write_splice hc index remove insert
    rw [hw, if_pos rfl] at hc'
    rw [hw] at he
    cases eq_of_spliceEvent?_eq_some he.symm
    have hremoved : ((items.drop index).take remove).map h'.toJson
        = ((items.drop index).take remove).map Value.json := by
      refine List.map_congr_left fun v hv => S.toJson_value ?_
      rw [hc]
      exact List.mem_of_mem_drop (List.mem_of_mem_take hv)
    have hbefore : items.map Value.json = (items.take index).map Value.json
        ++ ((items.drop index).take remove).map Value.json
        ++ (items.drop (index + remove)).map Value.json := by
      rw [← List.map_append, ← List.map_append, take_append_stretch_append_drop]
    have hafter : (spliced items index remove insert).map Value.json
        = (items.take index).map Value.json ++ insert.map Value.json
          ++ (items.drop (index + remove)).map Value.json := by
      rw [spliced, List.map_append, List.map_append]
    have hplace : min index items.length = ((items.take index).map Value.json).length := by
      rw [List.length_map, List.length_take]
    have hadded : insert.length = (insert.map Value.json).length := (List.length_map _).symm
    rw [S.toJson_sequence hc, S'.toJson_sequence hc', Event.change, hremoved, hbefore, hafter,
      hplace, hadded]
    exact .splice _ _ _ _
  | object fields => simp [write, hc] at hw
  | map entries => simp [write, hc] at hw

theorem turns_write {wr : Write} {e : Event} (hw : h.write wr = (h', some e))
    (S : h.HoldsScalars wr.target) (S' : h'.HoldsScalars wr.target) :
    Change.Turns (h.toJson (.ref wr.target)) (e.change h') (h'.toJson (.ref wr.target)) := by
  cases wr with
  | put c key v => exact turns_put hw S S'
  | erase c key => exact turns_erase hw S S'
  | splice c index remove insert => exact turns_splice hw S S'

end Heap

end ReactivePage
