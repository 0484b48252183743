import ReactivePage.Proofs.Model.Descent
import Mathlib.Logic.Function.Iterate

namespace ReactivePage

def Value.rename (f : Handle → Handle) : Value → Value
  | scalar j => scalar j
  | ref c => ref (f c)

def Contents.rename (f : Handle → Handle) : Contents → Contents
  | object fields => object (fields.map (Value.rename f))
  | sequence items => sequence (items.map (Value.rename f))
  | map entries => map (entries.map (Value.rename f))

theorem Contents.values_rename (f : Handle → Handle) (k : Contents) :
    (k.rename f).values = k.values.map (Value.rename f) := by
  cases k with
  | sequence items => rfl
  | object d => exact d.values_map (Value.rename f)
  | map d => exact d.values_map (Value.rename f)

theorem Contents.assemble_rename (f : Handle → Handle) (k : Contents) :
    (k.rename f).assemble = k.assemble := by
  cases k with
  | sequence items => rfl
  | object d =>
    funext js
    simp only [rename, assemble, Dict.keys_map]
  | map d =>
    funext js
    simp only [rename, assemble, Dict.keys_map]

namespace Heap

def Reaches (h : Heap) : Value → Handle → Prop
  | .scalar _, _ => False
  | .ref root, c => Relation.ReflTransGen h.Holds root c

inductive Unfolds (h : Heap) : Value → Json → Prop
  | scalar (j : Json) : Unfolds h (.scalar j) j
  | ref {c : Handle} {js : List Json} : (h.contents c).values.length = js.length →
      (∀ e ∈ (h.contents c).values.zip js, Unfolds h e.1 e.2) →
      Unfolds h (.ref c) ((h.contents c).assemble js)

variable {h h' : Heap} {v : Value} {c : Handle} {j : Json}

theorem Reaches.of_mem {w : Value} {d : Handle} (hw : w ∈ (h.contents c).values)
    (hd : h.Reaches w d) : h.Reaches (.ref c) d := by
  cases w with
  | scalar i => cases hd
  | ref e => exact Relation.ReflTransGen.head hw hd

section Ends

theorem unfolds_of_jsonWithin? {n : Nat} (hv : h.jsonWithin? n v = some j) : h.Unfolds v j := by
  -- By induction on the depth, which bounds that of the unfolding.
  induction n generalizing v j with
  | zero =>
    cases v with
    | scalar i =>
      cases hv
      exact .scalar j
    | ref c => cases hv
  | succ n ih =>
    cases v with
    | scalar i =>
      cases hv
      exact .scalar j
    | ref c =>
      rw [jsonWithin?_ref] at hv
      obtain ⟨js, hjs, rfl⟩ := Option.map_eq_some_iff.1 hv
      obtain ⟨hlen, hzip⟩ := List.forall₂_iff_zip.1 (mapM_eq_some_iff.1 hjs)
      exact .ref hlen fun e he => ih (hzip he)

theorem Unfolds.toJson?_eq (U : h.Unfolds v j) : h.toJson? v = some j := by
  induction U with
  | scalar j => rfl
  | @ref c js hlen _ ih =>
    have hvalues : (h.contents c).values.mapM (h.jsonWithin? (h.cells.size + 1)) = some js :=
      mapM_eq_some_iff.2 (List.forall₂_iff_zip.2 ⟨hlen, fun {v i} he => ih (v, i) he⟩)
    refine toJson?_of_jsonWithin? (n := h.cells.size + 2) ?_
    rw [jsonWithin?_ref, hvalues]
    rfl

theorem unfolds_iff_toJson? : h.Unfolds v j ↔ h.toJson? v = some j :=
  ⟨Unfolds.toJson?_eq, unfolds_of_jsonWithin?⟩

theorem exists_unfolds_iff :
    (∃ j, h.Unfolds v j) ↔ ∀ c, h.Reaches v c → ¬ Relation.TransGen h.Holds c c := by
  simp only [unfolds_iff_toJson?]
  cases v with
  | scalar i => exact iff_of_true ⟨i, rfl⟩ nofun
  | ref c => exact ⟨fun ⟨_, hj⟩ => acyclic_of_jsonWithin? hj, Acyclic.exists_toJson?⟩

theorem exists_holds_of_not_unfolds (hc : ∀ j, ¬ h.Unfolds (.ref c) j) :
    ∃ d, h.Holds c d ∧ ∀ j, ¬ h.Unfolds (.ref d) j := by
  by_contra hall
  push Not at hall
  have hvalues : ∀ w ∈ (h.contents c).values, (h.toJson? w).isSome = true := by
    intro w hw
    cases w with
    | scalar i => rfl
    | ref d =>
      obtain ⟨j, U⟩ := hall d hw
      rw [U.toJson?_eq, Option.isSome_some]
  obtain ⟨j, hj⟩ := Option.isSome_iff_exists.1 (isSome_jsonWithin?_ref.2 hvalues)
  exact hc j (unfolds_of_jsonWithin? hj)

theorem exists_endless (hv : ∀ j, ¬ h.Unfolds v j) :
    ∃ calls : Nat → Handle, v = .ref (calls 0) ∧ ∀ n, h.Holds (calls n) (calls (n + 1)) := by
  -- A container that does not end holds another such; they are chosen one after the other.
  cases v with
  | scalar i => exact absurd (.scalar i) (hv i)
  | ref c =>
    choose! next hheld hopen using
      fun d (hd : ∀ j, ¬ h.Unfolds (.ref d) j) => exists_holds_of_not_unfolds hd
    have hstays : ∀ n, ∀ j, ¬ h.Unfolds (.ref (next^[n] c)) j := by
      intro n
      induction n with
      | zero => exact hv
      | succ n ih =>
        rw [Function.iterate_succ_apply']
        exact hopen _ ih
    refine ⟨fun n => next^[n] c, rfl, fun n => ?_⟩
    show h.Holds (next^[n] c) (next^[n + 1] c)
    rw [Function.iterate_succ_apply']
    exact hheld _ (hstays n)

end Ends

section Renaming

variable {f : Handle → Handle}

theorem jsonWithin?_rename
    (hf : ∀ c, h.Reaches v c → h'.contents (f c) = (h.contents c).rename f) (n : Nat) :
    h'.jsonWithin? n (v.rename f) = h.jsonWithin? n v := by
  -- By induction on the depth: containers with the same contents up to handles look the same.
  induction n generalizing v with
  | zero => cases v <;> rfl
  | succ n ih =>
    cases v with
    | scalar j => rfl
    | ref c =>
      rw [Value.rename, jsonWithin?_ref, jsonWithin?_ref, hf c .refl, Contents.assemble_rename,
        Contents.values_rename, List.mapM_map]
      refine congrArg _ (mapM_congr_left fun w hw => ?_)
      exact ih fun d hd => hf d (hd.of_mem hw)

theorem toJson?_rename
    (hf : ∀ c, h.Reaches v c → h'.contents (f c) = (h.contents c).rename f) :
    h'.toJson? (v.rename f) = h.toJson? v := by
  refine Option.ext fun j => ⟨fun hj => ?_, fun hj => ?_⟩
  · rw [toJson?, jsonWithin?_rename hf] at hj
    exact toJson?_of_jsonWithin? hj
  · rw [toJson?, ← jsonWithin?_rename hf] at hj
    exact toJson?_of_jsonWithin? hj

end Renaming

/-- Taking the JSON of a value ends if and only if no container below the value holds itself. It
gives what the unfolding gives; where there is no end, each container that is unfolded holds one
that has to be unfolded before it. Another heap with the same contents below the value, under these
or other handles, gives the same. -/
theorem unfolding_ends (h : Heap) (v : Value) :
    ((∃ j, h.Unfolds v j) ↔ ∀ c, h.Reaches v c → ¬ Relation.TransGen h.Holds c c) ∧
    (∀ j, h.Unfolds v j ↔ h.toJson? v = some j) ∧
    ((∀ j, ¬ h.Unfolds v j) →
      ∃ calls : Nat → Handle, v = .ref (calls 0) ∧ ∀ n, h.Holds (calls n) (calls (n + 1))) ∧
    ∀ (h' : Heap) (f : Handle → Handle),
      (∀ c, h.Reaches v c → h'.contents (f c) = (h.contents c).rename f) →
      ∀ j, h'.Unfolds (v.rename f) j ↔ h.Unfolds v j := by
  refine ⟨exists_unfolds_iff, fun j => unfolds_iff_toJson?, exists_endless, ?_⟩
  intro h' f hf j
  rw [unfolds_iff_toJson?, unfolds_iff_toJson?, toJson?_rename hf]

end Heap

end ReactivePage
