import ReactivePage.Proofs.DictLaws
import ReactivePage.Proofs.Model.Nesting
import Mathlib.Data.List.Forall2

namespace ReactivePage

section Lists

variable {α β : Type} {R : α → β → Prop}

theorem mapM_eq_some_iff {f : α → Option β} {l : List α} {l' : List β} :
    l.mapM f = some l' ↔ List.Forall₂ (fun a b => f a = some b) l l' := by
  induction l generalizing l' with
  | nil => simp [eq_comm]
  | cons a rest ih =>
    rw [List.mapM_cons, List.forall₂_cons_left_iff]
    simp only [Option.bind_eq_bind, Option.bind_eq_some_iff, Option.pure_def, Option.some.injEq, ih]
    constructor
    · rintro ⟨b, hb, bs, hbs, rfl⟩
      exact ⟨b, bs, hb, hbs, rfl⟩
    · rintro ⟨b, bs, hb, hbs, rfl⟩
      exact ⟨b, hb, bs, hbs, rfl⟩

theorem rel_getElem? {l : List α} {l' : List β} (h : List.Forall₂ R l l') (i : Nat) :
    Option.Rel R l[i]? l'[i]? := by
  induction h generalizing i with
  | nil => exact .none
  | cons hab _ ih =>
    cases i with
    | zero => exact .some hab
    | succ i => exact ih i

theorem rel_findEntry {l : List (String × α)} {l' : List (String × β)}
    (h : List.Forall₂ (fun e e' => e.1 = e'.1 ∧ R e.2 e'.2) l l') (k : String) :
    Option.Rel R (findEntry k l) (findEntry k l') := by
  induction h with
  | nil => exact .none
  | @cons e e' _ _ hee' _ ih =>
    obtain ⟨key, a⟩ := e
    obtain ⟨_, b⟩ := e'
    obtain ⟨rfl, hab⟩ := hee'
    rw [findEntry, findEntry]
    split
    · exact .some hab
    · exact ih

theorem keySorted_congr {P : String × α → String × β → Prop} {l : List (String × α)}
    {l' : List (String × β)} (h : List.Forall₂ (fun e e' => e.1 = e'.1 ∧ P e e') l l') :
    KeySorted l ↔ KeySorted l' := by
  have hkeys : l.map Prod.fst = l'.map Prod.fst := by
    rw [← List.forall₂_eq_eq_eq, List.forall₂_map_left_iff, List.forall₂_map_right_iff]
    exact h.imp fun _ _ he => he.1
  have hmap : ∀ {γ : Type} (m : List (String × γ)),
      KeySorted m ↔ (m.map Prod.fst).Pairwise fun j k => compare j k = .lt :=
    fun m => by rw [List.pairwise_map]
  rw [hmap, hkeys, ← hmap]

theorem mapM_entries_eq_some_iff {f : α → Option β} {l : List (String × α)}
    {l' : List (String × β)} : (l.mapM fun e => (e.1, ·) <$> f e.2) = some l' ↔
      List.Forall₂ (fun e e' => e.1 = e'.1 ∧ f e.2 = some e'.2) l l' := by
  have hentry : ∀ (e : String × α) (e' : String × β),
      (e.1, ·) <$> f e.2 = some e' ↔ e.1 = e'.1 ∧ f e.2 = some e'.2 := by
    rintro ⟨k, a⟩ ⟨k', b⟩
    simp only [Option.map_eq_map, Option.map_eq_some_iff, Prod.mk.injEq]
    constructor
    · rintro ⟨_, hb, rfl, rfl⟩
      exact ⟨rfl, hb⟩
    · rintro ⟨rfl, hb⟩
      exact ⟨b, hb, rfl, rfl⟩
  simp only [mapM_eq_some_iff, hentry]

end Lists

namespace Heap

variable {h : Heap} {v u : Value}

section Mirrors

def Mirrors (h : Heap) (v u : Value) : Prop := ∃ j, h.toJson? v = some j ∧ u = .scalar j

theorem mirrors_of_jsonWithin? {n : Nat} {j : Json} (hv : h.jsonWithin? n v = some j)
    (hn : n ≤ h.cells.size + 1) : h.Mirrors v (.scalar j) :=
  ⟨j, jsonWithin?_mono hv hn, rfl⟩

theorem rel_map_scalar {n : Nat} {w : Option Value} {k : Option Json}
    (hr : Option.Rel (fun v j => h.jsonWithin? n v = some j) w k) (hn : n ≤ h.cells.size + 1) :
    Option.Rel h.Mirrors w (k.map .scalar) := by
  cases hr with
  | none => exact .none
  | some hw => exact .some (mirrors_of_jsonWithin? hw hn)

theorem rel_find? {n : Nat} {entries : Dict String Value} {members : List (String × Json)}
    (hm : (entries.toList.mapM fun e => (e.1, ·) <$> h.jsonWithin? n e.2) = some members)
    (hn : n ≤ h.cells.size + 1) (step : Step) :
    Option.Rel h.Mirrors (entries.find? step.asKey)
      (((Json.object members).child? step).map .scalar) :=
  rel_map_scalar (rel_findEntry (mapM_entries_eq_some_iff.1 hm) step.asKey) hn

theorem Mirrors.child? (M : h.Mirrors v u) (step : Step) :
    Option.Rel h.Mirrors (h.child? v step) (h.child? u step) := by
  obtain ⟨j, hj, rfl⟩ := M
  have hn : h.cells.size ≤ h.cells.size + 1 := Nat.le_succ _
  cases v with
  | scalar i =>
    cases hj
    rw [Heap.child?]
    cases j.child? step with
    | none => exact .none
    | some k => exact .some ⟨k, rfl, rfl⟩
  | ref c =>
    rw [toJson?, jsonWithin?] at hj
    simp only [Heap.child?]
    cases hc : h.contents c with
    | object fields =>
      rw [hc] at hj
      obtain ⟨members, hm, rfl⟩ := Option.map_eq_some_iff.1 hj
      exact rel_find? hm hn step
    | map entries =>
      rw [hc] at hj
      obtain ⟨members, hm, rfl⟩ := Option.map_eq_some_iff.1 hj
      exact rel_find? hm hn step
    | sequence items =>
      rw [hc] at hj
      obtain ⟨js, hm, rfl⟩ := Option.map_eq_some_iff.1 hj
      rw [Json.child?]
      cases step.position? with
      | none => exact .none
      | some i => exact rel_map_scalar (rel_getElem? (mapM_eq_some_iff.1 hm) i) hn

theorem Mirrors.resolve? (M : h.Mirrors v u) (steps : List Step) :
    Option.Rel h.Mirrors (h.resolve? v steps) (h.resolve? u steps) := by
  induction steps generalizing v u with
  | nil => exact .some M
  | cons step rest ih =>
    rw [Heap.resolve?, Heap.resolve?]
    have hstep := M.child? step
    generalize h.child? v step = w, h.child? u step = k at hstep
    cases hstep with
    | none => exact .none
    | some M' => exact ih M'

end Mirrors

section Depth

theorem exists_lt_of_holds {c d : Handle} {n : Nat}
    (hc : (h.jsonWithin? n (.ref c)).isSome = true) (hd : Relation.TransGen h.Holds c d) :
    ∃ m, m < n ∧ (h.jsonWithin? m (.ref d)).isSome = true := by
  have hstep : ∀ {c d n}, (h.jsonWithin? n (.ref c)).isSome = true → h.Holds c d →
      ∃ m, m < n ∧ (h.jsonWithin? m (.ref d)).isSome = true := by
    intro c d n hc hd
    cases n with
    | zero => cases hc
    | succ n => exact ⟨n, Nat.lt_succ_self n, isSome_jsonWithin?_ref.1 hc _ hd⟩
  induction hd with
  | single hd => exact hstep hc hd
  | tail _ hd ih =>
    obtain ⟨m, hm, hsome⟩ := ih
    obtain ⟨k, hk, hsome⟩ := hstep hsome hd
    exact ⟨k, Nat.lt_trans hk hm, hsome⟩

theorem not_holds_self {c : Handle} {n : Nat}
    (hc : (h.jsonWithin? n (.ref c)).isSome = true) : ¬ Relation.TransGen h.Holds c c := by
  intro hcycle
  induction n using Nat.strong_induction_on with
  | _ n ih =>
    obtain ⟨m, hm, hsome⟩ := exists_lt_of_holds hc hcycle
    exact ih m hm hsome

theorem acyclic_of_jsonWithin? {c : Handle} {n : Nat} {j : Json}
    (hc : h.jsonWithin? n (.ref c) = some j) : h.Acyclic c := by
  have hsome : (h.jsonWithin? n (.ref c)).isSome = true := by rw [hc, Option.isSome_some]
  intro d hd
  rcases Relation.reflTransGen_iff_eq_or_transGen.1 hd with rfl | hd
  · exact not_holds_self hsome
  · obtain ⟨m, -, hm⟩ := exists_lt_of_holds hsome hd
    exact not_holds_self hm

theorem toJson?_of_jsonWithin? {n : Nat} {j : Json} (hv : h.jsonWithin? n v = some j) :
    h.toJson? v = some j := by
  cases v with
  | scalar i =>
    rw [jsonWithin?_scalar] at hv
    exact hv
  | ref c =>
    obtain ⟨k, hk⟩ := (acyclic_of_jsonWithin? hv).exists_toJson?
    have hmax := jsonWithin?_mono hv (Nat.le_max_left n (h.cells.size + 1))
    rw [jsonWithin?_mono hk (Nat.le_max_right n (h.cells.size + 1))] at hmax
    rw [hk, hmax]

end Depth

section Layout

def AgreesFrom (start : Handle) (h g : Heap) : Prop :=
  ∀ c, start ≤ c → c < h.next → g.contents c = h.contents c

theorem AgreesFrom.of_extends {start : Handle} {h' g : Heap} (E : Extends h h')
    (hg : AgreesFrom start h' g) : AgreesFrom start h g := by
  intro c hstart hlt
  rw [hg c hstart (Nat.lt_of_lt_of_le hlt E.next), E.contents c hlt]

theorem AgreesFrom.mono {start start' : Handle} {g : Heap} (hg : AgreesFrom start h g)
    (hle : start ≤ start') : AgreesFrom start' h g :=
  fun c hstart => hg c (Nat.le_trans hle hstart)

theorem AgreesFrom.of_setContents {start : Handle} {k : Contents} {g : Heap}
    (hg : AgreesFrom start (h.setContents start k) g) : AgreesFrom (start + 1) h g := by
  intro c hstart hlt
  have hc := hg c (Nat.le_of_succ_le hstart) hlt
  rwa [contents_setContents, if_neg (Nat.ne_of_gt hstart)] at hc

theorem AgreesFrom.contents_start {start : Handle} {k : Contents} {g : Heap}
    (hg : AgreesFrom start (h.setContents start k) g) (hlt : start < h.next) :
    g.contents start = k := by
  rw [hg start (Nat.le_refl _) hlt, contents_setContents, if_pos rfl]

/-- A value has some JSON, whatever else a heap with these containers has in it. -/
def LaidOut (start : Handle) (h : Heap) (v : Value) (j : Json) : Prop :=
  ∃ n, ∀ g, AgreesFrom start h g → g.jsonWithin? n v = some j

mutual

theorem laidOut_ofJson (h : Heap) :
    (j : Json) → j.Canonical → LaidOut h.next (h.ofJson j).2 (h.ofJson j).1 j
  | .null, _ => ⟨0, fun _ _ => rfl⟩
  | .bool _, _ => ⟨0, fun _ _ => rfl⟩
  | .number _, _ => ⟨0, fun _ _ => rfl⟩
  | .string _, _ => ⟨0, fun _ _ => rfl⟩
  | .array items, hj => by
    -- What is inside is laid out behind the container that it goes into.
    obtain ⟨n, hn⟩ := laidOut_ofItems (h.create (.sequence [])).2 items hj
    have E := extends_ofItems (h.create (.sequence [])).2 items
    refine ⟨n + 1, fun g hg => ?_⟩
    simp only [ofJson] at hg ⊢
    have hc : g.contents h.next = .sequence ((h.create (.sequence [])).2.ofItems items).1 :=
      hg.contents_start E.next
    change g.jsonWithin? (n + 1) (.ref h.next) = _
    rw [jsonWithin?, hc]
    exact congrArg (Option.map Json.array) (hn g hg.of_setContents)
  | .object members, hj => by
    obtain ⟨n, hn⟩ := laidOut_ofMembers (h.create (.object ∅)).2 members hj.2
    have E := extends_ofMembers (h.create (.object ∅)).2 members
    refine ⟨n + 1, fun g hg => ?_⟩
    simp only [ofJson] at hg ⊢
    have hc : g.contents h.next
        = .object (Dict.ofList ((h.create (.object ∅)).2.ofMembers members).1) :=
      hg.contents_start E.next
    have hm := hn g hg.of_setContents
    have hs := (keySorted_congr (mapM_entries_eq_some_iff.1 hm)).2 hj.1
    change g.jsonWithin? (n + 1) (.ref h.next) = _
    rw [jsonWithin?, hc]
    simp only [Dict.toList_ofList hs]
    exact congrArg (Option.map Json.object) hm

theorem laidOut_ofItems (h : Heap) : (items : List Json) → Json.CanonicalItems items →
    ∃ n, ∀ g, AgreesFrom h.next (h.ofItems items).2 g →
      (h.ofItems items).1.mapM (g.jsonWithin? n) = some items
  | [], _ => ⟨0, fun _ _ => rfl⟩
  | j :: rest, hj => by
    obtain ⟨m, hm⟩ := laidOut_ofJson h j hj.1
    obtain ⟨n, hn⟩ := laidOut_ofItems (h.ofJson j).2 rest hj.2
    have E := extends_ofJson h j
    have F := extends_ofItems (h.ofJson j).2 rest
    refine ⟨max m n, fun g hg => ?_⟩
    simp only [ofItems] at hg ⊢
    have hfirst := jsonWithin?_mono (hm g (hg.of_extends F)) (Nat.le_max_left m n)
    have hrest := mapM_eq_some_iff.1 (hn g (hg.mono E.next))
    exact mapM_eq_some_iff.2 (.cons hfirst
      (hrest.imp fun _ _ hv => jsonWithin?_mono hv (Nat.le_max_right m n)))

theorem laidOut_ofMembers (h : Heap) :
    (members : List (String × Json)) → Json.CanonicalMembers members →
    ∃ n, ∀ g, AgreesFrom h.next (h.ofMembers members).2 g →
      ((h.ofMembers members).1.mapM fun e => (e.1, ·) <$> g.jsonWithin? n e.2) = some members
  | [], _ => ⟨0, fun _ _ => rfl⟩
  | (k, j) :: rest, hj => by
    obtain ⟨m, hm⟩ := laidOut_ofJson h j hj.1
    obtain ⟨n, hn⟩ := laidOut_ofMembers (h.ofJson j).2 rest hj.2
    have E := extends_ofJson h j
    have F := extends_ofMembers (h.ofJson j).2 rest
    refine ⟨max m n, fun g hg => ?_⟩
    simp only [ofMembers] at hg ⊢
    have hfirst := jsonWithin?_mono (hm g (hg.of_extends F)) (Nat.le_max_left m n)
    have hrest := mapM_entries_eq_some_iff.1 (hn g (hg.mono E.next))
    exact mapM_entries_eq_some_iff.2 (.cons ⟨rfl, hfirst⟩
      (hrest.imp fun _ _ hv => ⟨hv.1, jsonWithin?_mono hv.2 (Nat.le_max_right m n)⟩))

end

theorem toJson?_ofJson (h : Heap) {j : Json} (hj : j.Canonical) :
    (h.ofJson j).2.toJson? (h.ofJson j).1 = some j := by
  obtain ⟨n, hn⟩ := laidOut_ofJson h j hj
  exact toJson?_of_jsonWithin? (hn _ fun _ _ _ => rfl)

end Layout

/-- Laid out in containers or kept as it is, JSON is descended alike: the steps lead nowhere both
times, or to values with the same JSON. -/
theorem resolve?_ofJson (h : Heap) {j : Json} (hj : j.Canonical) (steps : List Step) :
    (h.ofJson j).2.toJson? (h.ofJson j).1 = some j ∧
    Option.Rel
      (fun v u => ∃ k, (h.ofJson j).2.toJson? v = some k ∧ (h.ofJson j).2.toJson? u = some k)
      ((h.ofJson j).2.resolve? (h.ofJson j).1 steps)
      ((h.ofJson j).2.resolve? (.scalar j) steps) := by
  have hjson := toJson?_ofJson h hj
  have M : (h.ofJson j).2.Mirrors (h.ofJson j).1 (.scalar j) := ⟨j, hjson, rfl⟩
  refine ⟨hjson, ?_⟩
  have hrel := M.resolve? steps
  generalize (h.ofJson j).2.resolve? (h.ofJson j).1 steps = w,
    (h.ofJson j).2.resolve? (.scalar j) steps = k at hrel
  cases hrel with
  | none => exact .none
  | some M' =>
    obtain ⟨k, hk, rfl⟩ := M'
    exact .some ⟨k, hk, rfl⟩

def nestedJson : Json :=
  .object [("7", .array [.null, .object [("a", .bool true)]]), ("b", .array [])]

def nestedSteps : List Step := [.index 7, .key "+1", .key "a"]

theorem canonical_nestedJson : nestedJson.Canonical := by
  simp only [nestedJson, Json.Canonical, Json.CanonicalMembers, Json.CanonicalItems]
  decide

theorem resolve?_ofJson_nested :
    (empty.ofJson nestedJson).2.resolve? (empty.ofJson nestedJson).1 nestedSteps
      = some (.scalar (.bool true)) ∧
    (empty.ofJson nestedJson).2.toJson? (empty.ofJson nestedJson).1 = some nestedJson ∧
    Option.Rel
      (fun v u => ∃ k, (empty.ofJson nestedJson).2.toJson? v = some k ∧
        (empty.ofJson nestedJson).2.toJson? u = some k)
      ((empty.ofJson nestedJson).2.resolve? (empty.ofJson nestedJson).1 nestedSteps)
      ((empty.ofJson nestedJson).2.resolve? (.scalar nestedJson) nestedSteps) :=
  ⟨rfl, resolve?_ofJson empty canonical_nestedJson nestedSteps⟩

end Heap

end ReactivePage
