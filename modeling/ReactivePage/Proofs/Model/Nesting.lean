import ReactivePage.Proofs.Model.Closed
import Mathlib.Logic.Relation
import Mathlib.Data.List.Chain
import Mathlib.Data.List.Perm.Subperm

/-!
Heaps without cycles.

Containers hold containers. Where none below a container holds itself, directly or through
others, they nest no deeper than there are containers, so what is there has JSON; the containers
along a path are all different; and what a container holds looks the same before and after a write
to it.
-/

namespace ReactivePage

section MapM

variable {α β : Type} {f g : α → Option β} {l : List α}

theorem mapM_congr_left (h : ∀ a ∈ l, f a = g a) : l.mapM f = l.mapM g := by
  induction l with
  | nil => rfl
  | cons a rest ih =>
    rw [List.forall_mem_cons] at h
    rw [List.mapM_cons, List.mapM_cons, h.1, ih h.2]

theorem isSome_mapM : (l.mapM f).isSome = true ↔ ∀ a ∈ l, (f a).isSome = true := by
  induction l with
  | nil => simp
  | cons a rest ih =>
    rw [List.forall_mem_cons, ← ih, List.mapM_cons]
    cases f a with
    | none => simp
    | some b => cases rest.mapM f <;> simp

theorem mapM_entries_eq_map (f : α → Option β) (l : List (String × α)) :
    (l.mapM fun e => (e.1, ·) <$> f e.2)
      = ((l.map Prod.snd).mapM f).map ((l.map Prod.fst).zip ·) := by
  induction l with
  | nil => rfl
  | cons e rest ih =>
    rw [List.mapM_cons, ih, List.map_cons, List.map_cons, List.mapM_cons]
    cases f e.2 with
    | none => rfl
    | some b => cases (rest.map Prod.snd).mapM f <;> rfl

end MapM

def Contents.assemble : Contents → List Json → Json
  | object fields, js => .object (fields.keys.zip js)
  | sequence _, js => .array js
  | map entries, js => .object (entries.keys.zip js)

namespace Heap

def Holds (h : Heap) (c d : Handle) : Prop := .ref d ∈ (h.contents c).values

/-- Neither a container nor any below it holds itself, directly or through others. -/
def Acyclic (h : Heap) (root : Handle) : Prop :=
  ∀ c, Relation.ReflTransGen h.Holds root c → ¬ Relation.TransGen h.Holds c c

variable {h h' : Heap}

theorem Acyclic.below {c d : Handle} (A : h.Acyclic c) (hd : Relation.ReflTransGen h.Holds c d) :
    h.Acyclic d :=
  fun e he => A e (hd.trans he)

theorem acyclic_of_within (hw : ∀ e ∈ h.cells.toList, ∀ v ∈ e.2.values, v.Within e.1)
    (root : Handle) : h.Acyclic root := by
  have hlt : ∀ c d, h.Holds c d → d < c := by
    intro c d hd
    rw [Holds, contents] at hd
    cases hc : h.cells.find? c with
    | none =>
      rw [hc] at hd
      cases hd
    | some k =>
      rw [hc] at hd
      exact hw (c, k) (Dict.mem_toList.2 hc) _ hd
  have hbelow : ∀ c d, Relation.TransGen h.Holds c d → d < c := by
    intro c d hcd
    induction hcd with
    | single hd => exact hlt _ _ hd
    | tail _ hd ih => exact Nat.lt_trans (hlt _ _ hd) ih
  exact fun c _ hc => Nat.lt_irrefl c (hbelow c c hc)

section Chains

variable {l : List Handle} {c : Handle}

theorem pairwise_of_isChain (hl : l.IsChain h.Holds) : l.Pairwise (Relation.TransGen h.Holds) :=
  List.isChain_iff_pairwise.1 (hl.imp fun _ _ => .single)

theorem reaches_of_isChain (hl : (c :: l).IsChain h.Holds) :
    ∀ d ∈ c :: l, Relation.ReflTransGen h.Holds c d := by
  have hbelow := (List.pairwise_cons.1 (pairwise_of_isChain hl)).1
  rw [List.forall_mem_cons]
  exact ⟨.refl, fun d hd => (hbelow d hd).to_reflTransGen⟩

theorem Acyclic.nodup (A : h.Acyclic c) (hl : (c :: l).IsChain h.Holds) : (c :: l).Nodup := by
  refine (pairwise_of_isChain hl).imp_of_mem fun {a b} ha _ hab heq => ?_
  subst heq
  exact A a (reaches_of_isChain hl a ha) hab

theorem mem_keys_of_isChain (hl : l.IsChain h.Holds) : ∀ c ∈ l.dropLast, c ∈ h.cells.keys := by
  -- All but the last of a chain hold something, so they are containers of the heap.
  induction l with
  | nil => simp
  | cons c rest ih =>
    cases rest with
    | nil => simp
    | cons d rest =>
      rw [List.isChain_cons_cons] at hl
      rw [List.dropLast_cons_cons, List.forall_mem_cons]
      refine ⟨?_, ih hl.2⟩
      have hd := hl.1
      rw [Holds, contents] at hd
      cases hc : h.cells.find? c with
      | none =>
        rw [hc] at hd
        cases hd
      | some k => exact Dict.mem_keys.2 ⟨k, hc⟩

theorem Acyclic.length_le (A : h.Acyclic c) (hl : (c :: l).IsChain h.Holds) :
    l.length ≤ h.cells.size := by
  have hdrop : (c :: l).dropLast.length ≤ h.cells.keys.length :=
    ((A.nodup hl).sublist (List.dropLast_sublist _)).length_le_of_subset (mem_keys_of_isChain hl)
  rwa [List.length_dropLast, List.length_cons, Nat.add_sub_cancel, Dict.keys,
    List.length_map] at hdrop

end Chains

section Paths

theorem resolve?_scalar_eq_some {j : Json} {steps : List Step} {v : Value}
    (hv : h.resolve? (.scalar j) steps = some v) : ∃ i, v = .scalar i := by
  induction steps generalizing j with
  | nil =>
    cases hv
    exact ⟨j, rfl⟩
  | cons step rest ih =>
    obtain ⟨w, hw, hv⟩ := Option.bind_eq_some_iff.1 hv
    obtain ⟨i, -, rfl⟩ := Option.map_eq_some_iff.1 hw
    exact ih hv

theorem chainFrom_eq_cons (h : Heap) (c : Handle) (steps : List Step) :
    ∃ rest, h.chainFrom c steps = c :: rest := by
  cases steps with
  | nil => exact ⟨_, rfl⟩
  | cons step rest =>
    cases rest with
    | nil => exact ⟨_, rfl⟩
    | cons next rest =>
      rw [chainFrom]
      split <;> exact ⟨_, rfl⟩

theorem isChain_chainFrom (h : Heap) (c : Handle) (steps : List Step) :
    (h.chainFrom c steps).IsChain h.Holds := by
  -- By induction on the steps: each container of a path holds the next one.
  induction steps generalizing c with
  | nil => exact .singleton c
  | cons step rest ih =>
    cases rest with
    | nil => exact .singleton c
    | cons next rest =>
      rw [chainFrom]
      split
      · next d hd =>
        obtain ⟨tail, htail⟩ := h.chainFrom_eq_cons d (next :: rest)
        have hchain := ih d
        rw [htail] at hchain ⊢
        exact .cons_cons (child?_mem hd) hchain
      · exact .singleton c

theorem isChain_resolve? {c d : Handle} {steps : List Step} (hne : steps ≠ [])
    (hd : h.resolve? (.ref c) steps = some (.ref d)) :
    (h.chainFrom c steps ++ [d]).IsChain h.Holds := by
  induction steps generalizing c with
  | nil => exact absurd rfl hne
  | cons step rest ih =>
    obtain ⟨v, hv, hd⟩ := Option.bind_eq_some_iff.1 hd
    cases rest with
    | nil =>
      cases hd
      exact .cons_cons (child?_mem hv) (.singleton d)
    | cons next rest =>
      cases v with
      | scalar j =>
        obtain ⟨i, hi⟩ := resolve?_scalar_eq_some hd
        cases hi
      | ref e =>
        have hchain := ih (List.cons_ne_nil next rest) hd
        obtain ⟨tail, htail⟩ := h.chainFrom_eq_cons e (next :: rest)
        simp only [chainFrom, hv]
        rw [htail] at hchain ⊢
        exact .cons_cons (child?_mem hv) hchain

variable {root : Handle} {path : Path}

theorem exists_chain_eq (h : Heap) (root : Handle) (path : Path) :
    ∃ tail, h.chain root path = root :: tail ∧ (root :: tail).IsChain h.Holds := by
  obtain ⟨tail, htail⟩ := h.chainFrom_eq_cons root path.steps
  exact ⟨tail, htail, htail ▸ h.isChain_chainFrom root path.steps⟩

theorem reaches_of_mem_chain {c : Handle} (hc : c ∈ h.chain root path) :
    Relation.ReflTransGen h.Holds root c := by
  obtain ⟨tail, htail, hchain⟩ := h.exists_chain_eq root path
  rw [htail] at hc
  exact reaches_of_isChain hchain c hc

theorem Acyclic.nodup_chain (A : h.Acyclic root) (path : Path) : (h.chain root path).Nodup := by
  obtain ⟨tail, htail, hchain⟩ := h.exists_chain_eq root path
  rw [htail]
  exact A.nodup hchain

theorem holds_of_lookup? {c d : Handle} (hd : h.lookup? root path = some (.ref d))
    (hc : c ∈ h.chain root path) : Relation.TransGen h.Holds c d := by
  have hpairs := pairwise_of_isChain (isChain_resolve? path.steps_ne_nil hd)
  exact (List.pairwise_append.1 hpairs).2.2 c hc d (List.mem_singleton_self d)

theorem reaches_of_lookup? {d : Handle} (hd : h.lookup? root path = some (.ref d)) :
    Relation.ReflTransGen h.Holds root d := by
  obtain ⟨tail, htail, -⟩ := h.exists_chain_eq root path
  have hroot : root ∈ h.chain root path := by
    rw [htail]
    exact List.mem_cons_self
  exact (holds_of_lookup? hd hroot).to_reflTransGen

theorem Acyclic.not_mem_chain (A : h.Acyclic root) {d : Handle}
    (hd : h.lookup? root path = some (.ref d)) : d ∉ h.chain root path :=
  fun hm => A d (reaches_of_lookup? hd) (holds_of_lookup? hd hm)

end Paths

section Snapshots

theorem jsonWithin?_scalar (h : Heap) (n : Nat) (j : Json) :
    h.jsonWithin? n (.scalar j) = some j := by
  cases n <;> rfl

theorem jsonWithin?_ref (h : Heap) (n : Nat) (c : Handle) :
    h.jsonWithin? (n + 1) (.ref c)
      = ((h.contents c).values.mapM (h.jsonWithin? n)).map (h.contents c).assemble := by
  have hentries : ∀ d : Dict String Value,
      (d.toList.mapM fun e => (e.1, ·) <$> h.jsonWithin? n e.2).map Json.object
        = (d.values.mapM (h.jsonWithin? n)).map fun js => .object (d.keys.zip js) := by
    intro d
    rw [mapM_entries_eq_map, Option.map_map]
    rfl
  rw [jsonWithin?]
  cases h.contents c with
  | object fields => exact hentries fields
  | map entries => exact hentries entries
  | sequence items => rfl

theorem jsonWithin?_congr {c : Handle} {m n : Nat} (hc : h'.contents c = h.contents c)
    (hv : ∀ v ∈ (h.contents c).values, h'.jsonWithin? m v = h.jsonWithin? n v) :
    h'.jsonWithin? (m + 1) (.ref c) = h.jsonWithin? (n + 1) (.ref c) := by
  rw [jsonWithin?_ref, jsonWithin?_ref, hc, mapM_congr_left hv]

theorem isSome_jsonWithin?_ref {c : Handle} {n : Nat} :
    (h.jsonWithin? (n + 1) (.ref c)).isSome = true ↔
      ∀ v ∈ (h.contents c).values, (h.jsonWithin? n v).isSome = true := by
  rw [jsonWithin?_ref, Option.isSome_map, isSome_mapM]

theorem jsonWithin?_succ {v : Value} {n : Nat} (hv : (h.jsonWithin? n v).isSome = true) :
    h.jsonWithin? (n + 1) v = h.jsonWithin? n v := by
  induction n generalizing v with
  | zero =>
    cases v with
    | scalar j => rfl
    | ref c => cases hv
  | succ n ih =>
    cases v with
    | scalar j => rfl
    | ref c => exact jsonWithin?_congr rfl fun v hm => ih (isSome_jsonWithin?_ref.1 hv v hm)

theorem jsonWithin?_mono {v : Value} {m n : Nat} {j : Json} (hv : h.jsonWithin? m v = some j)
    (hle : m ≤ n) : h.jsonWithin? n v = some j := by
  induction hle with
  | refl => exact hv
  | step _ ih =>
    rw [jsonWithin?_succ (by rw [ih, Option.isSome_some]), ih]

theorem exists_chain_of_jsonWithin? {c : Handle} {n : Nat}
    (hc : h.jsonWithin? n (.ref c) = none) :
    ∃ l, l.length = n ∧ (c :: l).IsChain h.Holds := by
  induction n generalizing c with
  | zero => exact ⟨[], rfl, .singleton c⟩
  | succ n ih =>
    have hnot : ¬ (h.jsonWithin? (n + 1) (.ref c)).isSome = true := by simp [hc]
    rw [isSome_jsonWithin?_ref] at hnot
    push Not at hnot
    obtain ⟨v, hm, hv⟩ := hnot
    cases v with
    | scalar j => simp [jsonWithin?_scalar] at hv
    | ref d =>
      obtain ⟨l, hlen, hl⟩ := ih (by simpa using hv)
      exact ⟨d :: l, congrArg Nat.succ hlen, .cons_cons hm hl⟩

theorem Acyclic.exists_toJson? {c : Handle} (A : h.Acyclic c) :
    ∃ j, h.toJson? (.ref c) = some j := by
  cases hc : h.toJson? (.ref c) with
  | some j => exact ⟨j, rfl⟩
  | none =>
    obtain ⟨l, hlen, hl⟩ := exists_chain_of_jsonWithin? hc
    have hle := A.length_le hl
    rw [hlen] at hle
    exact absurd hle (Nat.not_succ_le_self _)

theorem Acyclic.toJson?_eq {v : Value} (A : ∀ c, v = .ref c → h.Acyclic c) :
    h.toJson? v = some (h.toJson v) := by
  cases v with
  | scalar j => rfl
  | ref c =>
    obtain ⟨j, hj⟩ := (A c rfl).exists_toJson?
    rw [toJson, hj, Option.getD_some]

end Snapshots

section Frames

variable {c : Handle}

theorem reaches_of_frame
    (hframe : ∀ d, Relation.ReflTransGen h.Holds c d → h'.contents d = h.contents d) {d : Handle}
    (hd : Relation.ReflTransGen h'.Holds c d) : Relation.ReflTransGen h.Holds c d := by
  induction hd with
  | refl => exact .refl
  | tail _ hd ih =>
    rw [Holds, hframe _ ih] at hd
    exact ih.tail hd

theorem Acyclic.frame (A : h.Acyclic c)
    (hframe : ∀ d, Relation.ReflTransGen h.Holds c d → h'.contents d = h.contents d) :
    h'.Acyclic c := by
  intro d hd hcycle
  have hbelow := reaches_of_frame hframe hd
  obtain ⟨e, he, hback⟩ := Relation.TransGen.head'_iff.1 hcycle
  rw [Holds, hframe d hbelow] at he
  have hback := reaches_of_frame (fun f hf => hframe f (hbelow.trans (.head he hf))) hback
  exact A d hbelow (.head' he hback)

theorem jsonWithin?_frame
    (hframe : ∀ d, Relation.ReflTransGen h.Holds c d → h'.contents d = h.contents d) (n : Nat) :
    h'.jsonWithin? n (.ref c) = h.jsonWithin? n (.ref c) := by
  induction n generalizing c with
  | zero => rfl
  | succ n ih =>
    refine jsonWithin?_congr (hframe c .refl) fun v hm => ?_
    cases v with
    | scalar j => rw [jsonWithin?_scalar, jsonWithin?_scalar]
    | ref d => exact ih fun e he => hframe e (.head hm he)

theorem Acyclic.toJson?_frame (A : h.Acyclic c)
    (hframe : ∀ d, Relation.ReflTransGen h.Holds c d → h'.contents d = h.contents d) :
    h'.toJson? (.ref c) = h.toJson? (.ref c) := by
  obtain ⟨j, hj⟩ := A.exists_toJson?
  obtain ⟨j', hj'⟩ := (A.frame hframe).exists_toJson?
  have hsame : h'.jsonWithin? (h.cells.size + 1) (.ref c) = some j :=
    (jsonWithin?_frame hframe _).trans hj
  have hmax := jsonWithin?_mono hsame (Nat.le_max_left _ (h'.cells.size + 1))
  have hmax' := jsonWithin?_mono hj' (Nat.le_max_right (h.cells.size + 1) _)
  rw [hj, hj', Option.some.inj (hmax.symm.trans hmax')]

end Frames

def Shows (h : Heap) : Option Value → Option Json → Prop :=
  Option.Rel fun v j => h.toJson? v = some j

theorem shows_snapshot {v : Option Value} (A : ∀ c, v = some (.ref c) → h.Acyclic c) :
    h.Shows v (h.snapshot v) := by
  cases v with
  | none => exact .none
  | some v => exact .some (Acyclic.toJson?_eq fun c hc => A c (congrArg some hc))

theorem Acyclic.shows_lookup {root : Handle} (A : h.Acyclic root) (path : Path) :
    h.Shows (h.lookup? root path) (h.snapshot (h.lookup? root path)) :=
  shows_snapshot fun _ hc => A.below (reaches_of_lookup? hc)

namespace Edit

variable {c : Handle} {e : Event}

theorem frame_below (E : Edit h h' c e) (A : h.Acyclic c) {d : Handle}
    (hd : Relation.TransGen h.Holds c d) :
    ∀ f, Relation.ReflTransGen h.Holds d f → h'.contents f = h.contents f := by
  intro f hf
  refine E.frame f ?_
  rintro rfl
  exact A f .refl (hd.trans_left hf)

theorem acyclic (E : Edit h h' c e) (A : h.Acyclic c) {d : Handle}
    (hd : Relation.TransGen h.Holds c d) : h'.Acyclic d :=
  (A.below hd.to_reflTransGen).frame (E.frame_below A hd)

theorem toJson?_eq (E : Edit h h' c e) (A : h.Acyclic c) {v : Value}
    (hv : ∀ d, v = .ref d → Relation.TransGen h.Holds c d) : h'.toJson? v = h.toJson? v := by
  cases v with
  | scalar j => rfl
  | ref d =>
    exact (A.below (hv d rfl).to_reflTransGen).toJson?_frame (E.frame_below A (hv d rfl))

theorem toJson?_before (E : Edit h h' c e) (A : h.Acyclic c) {v : Value}
    (hv : ∀ d, v = .ref d → Relation.TransGen h.Holds c d) :
    h.toJson? v = some (h'.toJson v) := by
  rw [← E.toJson?_eq A hv]
  exact Acyclic.toJson?_eq fun d hd => E.acyclic A (hv d hd)

theorem shows_snapshot (E : Edit h h' c e) (A : h.Acyclic c) {v : Option Value}
    (hv : ∀ d, v = some (.ref d) → Relation.TransGen h.Holds c d) :
    h.Shows v (h'.snapshot v) := by
  cases v with
  | none => exact .none
  | some v => exact .some (E.toJson?_before A fun d hd => hv d (congrArg some hd))

end Edit

end Heap

end ReactivePage
