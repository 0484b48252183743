import ReactivePage.Proofs.Watch.Tracking

namespace ReactivePage

def TargetKey.observersAt (key : TargetKey) (h : Heap) (kind : Kind) (c : Handle) : Nat :=
  match key with
  | .field owner path =>
    (h.route owner path).countP (fun r => r.1 = c ∧ h.accepts c r.2)
      + if h.contentOf? kind (h.lookup? owner path) = some c then 1 else 0
  | .collection d => if d = c then 1 else 0

def Registry.observersAt (r : Registry) (s : Store) (c : Handle) : Nat :=
  (r.entries.toList.map fun e => e.2.key.observersAt s.heap ((r.kind? s e.1).getD .scalar) c).sum

theorem Heap.countP_linkPlan (h : Heap) (id : ObservationId) (i : Nat) (chain : List Handle)
    (steps : List Step) (c : Handle) :
    (h.linkPlan id i chain steps).countP (·.1 = c)
      = (chain.zip steps).countP fun r => r.1 = c ∧ h.accepts c r.2 := by
  induction chain generalizing i steps with
  | nil => simp [linkPlan]
  | cons d chain ih =>
    cases steps with
    | nil => simp [linkPlan]
    | cons step steps =>
      rw [linkPlan, List.zip_cons_cons, List.countP_cons, ← ih (i + 1) steps]
      by_cases hd : d = c
      · subst hd
        by_cases ha : h.accepts d step = true
        · simp [ha]
        · simp [ha]
      · by_cases ha : h.accepts d step = true
        · simp [ha, hd]
        · simp [ha, hd]

namespace Observation

theorem countP_contentHooks (o : Observation) (id : ObservationId) (c : Handle) :
    (o.contentHooks id).countP (·.1 = c)
      = if o.content.map (·.container) = some c then 1 else 0 := by
  rw [contentHooks]
  cases o.content with
  | none => rfl
  | some sub =>
    simp only [Option.map_some, Option.toList_some, List.map_cons, List.map_nil,
      List.countP_singleton, decide_eq_true_eq, Option.some.injEq]

end Observation

namespace Store

theorem Consistent.countP_hooks {s : Store} (C : s.Consistent) {id : ObservationId}
    {o : Observation} (ho : s.observations.find? id = some o) {key : TargetKey}
    (hkey : o.Observes key) (c : Handle) :
    (o.hooks s.heap id).countP (·.1 = c) = key.observersAt s.heap o.kind c := by
  rw [Observation.hooks, List.countP_append, Observation.countP_contentHooks]
  cases key with
  | field owner path =>
    cases hp : o.holder with
    | none => simp [Observation.Observes, Observation.subject, hp] at hkey
    | some p =>
      simp only [Observation.Observes, Observation.subject, hp, Sum.inl.injEq, Prod.mk.injEq]
        at hkey
      obtain ⟨rfl, rfl⟩ := hkey
      have U := C.upToDate id o p ho hp
      rw [C.anchored id o ho p hp, Heap.contentOf?_congr _ _ U.last, Observation.linkHooks, hp,
        Option.map_some, Option.getD_some, Heap.countP_linkPlan, U.chain]
      rfl
  | collection d =>
    obtain ⟨sub, hsub, rfl⟩ := hkey
    cases hp : o.holder with
    | some p => simp [Observation.subject, hp] at hsub
    | none =>
      simp only [Observation.subject, hp, Sum.inr.injEq] at hsub
      simp [Observation.linkHooks, hp, hsub, TargetKey.observersAt]

end Store

namespace Registry

variable {r : Registry} {s : Store}

theorem Tracks.perm_keys (T : r.Tracks s) :
    s.observations.keys.Perm (r.entries.toList.map fun e => e.2.observation) := by
  apply (List.perm_ext_iff_of_nodup s.observations.nodup_keys _).2
  · intro id
    rw [Dict.mem_keys]
    constructor
    · rintro ⟨o, ho⟩
      obtain ⟨entry, hw, rfl⟩ := T.owned id o ho
      exact List.mem_map.2 ⟨(o.watch, entry), Dict.mem_toList.2 hw, rfl⟩
    · intro hm
      obtain ⟨⟨w, entry⟩, hw, rfl⟩ := List.mem_map.1 hm
      obtain ⟨o, ho, -⟩ := T.observed w entry (Dict.mem_toList.1 hw)
      exact ⟨o, ho⟩
  · apply List.pairwise_map.2
    apply (List.pairwise_map.1 r.entries.nodup_keys).imp_of_mem
    intro e e' he he' hne heq
    exact T.observation_ne (Dict.mem_toList.1 he') (Dict.mem_toList.1 he) hne heq

theorem Tracks.observerCount_eq (T : r.Tracks s) (c : Handle) :
    s.observerCount c = r.observersAt s c := by
  have C := T.sound.consistent
  let count := fun id => (((s.observations.find? id).map fun o => o.hooks s.heap id).getD []).countP
    (·.1 = c)
  calc s.observerCount c
      = (s.observations.toList.map fun e => (e.2.hooks s.heap e.1).countP (·.1 = c)).sum :=
        Store.observerCount_eq_sum C.wired c
    _ = (s.observations.keys.map count).sum := by
        rw [Dict.keys, List.map_map]
        congr 1
        apply List.map_congr_left
        intro e he
        simp only [count, Function.comp_apply, Dict.mem_toList.1 he, Option.map_some,
          Option.getD_some]
    _ = ((r.entries.toList.map fun e => e.2.observation).map count).sum :=
        (T.perm_keys.map count).sum_eq
    _ = r.observersAt s c := by
        rw [List.map_map, Registry.observersAt]
        congr 1
        apply List.map_congr_left
        intro e he
        obtain ⟨o, ho, -, -, hkey⟩ := T.observed e.1 e.2 (Dict.mem_toList.1 he)
        simp only [count, Function.comp_apply, ho, Option.map_some, Option.getD_some,
          kind?_eq (Dict.mem_toList.1 he)]
        exact C.countP_hooks ho hkey c

theorem observersAt_congr {r' : Registry} {s' : Store} (hheap : s'.heap = s.heap)
    (hkey : ∀ w, (r'.entries.find? w).map (·.key) = (r.entries.find? w).map (·.key))
    (hkind : ∀ w, r'.kind? s' w = r.kind? s w) (c : Handle) :
    r'.observersAt s' c = r.observersAt s c := by
  have hkeys : r'.entries.map (·.key) = r.entries.map (·.key) := by
    apply Dict.ext_find?
    intro w
    rw [Dict.find?_map, Dict.find?_map, hkey]
  have hsum : ∀ (q : Registry) (t : Store), q.observersAt t c
      = ((q.entries.map (·.key)).toList.map fun e =>
          e.2.observersAt t.heap ((q.kind? t e.1).getD .scalar) c).sum := by
    intro q t
    rw [observersAt, Dict.map, List.map_map]
    rfl
  rw [hsum, hsum, hkeys, hheap]
  simp only [hkind]

theorem Watched.observersAt_again {key : TargetKey} {w w₀ : WatchId}
    {r' : Registry} {s' : Store} (W : Watched r s key w r' s')
    {entry : RegistryEntry} (hw : r.entries.find? w₀ = some entry) (hk : entry.key = key)
    (hkind : r.kind? s w₀ = some (key.kind s.heap)) (c : Handle) :
    r'.observersAt s' c = r.observersAt s c := by
  obtain ⟨entry', hw', hk', -⟩ := W.found
  have heq : w₀ = w := by
    by_contra hne
    have hsame := (W.others w₀ hne).1.trans hw
    exact hne (W.tracks.distinct w₀ w entry entry' hsame hw' (hk.trans hk'.symm))
  subst heq
  apply observersAt_congr W.heap
  · intro v
    by_cases hv : v = w₀
    · rw [hv, hw, hw', Option.map_some, Option.map_some, hk, hk']
    · rw [(W.others v hv).1]
  · intro v
    by_cases hv : v = w₀
    · rw [hv, W.kind, hkind]
    · exact (W.others v hv).2

end Registry

def TargetKey.Reaches (key : TargetKey) (h : Heap) (c : Handle) : Prop :=
  match key with
  | .field owner path => c ∈ h.chain owner path ∨ h.lookup? owner path = some (.ref c)
  | .collection d => d = c

theorem TargetKey.observersAt_of_not_reaches {key : TargetKey} {h : Heap} {c : Handle}
    (hc : ¬ key.Reaches h c) (kind : Kind) : key.observersAt h kind c = 0 := by
  cases key with
  | field owner path =>
    simp only [Reaches, not_or] at hc
    have hcontent : h.contentOf? kind (h.lookup? owner path) ≠ some c := fun heq =>
      hc.2 (Heap.eq_ref_of_contentOf? heq)
    rw [observersAt, if_neg hcontent, Nat.add_zero, List.countP_eq_zero]
    intro r hr heq
    have heq : r.1 = c := (of_decide_eq_true heq).1
    exact hc.1 (heq ▸ (List.of_mem_zip hr).1)
  | collection d => exact if_neg hc

end ReactivePage
