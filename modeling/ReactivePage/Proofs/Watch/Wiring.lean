import ReactivePage.Proofs.Watch.Subscriptions
import Mathlib.Data.List.Basic
import Mathlib.Algebra.BigOperators.Group.List.Basic
import Mathlib.Algebra.GroupWithZero.Nat

/-!
Observations and the observer lists of containers say the same.

`Wired` is the agreement: every subscription that an observation lists has its place in a
container, and every place in a container belongs to an observation that lists it. From it the
observers of a container can be counted by observation.
-/

namespace ReactivePage

namespace Observation

def links (o : Observation) : List Subscription := (o.holder.map (·.links)).getD []

def subscriptions (o : Observation) : List Subscription := o.links ++ o.content.toList

def linkHooks (o : Observation) (h : Heap) (id : ObservationId) : List (Handle × Observer) :=
  (o.holder.map fun p => h.linkPlan id 0 p.chain p.path.steps).getD []

def contentHooks (o : Observation) (id : ObservationId) : List (Handle × Observer) :=
  (o.content.map (·.container)).toList.map (·, .content id)

def hooks (o : Observation) (h : Heap) (id : ObservationId) : List (Handle × Observer) :=
  o.linkHooks h id ++ o.contentHooks id

theorem observation_of_mem_hooks {o : Observation} {h : Heap} {id : ObservationId}
    {hook : Handle × Observer} (hm : hook ∈ o.hooks h id) : hook.2.observation = id := by
  rcases List.mem_append.1 hm with hm | hm
  · rw [linkHooks] at hm
    cases hp : o.holder with
    | none => simp [hp] at hm
    | some p =>
      rw [hp] at hm
      obtain ⟨k, c, step, -, -, -, rfl⟩ := Heap.mem_linkPlan.1 hm
      rfl
  · obtain ⟨c, -, rfl⟩ := List.mem_map.1 hm
    rfl

theorem nodup_hooks (o : Observation) (h : Heap) (id : ObservationId) :
    ((o.hooks h id).map (·.2)).Nodup := by
  rw [hooks, List.map_append]
  refine List.Nodup.append ?_ ?_ ?_
  · rw [linkHooks]
    cases o.holder with
    | none => exact List.nodup_nil
    | some p => exact h.nodup_linkPlan id 0 p.chain p.path.steps
  · rw [contentHooks]
    cases o.content <;> simp
  · intro ob hl hc
    obtain ⟨hook, hm, rfl⟩ := List.mem_map.1 hc
    obtain ⟨c, -, rfl⟩ := List.mem_map.1 hm
    obtain ⟨hook, hm, heq⟩ := List.mem_map.1 hl
    rw [linkHooks] at hm
    cases hp : o.holder with
    | none => simp [hp] at hm
    | some p =>
      rw [hp] at hm
      obtain ⟨k, c, step, -, -, -, rfl⟩ := Heap.mem_linkPlan.1 hm
      cases heq

end Observation

namespace Store

structure Wired (s : Store) : Prop where
  attached : ∀ id o, s.observations.find? id = some o →
    s.Attached o.subscriptions (o.hooks s.heap id)
  served : ∀ sub ob, s.observer? sub = some ob →
    ∃ o, s.observations.find? ob.observation = some o ∧ sub ∈ o.subscriptions

theorem wired_empty : empty.Wired where
  attached := by
    intro id o h
    cases h
  served := by
    intro sub ob h
    cases h

namespace Wired

variable {s : Store} {id : ObservationId}

theorem observation_of_mem (W : s.Wired) {o : Observation} (ho : s.observations.find? id = some o)
    {sub : Subscription} (hm : sub ∈ o.subscriptions) {ob : Observer}
    (hob : s.observer? sub = some ob) : ob.observation = id := by
  obtain ⟨hook, hhook, -, hs⟩ := (W.attached id o ho).exists_hook hm
  rw [Option.some.inj (hob.symm.trans hs)]
  exact Observation.observation_of_mem_hooks hhook

end Wired

/-- A change that concerns one observation: all others keep their records and places, and no place
is given away twice. -/
structure Progress (s t : Store) (id : ObservationId) : Prop where
  wired : t.Wired
  heap : t.heap = s.heap
  nextObservation : t.nextObservation = s.nextObservation
  later : ∀ c, s.nextSubscription c ≤ t.nextSubscription c
  places : ∀ sub ob, sub.id < s.nextSubscription sub.container → t.observer? sub = some ob →
    s.observer? sub = some ob
  foreign : ∀ sub ob, ob.observation ≠ id → t.observer? sub = some ob → s.observer? sub = some ob
  others : ∀ j, j ≠ id → t.observations.find? j = s.observations.find? j

theorem Progress.trans {s t u : Store} {id : ObservationId} (P : Progress s t id)
    (Q : Progress t u id) : Progress s u id where
  wired := Q.wired
  heap := Q.heap.trans P.heap
  nextObservation := Q.nextObservation.trans P.nextObservation
  later := fun c => Nat.le_trans (P.later c) (Q.later c)
  places := fun sub ob hlt hob =>
    P.places sub ob hlt (Q.places sub ob (Nat.lt_of_lt_of_le hlt (P.later _)) hob)
  foreign := fun sub ob hne hob => P.foreign sub ob hne (Q.foreign sub ob hne hob)
  others := fun j hj => (Q.others j hj).trans (P.others j hj)

theorem Wired.replace {s s' t : Store} {old new : List Subscription}
    {hooks : List (Handle × Observer)} {id : ObservationId} (W : s.Wired)
    (R : Rewired s s' old new hooks)
    (hold : ∀ sub ∈ old, ∀ ob, s.observer? sub = some ob → ob.observation = id)
    (hhooks : ∀ hook ∈ hooks, hook.2.observation = id)
    (hheap : t.heap = s.heap) (hnext : t.nextObservation = s.nextObservation)
    (hobs : t.observers = s'.observers)
    (hother : ∀ j, j ≠ id → t.observations.find? j = s.observations.find? j)
    (hattached : ∀ o, t.observations.find? id = some o →
      t.Attached o.subscriptions (o.hooks t.heap id))
    (hserved : ∀ sub ob, t.observer? sub = some ob → ob.observation = id →
      ∃ o, t.observations.find? id = some o ∧ sub ∈ o.subscriptions) : Progress s t id := by
  have hsame : ∀ sub, t.observer? sub = s'.observer? sub := by
    intro sub
    rw [observer?, observer?, observersOf, observersOf, hobs]
  have hfresh : ∀ sub ob, s.observer? sub = some ob → sub ∉ new := fun sub ob hob hm =>
    Nat.not_le_of_lt (lt_of_observer? hob) (R.fresh sub hm)
  have hforeign : ∀ sub ob, ob.observation ≠ id → t.observer? sub = some ob →
      s.observer? sub = some ob := by
    intro sub ob hne hob
    rw [hsame] at hob
    have hnew : sub ∉ new := by
      intro hm
      obtain ⟨hook, hmem, -, hs⟩ := R.attached.exists_hook hm
      exact hne (Option.some.inj (hob.symm.trans hs) ▸ hhooks hook hmem)
    rw [R.kept sub hnew] at hob
    split at hob
    · cases hob
    · exact hob
  refine ⟨⟨fun j o ho => ?_, fun sub ob hob => ?_⟩, hheap, hnext, fun c => ?_,
    fun sub ob hlt hob => ?_, hforeign, hother⟩
  · by_cases hj : j = id
    · subst hj
      exact hattached o ho
    · rw [hother j hj] at ho
      rw [hheap]
      refine (W.attached j o ho).congr fun sub hm => ?_
      obtain ⟨hook, hhook, -, hs⟩ := (W.attached j o ho).exists_hook hm
      have hserves := Observation.observation_of_mem_hooks hhook
      have hno : sub ∉ old := fun h => hj (hserves.symm.trans (hold sub h _ hs))
      rw [hsame, R.kept sub (hfresh sub _ hs), if_neg hno]
  · by_cases hid : ob.observation = id
    · rw [hid]
      exact hserved sub ob hob hid
    · rw [hother _ hid]
      exact W.served sub ob (hforeign sub ob hid hob)
  · rw [nextSubscription, nextSubscription, observersOf, observersOf, hobs]
    exact R.later c
  · rw [hsame] at hob
    rw [R.kept sub fun hm => Nat.not_le_of_lt hlt (R.fresh sub hm)] at hob
    split at hob
    · cases hob
    · exact hob

theorem Wired.mem_subscriptions {s : Store} (W : s.Wired) {id : ObservationId} {o : Observation}
    (ho : s.observations.find? id = some o) {sub : Subscription} {ob : Observer}
    (hob : s.observer? sub = some ob) (hid : ob.observation = id) : sub ∈ o.subscriptions := by
  obtain ⟨o', ho', hm⟩ := W.served sub ob hob
  rw [hid, ho] at ho'
  cases ho'
  exact hm

def subscriptionsAt (s : Store) (c : Handle) : List Subscription :=
  (s.observersOf c).entries.toList.map fun e => ⟨c, e.1⟩

theorem length_subscriptionsAt (s : Store) (c : Handle) :
    (s.subscriptionsAt c).length = s.observerCount c := List.length_map _

theorem mem_subscriptionsAt {s : Store} {c : Handle} {sub : Subscription} :
    sub ∈ s.subscriptionsAt c ↔ sub.container = c ∧ ∃ ob, s.observer? sub = some ob := by
  obtain ⟨d, n⟩ := sub
  simp only [subscriptionsAt, List.mem_map, Prod.exists, Dict.mem_toList, Subscription.mk.injEq,
    observer?]
  constructor
  · rintro ⟨m, ob, hob, rfl, rfl⟩
    exact ⟨rfl, ob, hob⟩
  · rintro ⟨rfl, ob, hob⟩
    exact ⟨n, ob, hob, rfl, rfl⟩

theorem nodup_subscriptionsAt (s : Store) (c : Handle) : (s.subscriptionsAt c).Nodup := by
  refine List.Nodup.of_map Subscription.id ?_
  rw [subscriptionsAt, List.map_map]
  exact Dict.nodup_keys (s.observersOf c).entries

theorem perm_subscriptionsAt {s : Store} (W : s.Wired) (c : Handle) :
    (s.subscriptionsAt c).Perm
      (s.observations.toList.flatMap fun e => e.2.subscriptions.filter (·.container = c)) := by
  refine (List.perm_ext_iff_of_nodup (s.nodup_subscriptionsAt c) ?_).2 fun sub => ?_
  · refine List.nodup_flatMap.2 ⟨fun e he => ?_, ?_⟩
    · exact ((W.attached e.1 e.2 (Dict.mem_toList.1 he)).nodup (e.2.nodup_hooks _ _)).filter _
    · refine (List.pairwise_map.1 s.observations.nodup_keys).imp_of_mem ?_
      intro e f he hf hne sub hme hmf
      have ho := Dict.mem_toList.1 he
      obtain ⟨hook, -, -, hob⟩ := (W.attached e.1 e.2 ho).exists_hook (List.mem_filter.1 hme).1
      have hserves := W.observation_of_mem ho (List.mem_filter.1 hme).1 hob
      have hserves' :=
        W.observation_of_mem (Dict.mem_toList.1 hf) (List.mem_filter.1 hmf).1 hob
      exact hne (hserves.symm.trans hserves')
  · simp only [mem_subscriptionsAt, List.mem_flatMap, List.mem_filter, decide_eq_true_eq,
      Prod.exists, Dict.mem_toList]
    constructor
    · rintro ⟨hc, ob, hob⟩
      obtain ⟨o, ho, hm⟩ := W.served sub ob hob
      exact ⟨ob.observation, o, ho, hm, hc⟩
    · rintro ⟨id, o, ho, hm, hc⟩
      obtain ⟨hook, -, -, hob⟩ := (W.attached id o ho).exists_hook hm
      exact ⟨hc, hook.2, hob⟩

theorem observerCount_eq_sum {s : Store} (W : s.Wired) (c : Handle) :
    s.observerCount c
      = (s.observations.toList.map fun e => (e.2.hooks s.heap e.1).countP (·.1 = c)).sum := by
  rw [← length_subscriptionsAt, (perm_subscriptionsAt W c).length_eq, List.length_flatMap]
  congr 1
  refine List.map_congr_left fun e he => ?_
  have A := W.attached e.1 e.2 (Dict.mem_toList.1 he)
  calc (e.2.subscriptions.filter (·.container = c)).length
      = e.2.subscriptions.countP (·.container = c) := List.countP_eq_length_filter.symm
    _ = (e.2.subscriptions.map (·.container)).countP (· = c) := by rw [List.countP_map]; rfl
    _ = ((e.2.hooks s.heap e.1).map (·.1)).countP (· = c) := by rw [A.map_container]
    _ = (e.2.hooks s.heap e.1).countP (·.1 = c) := by rw [List.countP_map]; rfl

end Store

end ReactivePage
