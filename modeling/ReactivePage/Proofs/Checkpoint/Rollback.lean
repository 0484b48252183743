import ReactivePage.Proofs.Checkpoint.Management
import ReactivePage.Proofs.Checkpoint.Ownership

/-!
A binding that fails leaves no trace.

Binding watches one path after the other, and may fail at any of them, when watches of others have
got holders more and new ones have come. What was taken is let go, each as often as it was taken:
then every watch is held as before, and those that came have gone.
-/

namespace ReactivePage

namespace Registry

def named? (r : Registry) (w : WatchId) : Option (TargetKey × String) :=
  (r.entries.find? w).map fun e => (e.key, e.label)

def holding? (r : Registry) (w : WatchId) : Option (TargetKey × String × Nat) :=
  (r.entries.find? w).map fun e => (e.key, e.label, e.holders)

variable {r₀ r r' : Registry} {s s' : Store} {owed extra extra' : WatchId → Nat} {w : WatchId}

theorem Owes.named?_watch (O : r.Owes owed) {target : Target}
    (h : r.watch s target = .ok (w, r', s')) {v : WatchId} {x : TargetKey × String}
    (hx : r.named? v = some x) : r'.named? v = some x := by
  obtain ⟨entry, hv, rfl⟩ := Option.map_eq_some_iff.1 hx
  obtain ⟨key, -, ⟨entry', observation, hfind, rfl⟩ | ⟨observation, -, rfl, rfl⟩⟩ := watch_cases h
  · have hw := (find?_of_entryOf? hfind).2
    rw [named?, Dict.find?_insert_eq_ite]
    by_cases heq : v = w
    · subst heq
      cases hw.symm.trans hv
      rw [if_pos rfl, Option.map_some]
    · rw [if_neg heq, hv, Option.map_some]
  · have hne : v ≠ r.nextId := Nat.ne_of_lt (O.below v entry hv)
    simp only [named?, entries_insert]
    rw [Dict.find?_insert_of_ne _ hne, hv, Option.map_some]

theorem named?_release {v : WatchId} (h : (r.release s w).2.1.isActive v = true) :
    (r.release s w).2.1.named? v = r.named? v := by
  rw [isActive, Dict.contains_iff] at h
  rw [named?, find?_release] at *
  by_cases heq : v = w
  · subst heq
    cases hv : r.entries.find? v with
    | none => simp [named?, hv]
    | some entry =>
      by_cases hn : 1 < entry.holders
      · simp [named?, hv, hn]
      · simp [hv, hn] at h
  · rw [if_neg heq, named?]

/-- One registry has come from another, and of each number there are so many holders more. -/
structure Lends (r₀ r : Registry) (extra : WatchId → Nat) : Prop where
  held : ∀ w entry, r₀.entries.find? w = some entry → 0 < entry.holders
  owes : r.Owes fun w => r₀.holders w + extra w
  kept : ∀ w x, r₀.named? w = some x → r.named? w = some x

namespace Lends

theorem refl (O : r.Owes owed) : Lends r r fun _ => 0 where
  held := O.held
  owes := by
    refine ⟨O.below, O.held, fun w entry hw => ?_, fun w hw => ?_⟩
    · rw [holders, hw]
      rfl
    · cases h : r.entries.find? w with
      | none =>
        rw [holders, h]
        rfl
      | some entry => exact absurd (O.below w entry h) (Nat.not_lt_of_le hw)
  kept := fun _ _ h => h

theorem congr (L : Lends r₀ r extra) (h : ∀ w, extra w = extra' w) : Lends r₀ r extra' := by
  rwa [← funext h]

theorem watch (L : Lends r₀ r extra) {target : Target} (h : r.watch s target = .ok (w, r', s')) :
    Lends r₀ r' fun v => extra v + [w].count v where
  held := L.held
  owes := (L.owes.watch h).congr fun _ => Nat.add_assoc _ _ _
  kept := fun v x hx => L.owes.named?_watch h (L.kept v x hx)

theorem release (L : Lends r₀ r fun v => extra v + [w].count v) (s : Store) :
    Lends r₀ (r.release s w).2.1 extra := by
  have O : r.Owes fun v => (r₀.holders v + extra v) + [w].count v :=
    L.owes.congr fun _ => (Nat.add_assoc _ _ _).symm
  refine ⟨L.held, O.release s, fun v x hx => ?_⟩
  have hv := L.kept v x hx
  obtain ⟨entry, hfind, -⟩ := Option.map_eq_some_iff.1 hv
  obtain ⟨entry₀, hfind₀, -⟩ := Option.map_eq_some_iff.1 hx
  have hpos : 0 < r₀.holders v := by
    rw [holders, hfind₀]
    exact L.held v entry₀ hfind₀
  rw [named?_release (O.isActive_release s (Dict.contains_iff.2 ⟨entry, hfind⟩)
    (Nat.add_pos_left hpos _))]
  exact hv

theorem holding?_eq (L : Lends r₀ r fun _ => 0) (w : WatchId) : r.holding? w = r₀.holding? w := by
  cases h₀ : r₀.entries.find? w with
  | none =>
    cases h : r.entries.find? w with
    | none => rw [holding?, holding?, h, h₀]
    | some entry =>
      have hcount := L.owes.counted w entry h
      rw [holders, h₀] at hcount
      exact absurd (L.owes.held w entry h) (by simp [hcount])
  | some entry₀ =>
    have hname : r₀.named? w = some (entry₀.key, entry₀.label) := by
      rw [named?, h₀, Option.map_some]
    obtain ⟨entry, h, hentry⟩ := Option.map_eq_some_iff.1 (L.kept w _ hname)
    obtain ⟨hkey, hlabel⟩ := Prod.mk.inj hentry
    have hcount := L.owes.counted w entry h
    rw [holders, h₀] at hcount
    rw [holding?, holding?, h, h₀, Option.map_some, Option.map_some, hkey, hlabel, hcount]
    rfl

end Lends

theorem counts_lends (r₀ : Registry) : Counts (Lends r₀) where
  watch := fun L h => L.watch h
  release := fun s L => L.release s

end Registry

def FirstError {α β ε : Type} (check : α → Except ε β) (l : List α) (e : ε) : Prop :=
  ∃ before a after, l = before ++ a :: after ∧ (∀ b ∈ before, ∃ x, check b = .ok x) ∧
    check a = .error e

namespace FirstError

variable {α β ε : Type} {check : α → Except ε β} {l : List α} {e : ε}

theorem head {a : α} (h : check a = .error e) : FirstError check (a :: l) e :=
  ⟨[], a, l, rfl, nofun, h⟩

theorem cons {a : α} {x : β} (h : FirstError check l e) (ha : check a = .ok x) :
    FirstError check (a :: l) e := by
  obtain ⟨before, b, after, rfl, hbefore, hb⟩ := h
  exact ⟨a :: before, b, after, rfl, List.forall_mem_cons.2 ⟨⟨x, ha⟩, hbefore⟩, hb⟩

theorem append {before : List α} (hbefore : ∀ b ∈ before, ∃ x, check b = .ok x)
    (h : FirstError check l e) : FirstError check (before ++ l) e := by
  obtain ⟨more, a, after, rfl, hmore, ha⟩ := h
  exact ⟨before ++ more, a, after, (List.append_assoc _ _ _).symm,
    List.forall_mem_append.2 ⟨hbefore, hmore⟩, ha⟩

theorem append_right (h : FirstError check l e) (after : List α) :
    FirstError check (l ++ after) e := by
  obtain ⟨before, a, more, rfl, hbefore, ha⟩ := h
  exact ⟨before, a, more ++ after, by rw [List.append_assoc, List.cons_append], hbefore, ha⟩

end FirstError

namespace Scheduler

variable {σ : Type} {r₀ r : Registry} {extra : WatchId → Nat} {d : Scheduler σ}
  {plain : List WatchId}

open Registry (Lends)

theorem watchPaths_cases (r : Registry) (s : Store) (scope : Handle) (taken : List WatchId)
    (paths : List String) :
    match (watchPaths r s scope taken paths).1 with
    | .ok _ => ∀ path ∈ paths, ∃ key, (Target.field scope path).key = .ok key
    | .error e => FirstError (fun path => (Target.field scope path).key) paths e := by
  induction paths generalizing r s taken with
  | nil => exact nofun
  | cons path rest ih =>
    rw [watchPaths, Registry.watch_eq]
    cases hkey : (Target.field scope path).key with
    | error e => exact .head hkey
    | ok key =>
      simp only [Except.map]
      generalize r.watchKey s key (Target.field scope path).label = x
      obtain ⟨w, r', s'⟩ := x
      have hrest := ih r' s' (taken ++ [w])
      simp only
      cases hrun : (watchPaths r' s' scope (taken ++ [w]) rest).1 with
      | error e =>
        rw [hrun] at hrest
        exact hrest.cons hkey
      | ok watches =>
        rw [hrun] at hrest
        exact List.forall_mem_cons.2 ⟨⟨key, hkey⟩, hrest⟩

/-- A scheduler has come from another by these bindings, which are the last ones. -/
structure Adds (d₀ d : Scheduler σ) (entries : List (BindingId × Binding σ)) : Prop where
  lends : Lends d₀.registry d.registry fun w => (entries.flatMap (·.2.watches)).count w
  evaluator : d.evaluator = d₀.evaluator
  listed : ∀ e ∈ entries, d.bindings.find? e.1 = some e.2
  others : ∀ id, id ∉ entries.map Prod.fst → d.bindings.find? id = d₀.bindings.find? id
  added : ∀ e ∈ entries, d₀.bindings.find? e.1 = none
  ascending : (entries.map Prod.fst).Pairwise (· < ·)
  numbered : d.Numbered

namespace Adds

variable {d₀ d : Scheduler σ} {entries : List (BindingId × Binding σ)}

theorem refl (O : d.Owned plain) : Adds d d [] where
  lends := .refl O.owes
  evaluator := rfl
  listed := nofun
  others := fun _ _ => rfl
  added := nofun
  ascending := .nil
  numbered := O.numbered

theorem lt_nextBinding (A : Adds d₀ d entries) {id : BindingId} (h : id ∈ entries.map Prod.fst) :
    id < d.nextBinding := by
  obtain ⟨e, he, rfl⟩ := List.mem_map.1 h
  exact A.numbered e.1 e.2 (A.listed e he)

theorem find?_nextBinding (A : Adds d₀ d entries) : d₀.bindings.find? d.nextBinding = none := by
  have hnew : d.nextBinding ∉ entries.map Prod.fst := fun h => Nat.lt_irrefl _ (A.lt_nextBinding h)
  rw [← A.others _ hnew, A.numbered.find?_nextBinding]

theorem registry (A : Adds d₀ d entries) {r : Registry}
    (L : Lends d₀.registry r fun w => (entries.flatMap (·.2.watches)).count w) :
    Adds d₀ { d with registry := r } entries :=
  { A with lends := L }

theorem insert (A : Adds d₀ d entries) {r : Registry} {b : Binding σ}
    (L : Lends d₀.registry r fun w => (entries.flatMap (·.2.watches)).count w + b.watches.count w) :
    Adds d₀ { d with
      registry := r
      bindings := d.bindings.insert d.nextBinding b
      nextBinding := d.nextBinding + 1 } (entries ++ [(d.nextBinding, b)]) := by
  constructor
  case lends =>
    exact L.congr fun w => by
      rw [List.flatMap_append, List.count_append, List.flatMap_singleton]
  case evaluator => exact A.evaluator
  case listed =>
    rw [List.forall_mem_append]
    refine ⟨fun e he => ?_, fun e he => ?_⟩
    · have hne := Nat.ne_of_lt (A.lt_nextBinding (List.mem_map_of_mem he))
      exact (Dict.find?_insert_of_ne _ hne b).trans (A.listed e he)
    · obtain rfl := List.mem_singleton.1 he
      exact Dict.find?_insert_self ..
  case others =>
    intro id hid
    rw [List.map_append, List.mem_append, not_or] at hid
    have hne : id ≠ d.nextBinding := fun heq => hid.2 (List.mem_singleton.2 heq)
    exact (Dict.find?_insert_of_ne _ hne b).trans (A.others id hid.1)
  case added =>
    rw [List.forall_mem_append]
    refine ⟨A.added, fun e he => ?_⟩
    obtain rfl := List.mem_singleton.1 he
    exact A.find?_nextBinding
  case ascending =>
    rw [List.map_append, List.pairwise_append]
    refine ⟨A.ascending, List.pairwise_singleton .., fun id hid id' hid' => ?_⟩
    obtain rfl := List.mem_singleton.1 hid'
    exact A.lt_nextBinding hid
  case numbered => exact A.numbered.insert r b

theorem bind (A : Adds d₀ d entries) (s : Store) (value : Descriptor) (scope : Handle)
    (target : BindingTarget σ) :
    match d.bind s value scope target with
    | (.ok id, d', _) => ∃ watches,
      Adds d₀ d' (entries ++ [(id, ⟨value, scope, watches, target, true⟩)]) ∧
        ∀ path ∈ d₀.dependencies value, ∃ key, (Target.field scope path).key = .ok key
    | (.error e, d', _) => Adds d₀ d' entries ∧
      FirstError (fun path => (Target.field scope path).key) (d₀.dependencies value) e := by
  have L₀ : Lends d₀.registry d.registry fun w =>
      (entries.flatMap (·.2.watches)).count w + ([] : List WatchId).count w := A.lends
  have hwatch := (Registry.counts_lends _).watchPaths L₀ s scope (d.dependencies value)
  have hread := watchPaths_cases d.registry s scope [] (d.dependencies value)
  have hpaths : d.dependencies value = d₀.dependencies value := by
    rw [dependencies, A.evaluator, dependencies]
  rw [Scheduler.bind]
  cases hrun : watchPaths d.registry s scope [] (d.dependencies value) with
  | mk result x =>
    obtain ⟨r, s'⟩ := x
    rw [hrun] at hwatch hread
    rw [hpaths] at hread
    cases result with
    | error e => exact ⟨A.registry hwatch, hread⟩
    | ok watches => exact ⟨watches, A.insert hwatch, hread⟩

theorem unbind {id : BindingId} {b : Binding σ} (A : Adds d₀ d ((id, b) :: entries)) (s : Store) :
    Adds d₀ (d.unbind s id).2.1 entries := by
  have hb : d.bindings.find? id = some b := A.listed _ List.mem_cons_self
  obtain ⟨hfirst, hrest⟩ := List.pairwise_cons.1 A.ascending
  rw [Scheduler.unbind, hb]
  constructor
  case lends =>
    have L : Lends d₀.registry d.registry fun w =>
        (entries.flatMap (·.2.watches)).count w + b.watches.count w := A.lends.congr fun w => by
      rw [List.flatMap_cons, List.count_append, Nat.add_comm]
    exact (Registry.counts_lends _).releaseAll L s
  case evaluator => exact A.evaluator
  case listed =>
    intro e he
    have hne := Nat.ne_of_gt (hfirst e.1 (List.mem_map_of_mem he))
    exact (Dict.find?_erase_of_ne _ hne).trans (A.listed e (List.mem_cons_of_mem _ he))
  case others =>
    intro id' hid
    simp only [Dict.find?_erase_eq_ite]
    split
    · next heq =>
      subst heq
      exact (A.added (id', b) List.mem_cons_self).symm
    · next hne => exact A.others id' (fun h => (List.mem_cons.1 h).elim hne hid)
  case added => exact fun e he => A.added e (List.mem_cons_of_mem _ he)
  case ascending => exact hrest
  case numbered => exact A.numbered.erase _ id

theorem unbindAll (A : Adds d₀ d entries) (s : Store) :
    Adds d₀ (d.unbindAll s (entries.map Prod.fst)).1 [] := by
  induction entries generalizing d s with
  | nil => exact A
  | cons e rest ih => exact ih (A.unbind s) _

end Adds

/-- The bindings, the active watches with what they are called and how many hold them, and what is
queued are the same. -/
structure Restored (d : Scheduler σ) (s : Store) (d' : Scheduler σ) (s' : Store) : Prop where
  bindings : d'.bindings = d.bindings
  watches : ∀ w, d'.registry.holding? w = d.registry.holding? w
  queues : ∀ k, (s'.channel k).queue = (s.channel k).queue

theorem Adds.restored {d₀ d : Scheduler σ} (A : Adds d₀ d []) {s s' : Store}
    (hqueue : ∀ k, (s'.channel k).queue = (s.channel k).queue) : Restored d₀ s d s' where
  bindings := Dict.ext_find? fun id => A.others id List.not_mem_nil
  watches := A.lends.holding?_eq
  queues := hqueue

theorem queue_bind (d : Scheduler σ) (s : Store) (value : Descriptor) (scope : Handle)
    (target : BindingTarget σ) (k : ChannelId) :
    ((d.bind s value scope target).2.2.channel k).queue = (s.channel k).queue :=
  ((Session.queue_perform ⟨d, s⟩
    (show (Operation.bind value scope target).isManagement = true from rfl)).2 k).1

theorem queue_unbindAll (d : Scheduler σ) (s : Store) (ids : List BindingId) (k : ChannelId) :
    ((d.unbindAll s ids).2.channel k).queue = (s.channel k).queue := by
  induction ids generalizing d s with
  | nil => rfl
  | cons id rest ih =>
    exact (ih _ _).trans ((Session.queue_perform ⟨d, s⟩
      (show (Operation.unbind id : Operation σ).isManagement = true from rfl)).2 k).1

theorem Owned.restored_bind (O : d.Owned plain) {s : Store} {value : Descriptor} {scope : Handle}
    {target : BindingTarget σ} {e : InvalidPath}
    (h : (d.bind s value scope target).1 = .error e) :
    Restored d s (d.bind s value scope target).2.1 (d.bind s value scope target).2.2 := by
  have hbind := (Adds.refl O).bind s value scope target
  have hqueue := d.queue_bind s value scope target
  cases hrun : d.bind s value scope target with
  | mk result x =>
    rw [hrun] at h hbind hqueue
    cases h
    exact hbind.1.restored hqueue

end Scheduler

end ReactivePage
