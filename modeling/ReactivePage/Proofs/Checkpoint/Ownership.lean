import ReactivePage.Proofs.Checkpoint.Bookkeeping

namespace ReactivePage

namespace Registry

structure Owes (r : Registry) (owed : WatchId → Nat) : Prop where
  below : ∀ w entry, r.entries.find? w = some entry → w < r.nextId
  held : ∀ w entry, r.entries.find? w = some entry → 0 < entry.holders
  counted : ∀ w entry, r.entries.find? w = some entry → entry.holders = owed w
  issued : ∀ w, r.nextId ≤ w → owed w = 0

namespace Owes

variable {r r' : Registry} {s s' : Store} {owed owed' : WatchId → Nat} {w : WatchId}

theorem empty (k : ChannelId) : (Registry.empty k).Owes fun _ => 0 where
  below := by
    intro w entry hw
    cases hw
  held := by
    intro w entry hw
    cases hw
  counted := by
    intro w entry hw
    cases hw
  issued := fun _ _ => rfl

theorem congr (O : r.Owes owed) (h : ∀ w, owed w = owed' w) : r.Owes owed' := by
  rwa [← funext h]

theorem holders_eq (O : r.Owes owed) (h : r.isActive w = true) : r.holders w = owed w := by
  obtain ⟨entry, hw⟩ := Dict.contains_iff.1 h
  rw [holders, hw]
  exact O.counted w entry hw

theorem insert (O : r.Owes owed) (key : TargetKey) (label : String) (observation : ObservationId) :
    ({ r.insert r.nextId ⟨key, label, observation, 1⟩ with nextId := r.nextId + 1 } :
      Registry).Owes fun v => owed v + [r.nextId].count v := by
  have hnew := O.issued r.nextId (Nat.le_refl _)
  constructor
  case below =>
    intro v entry hv
    simp only [entries_insert, Dict.find?_insert_eq_ite] at hv
    split at hv
    · next heq => exact heq ▸ Nat.lt_succ_self _
    · exact Nat.lt_succ_of_lt (O.below v entry hv)
  case held =>
    intro v entry hv
    simp only [entries_insert, Dict.find?_insert_eq_ite] at hv
    split at hv
    · cases hv
      exact Nat.one_pos
    · exact O.held v entry hv
  case counted =>
    intro v entry hv
    simp only [entries_insert, Dict.find?_insert_eq_ite] at hv
    split at hv
    · next heq =>
      cases hv
      simp [heq, hnew]
    · next hne => simpa [Ne.symm hne] using O.counted v entry hv
  case issued =>
    intro v hv
    have hne : r.nextId ≠ v := Nat.ne_of_lt hv
    simpa [hne] using O.issued v (Nat.le_of_succ_le hv)

theorem hold (O : r.Owes owed) {entry : RegistryEntry} (hw : r.entries.find? w = some entry)
    (observation : ObservationId) :
    ({ r with
      entries := r.entries.insert w { entry with observation, holders := entry.holders + 1 } } :
      Registry).Owes fun v => owed v + [w].count v := by
  constructor
  case below =>
    intro v entry' hv
    rw [Dict.find?_insert_eq_ite] at hv
    split at hv
    · next heq => exact heq ▸ O.below w entry hw
    · exact O.below v entry' hv
  case held =>
    intro v entry' hv
    rw [Dict.find?_insert_eq_ite] at hv
    split at hv
    · cases hv
      exact Nat.succ_pos _
    · exact O.held v entry' hv
  case counted =>
    intro v entry' hv
    rw [Dict.find?_insert_eq_ite] at hv
    split at hv
    · next heq =>
      cases hv
      simp [heq, O.counted w entry hw]
    · next hne => simpa [Ne.symm hne] using O.counted v entry' hv
  case issued =>
    intro v hv
    have hne : w ≠ v := Nat.ne_of_lt (Nat.lt_of_lt_of_le (O.below w entry hw) hv)
    simpa [hne] using O.issued v hv

theorem watch (O : r.Owes owed) {target : Target} (h : r.watch s target = .ok (w, r', s')) :
    r'.Owes fun v => owed v + [w].count v := by
  obtain ⟨key, -, ⟨entry, observation, hfind, rfl⟩ | ⟨observation, -, rfl, rfl⟩⟩ := watch_cases h
  · exact O.hold (find?_of_entryOf? hfind).2 observation
  · exact O.insert key target.label observation

theorem unwatch (O : r.Owes owed) (s : Store) (w : WatchId) : (r.unwatch s w).2.1.Owes owed := by
  have hfind : ∀ v entry, (r.unwatch s w).2.1.entries.find? v = some entry →
      r.entries.find? v = some entry := by
    intro v entry hv
    rw [find?_unwatch] at hv
    split at hv
    · cases hv
    · exact hv
  refine ⟨?_, ?_, ?_, ?_⟩
  · intro v entry hv
    rw [nextId_unwatch]
    exact O.below v entry (hfind v entry hv)
  · exact fun v entry hv => O.held v entry (hfind v entry hv)
  · exact fun v entry hv => O.counted v entry (hfind v entry hv)
  · rw [nextId_unwatch]
    exact O.issued

theorem release (O : r.Owes fun v => owed v + [w].count v) (s : Store) :
    (r.release s w).2.1.Owes owed := by
  have hfind : ∀ v entry, (r.release s w).2.1.entries.find? v = some entry →
      v < r.nextId ∧ 0 < entry.holders ∧ entry.holders = owed v := by
    intro v entry hv
    rw [find?_release] at hv
    split at hv
    · next heq =>
      subst heq
      obtain ⟨entry₀, hw, hv⟩ := Option.bind_eq_some_iff.1 hv
      have hcount := O.counted v entry₀ hw
      simp only [List.count_singleton_self] at hcount
      split at hv
      · next hn =>
        cases hv
        exact ⟨O.below v entry₀ hw, Nat.sub_pos_of_lt hn, by simp [hcount]⟩
      · cases hv
    · next hne =>
      have hcount := O.counted v entry hv
      simp only [List.count_singleton, beq_iff_eq, Ne.symm hne, if_false, Nat.add_zero] at hcount
      exact ⟨O.below v entry hv, O.held v entry hv, hcount⟩
  refine ⟨?_, fun v entry hv => (hfind v entry hv).2.1,
    fun v entry hv => (hfind v entry hv).2.2, ?_⟩
  · intro v entry hv
    rw [nextId_release]
    exact (hfind v entry hv).1
  · intro v hv
    rw [nextId_release] at hv
    exact Nat.eq_zero_of_add_eq_zero_right (O.issued v hv)

theorem isActive_release (O : r.Owes fun v => owed v + [w].count v) (s : Store) {v : WatchId}
    (hactive : r.isActive v = true) (hv : 0 < owed v) :
    (r.release s w).2.1.isActive v = true := by
  obtain ⟨entry, hentry⟩ := Dict.contains_iff.1 hactive
  apply Dict.contains_iff.2
  rw [find?_release]
  by_cases heq : v = w
  · subst heq
    have hcount := O.counted v entry hentry
    simp only [List.count_singleton_self] at hcount
    have hmore : 1 < entry.holders := by omega
    exact ⟨_, by rw [if_pos rfl, hentry, Option.bind_some, if_pos hmore]⟩
  · exact ⟨entry, by rw [if_neg heq, hentry]⟩

theorem releaseAll {ws : List WatchId} (O : r.Owes fun v => owed v + ws.count v) (s : Store) :
    (r.releaseAll s ws).1.Owes owed ∧ ∀ v, r.isActive v = true → 0 < owed v →
      (r.releaseAll s ws).1.isActive v = true := by
  induction ws generalizing r s with
  | nil => exact ⟨O, fun _ h _ => h⟩
  | cons w rest ih =>
    have O₁ : r.Owes fun v => (owed v + rest.count v) + [w].count v := O.congr fun v => by
      rw [List.count_cons, List.count_singleton, Nat.add_assoc]
    obtain ⟨O₂, hactive⟩ := ih (O₁.release s) (r.release s w).2.2
    exact ⟨O₂, fun v h hv => hactive v (O₁.isActive_release s h (Nat.add_pos_left hv _)) hv⟩

end Owes

structure Counts (P : Registry → (WatchId → Nat) → Prop) : Prop where
  watch : ∀ {r r' : Registry} {s s' : Store} {target : Target} {w : WatchId} {n : WatchId → Nat},
    P r n → r.watch s target = .ok (w, r', s') → P r' fun v => n v + [w].count v
  release : ∀ {r : Registry} {w : WatchId} {n : WatchId → Nat} (s : Store),
    P r (fun v => n v + [w].count v) → P (r.release s w).2.1 n

theorem counts_owes : Counts Owes where
  watch := fun O h => O.watch h
  release := fun s O => O.release s

namespace Counts

variable {P : Registry → (WatchId → Nat) → Prop} {r : Registry} {n : WatchId → Nat}

theorem releaseAll (C : Counts P) {ws : List WatchId} (h : P r fun v => n v + ws.count v)
    (s : Store) : P (r.releaseAll s ws).1 n := by
  induction ws generalizing r s with
  | nil => exact h
  | cons w rest ih =>
    have hcons : (fun v => n v + (w :: rest).count v)
        = fun v => (n v + rest.count v) + [w].count v := by
      funext v
      rw [List.count_cons, List.count_singleton, Nat.add_assoc]
    rw [hcons] at h
    exact ih (C.release s h) _

theorem watchPaths (C : Counts P) {taken : List WatchId} (h : P r fun v => n v + taken.count v)
    (s : Store) (scope : Handle) (paths : List String) :
    match Scheduler.watchPaths r s scope taken paths with
    | (.ok watches, r', _) => P r' fun v => n v + watches.count v
    | (.error _, r', _) => P r' n := by
  induction paths generalizing r s taken with
  | nil => exact h
  | cons path rest ih =>
    rw [Scheduler.watchPaths]
    cases hw : r.watch s (.field scope path) with
    | error e => exact C.releaseAll h s
    | ok x =>
      obtain ⟨w, r', s'⟩ := x
      have happend : (fun v => n v + (taken ++ [w]).count v)
          = fun v => (n v + taken.count v) + [w].count v := by
        funext v
        rw [List.count_append, Nat.add_assoc]
      have h' : P r' fun v => n v + (taken ++ [w]).count v := by
        rw [happend]
        exact C.watch h hw
      exact ih h' s'

end Counts

end Registry

namespace Scheduler

variable {σ : Type}

theorem runScheduled_cases (d : Scheduler σ) (s : Store) :
    (∃ s', d.runScheduled s = (none, d, s')) ∨ ∃ t received s', d.runScheduled s
      = (some (d.checkpointWith t received).1, (d.checkpointWith t received).2.1, s') := by
  rw [runScheduled]
  split
  · exact .inr ⟨s, [], _, rfl⟩
  · exact .inl ⟨s, rfl⟩

theorem wait_cases (d : Scheduler σ) (s : Store) (late : Nat) :
    (∃ s', d.wait s late = (none, d, s')) ∨ ∃ t received s', d.wait s late
      = (some (d.checkpointWith t received).1, (d.checkpointWith t received).2.1, s') := by
  rw [wait]
  split
  · exact .inl ⟨_, rfl⟩
  · split
    · exact .inr ⟨s, [], _, rfl⟩
    · simp only
      split
      · exact .inl ⟨_, rfl⟩
      · exact .inr ⟨_, _, _, rfl⟩

theorem find?_unbind (d : Scheduler σ) (s : Store) (id id' : BindingId) :
    (d.unbind s id).2.1.bindings.find? id' = if id' = id then none else d.bindings.find? id' := by
  rw [unbind]
  cases hb : d.bindings.find? id with
  | some b => exact Dict.find?_erase_eq_ite d.bindings id id'
  | none =>
    by_cases heq : id' = id
    · rw [if_pos heq, heq]
      exact hb
    · rw [if_neg heq]

theorem find?_unbindAll (d : Scheduler σ) (s : Store) (ids : List BindingId) (id : BindingId) :
    (d.unbindAll s ids).1.bindings.find? id = if id ∈ ids then none else d.bindings.find? id := by
  induction ids generalizing d s with
  | nil => rfl
  | cons first rest ih =>
    rw [unbindAll, ih, find?_unbind]
    by_cases hrest : id ∈ rest
    · rw [if_pos hrest, if_pos (List.mem_cons_of_mem first hrest)]
    · rw [if_neg hrest]
      simp only [List.mem_cons, hrest, or_false]

theorem bindings_unbindAll {d : Scheduler σ} (s : Store) {ids : List BindingId}
    (hids : ∀ id ∈ d.bindings.keys, id ∈ ids) : (d.unbindAll s ids).1.bindings = ∅ := by
  apply Dict.ext_find?
  intro id
  rw [find?_unbindAll]
  split
  · rfl
  · next hid =>
    refine Option.eq_none_iff_forall_ne_some.2 fun b hb => hid (hids id ?_)
    exact Dict.mem_keys.2 ⟨b, hb⟩

structure Owned (d : Scheduler σ) (plain : List WatchId) : Prop where
  owes : d.registry.Owes fun w => d.bookings w + plain.count w
  numbered : d.Numbered

namespace Owned

variable {d : Scheduler σ} {plain : List WatchId}

theorem create (s : Store) (settings : SchedulerSettings) (evaluator : Evaluator) :
    (create s settings evaluator : Scheduler σ × Store).1.Owned [] where
  owes := Registry.Owes.empty _
  numbered := by
    intro id b hb
    cases hb

theorem watch (O : d.Owned plain) {s s' : Store} {target : Target} {w : WatchId}
    {d' : Scheduler σ} (h : d.watch s target = .ok (w, d', s')) : d'.Owned (plain ++ [w]) := by
  rw [Scheduler.watch] at h
  cases hw : d.registry.watch s target with
  | error e =>
    rw [hw] at h
    cases h
  | ok x =>
    rw [hw] at h
    cases h
    refine ⟨(O.owes.watch hw).congr fun v => ?_, O.numbered⟩
    rw [List.count_append, ← Nat.add_assoc]
    rfl

theorem bind (O : d.Owned plain) (s : Store) (value : Descriptor) (scope : Handle)
    (target : BindingTarget σ) : (d.bind s value scope target).2.1.Owned plain := by
  have O₀ : d.registry.Owes fun w =>
      (d.bookings w + plain.count w) + ([] : List WatchId).count w := O.owes
  have hwatch := Registry.counts_owes.watchPaths O₀ s scope (d.dependencies value)
  rw [Scheduler.bind]
  cases hrun : watchPaths d.registry s scope [] (d.dependencies value) with
  | mk result x =>
    obtain ⟨r, s'⟩ := x
    rw [hrun] at hwatch
    cases result with
    | error e => exact ⟨hwatch, O.numbered⟩
    | ok watches =>
      refine ⟨hwatch.congr fun w => ?_, O.numbered.insert r _⟩
      have hbookings := bookings_insert O.numbered.find?_nextBinding
        (⟨value, scope, watches, target, true⟩ : Binding σ) w
      rw [Nat.add_right_comm]
      exact congrArg (· + plain.count w) hbookings.symm

theorem entries_eq_empty (O : d.Owned plain) (hplain : plain = []) (h : d.bindings = ∅) :
    d.registry.entries = ∅ := by
  apply Dict.ext_find?
  intro w
  cases hw : d.registry.entries.find? w with
  | none => rfl
  | some entry =>
    have hheld := O.owes.held w entry hw
    rw [O.owes.counted w entry hw, bookings, h, hplain] at hheld
    exact absurd hheld (Nat.lt_irrefl 0)

theorem owes_without (O : d.Owned plain) {id : BindingId} {b : Binding σ}
    (hb : d.bindings.find? id = some b) :
    d.registry.Owes fun w =>
      (({ d with bindings := d.bindings.erase id } : Scheduler σ).bookings w + plain.count w)
        + b.watches.count w :=
  O.owes.congr fun w => by rw [bookings_erase hb, Nat.add_right_comm]

theorem unbind (O : d.Owned plain) (s : Store) (id : BindingId) :
    (d.unbind s id).2.1.Owned plain := by
  rw [Scheduler.unbind]
  cases hb : d.bindings.find? id with
  | none => exact O
  | some b => exact ⟨((O.owes_without hb).releaseAll s).1, O.numbered.erase _ id⟩

theorem unbindAll (O : d.Owned plain) (s : Store) (ids : List BindingId) :
    (d.unbindAll s ids).1.Owned plain := by
  induction ids generalizing d s with
  | nil => exact O
  | cons id rest ih => exact ih (O.unbind s id) (d.unbind s id).2.2

theorem isActive_unbind (O : d.Owned plain) (s : Store) (id : BindingId) {w : WatchId}
    (hactive : d.registry.isActive w = true)
    (howned : w ∈ plain ∨ ∃ id' b, id' ≠ id ∧ d.bindings.find? id' = some b ∧ w ∈ b.watches) :
    (d.unbind s id).2.1.registry.isActive w = true := by
  rw [Scheduler.unbind]
  cases hb : d.bindings.find? id with
  | none => exact hactive
  | some b =>
    apply ((O.owes_without hb).releaseAll s).2 w hactive
    rcases howned with hplain | ⟨id', b', hne, hb', hw⟩
    · exact Nat.add_pos_right _ (List.count_pos_iff.2 hplain)
    · have hrest : ({ d with bindings := d.bindings.erase id } : Scheduler σ).bindings.find? id'
          = some b' := (Dict.find?_erase_of_ne _ hne).trans hb'
      exact Nat.add_pos_left
        (Nat.lt_of_lt_of_le (List.count_pos_iff.2 hw) (count_le_bookings hrest w)) _

theorem checkpointWith (O : d.Owned plain) (s : Store) (received : List Signal) :
    (d.checkpointWith s received).2.1.Owned plain where
  owes := O.owes.congr fun w => by rw [bookings_checkpointWith]
  numbered := O.numbered.checkpointWith s received

theorem runScheduled (O : d.Owned plain) (s : Store) : (d.runScheduled s).2.1.Owned plain := by
  obtain ⟨s', hrun⟩ | ⟨t, received, s', hrun⟩ := d.runScheduled_cases s
  · rwa [hrun]
  · rw [hrun]
    exact O.checkpointWith t received

theorem wait (O : d.Owned plain) (s : Store) (late : Nat) : (d.wait s late).2.1.Owned plain := by
  obtain ⟨s', hrun⟩ | ⟨t, received, s', hrun⟩ := d.wait_cases s late
  · rwa [hrun]
  · rw [hrun]
    exact O.checkpointWith t received

end Owned

end Scheduler

/-- Whether a scheduler offers an operation to its host. Its registry has more of them. -/
def Operation.isOffered {σ : Type} : Operation σ → Bool
  | release _ => false
  | closeAll => false
  | _ => true

def Session.issues {σ : Type} (S : Session σ) : Operation σ → List WatchId
  | .watch target =>
    match S.scheduler.watch S.store target with
    | .ok (w, _) => [w]
    | .error _ => []
  | _ => []

/-- A session and the numbers that watching has given to the host, one for every time. -/
structure Custody (σ : Type) where
  session : Session σ
  plain : List WatchId

namespace Custody

variable {σ : Type} {C : Custody σ} {settings : SchedulerSettings} {evaluator : Evaluator}

def perform (C : Custody σ) (op : Operation σ) : Custody σ :=
  ⟨C.session.perform op, C.plain ++ C.session.issues op⟩

inductive Reachable (settings : SchedulerSettings) (evaluator : Evaluator) : Custody σ → Prop
  | start : Reachable settings evaluator ⟨.start settings evaluator, []⟩
  | perform {C : Custody σ} {op : Operation σ} : Reachable settings evaluator C →
      op.isOffered = true → Reachable settings evaluator (C.perform op)

theorem owned_perform (O : C.session.scheduler.Owned C.plain) {op : Operation σ}
    (h : op.isOffered = true) :
    (C.perform op).session.scheduler.Owned (C.perform op).plain := by
  have hsame : ∀ {d : Scheduler σ}, d.Owned C.plain → d.Owned (C.plain ++ []) := by
    intro d h
    rwa [List.append_nil]
  cases op with
  | watch target =>
    simp only [perform, Session.perform, Session.issues]
    cases hw : C.session.scheduler.watch C.session.store target with
    | error e => exact hsame O
    | ok x => exact O.watch hw
  | release w => cases h
  | closeAll => cases h
  | act program => exact hsame O
  | unwatch w => exact hsame ⟨O.owes.unwatch C.session.store w, O.numbered⟩
  | bind value scope target => exact hsame (O.bind C.session.store value scope target)
  | unbind id => exact hsame (O.unbind C.session.store id)
  | checkpoint => exact hsame (O.checkpointWith C.session.store [])
  | runScheduled => exact hsame (O.runScheduled C.session.store)
  | wait late => exact hsame (O.wait C.session.store late)

theorem Reachable.owned (h : Reachable settings evaluator C) :
    C.session.scheduler.Owned C.plain := by
  induction h with
  | start => exact .create _ settings evaluator
  | perform _ hop ih => exact owned_perform ih hop

/-- An active watch has one holder for each time that a binding lists it, and one for each time
that watching has given its number to the host. Unbinding takes away one binding and no other, and
ends no watch that another one or the host owns. Where the host owns nothing, the registry is empty
once every binding has been unbound. -/
theorem Reachable.holders_owned (h : Reachable settings evaluator C) :
    (∀ w, C.session.scheduler.registry.isActive w = true →
      C.session.scheduler.registry.holders w
        = C.session.scheduler.bookings w + C.plain.count w) ∧
    (∀ id id', (C.perform (.unbind id)).session.scheduler.bindings.find? id'
      = if id' = id then none else C.session.scheduler.bindings.find? id') ∧
    (∀ id w, C.session.scheduler.registry.isActive w = true →
      (w ∈ C.plain ∨ ∃ id' b, id' ≠ id ∧ C.session.scheduler.bindings.find? id' = some b ∧
        w ∈ b.watches) →
      (C.perform (.unbind id)).session.scheduler.registry.isActive w = true) ∧
    (C.session.scheduler.bindings = ∅ → C.plain = [] →
      C.session.scheduler.registry.entries = ∅) ∧
    ∀ ids, (∀ id ∈ C.session.scheduler.bindings.keys, id ∈ ids) →
      (C.session.scheduler.unbindAll C.session.store ids).1.bindings = ∅ ∧
        (C.plain = [] →
          (C.session.scheduler.unbindAll C.session.store ids).1.registry.entries = ∅) := by
  have O := h.owned
  refine ⟨fun w => O.owes.holders_eq, fun id id' => Scheduler.find?_unbind _ _ id id',
    fun id w => O.isActive_unbind C.session.store id,
    fun hbindings hplain => O.entries_eq_empty hplain hbindings, fun ids hids => ?_⟩
  have hbindings := Scheduler.bindings_unbindAll C.session.store hids
  have hleft := O.unbindAll C.session.store ids
  exact ⟨hbindings, fun hplain => hleft.entries_eq_empty hplain hbindings⟩

/-- Two bindings share a watch, which the first one lists twice; a third binding fails at its
second path. -/
def boundCustody : Custody Unit :=
  let target : BindingTarget Unit := ⟨(), fun _ _ => .done ()⟩
  let C : Custody Unit := ⟨.start Settings.default.scheduler Evaluator.joined, []⟩
  let C := C.perform (.act (.create (.object ∅) fun _ => .done ()))
  let C := C.perform (.bind (.single "name+name") 1 target)
  let C := C.perform (.bind (.single "name+..") 1 target)
  C.perform (.bind (.single "name") 1 target)

theorem reachable_boundCustody :
    Reachable Settings.default.scheduler Evaluator.joined boundCustody :=
  .perform (.perform (.perform (.perform .start rfl) rfl) rfl) rfl

def sharedCustody : Custody Unit := boundCustody.perform (.watch (.field 1 "name"))

theorem reachable_sharedCustody :
    Reachable Settings.default.scheduler Evaluator.joined sharedCustody :=
  .perform reachable_boundCustody rfl

theorem holders_owned_shared :
    Reachable Settings.default.scheduler Evaluator.joined sharedCustody ∧
      sharedCustody.session.scheduler.bindings.keys = [1, 2] ∧ sharedCustody.plain = [1] ∧
      sharedCustody.session.scheduler.registry.holders 1 = 4 ∧
      (sharedCustody.perform (.unbind 1)).session.scheduler.registry.isActive 1 = true ∧
      (sharedCustody.perform (.unbind 1)).session.scheduler.registry.holders 1 = 2 ∧
      (sharedCustody.perform (.unwatch 1)).session.scheduler.registry.isActive 1 = false ∧
      boundCustody.session.scheduler.registry.isActive 1 = true ∧
      (boundCustody.session.scheduler.unbindAll boundCustody.session.store
        [1, 2]).1.registry.entries = ∅ := by
  obtain ⟨hcount, -, hkept, -, -⟩ := reachable_sharedCustody.holders_owned
  have hunbound : Reachable Settings.default.scheduler Evaluator.joined
      (sharedCustody.perform (.unbind 1)) := .perform reachable_sharedCustody rfl
  obtain ⟨hleft, -⟩ := hunbound.holders_owned
  obtain ⟨-, -, -, -, hempty⟩ := reachable_boundCustody.holders_owned
  refine ⟨reachable_sharedCustody, by decide, by decide, (hcount 1 (by decide)).trans (by decide),
    hkept 1 1 (by decide) (.inl (by decide)), (hleft 1 (by decide)).trans (by decide), by decide,
    by decide, (hempty [1, 2] (by decide)).2 rfl⟩

end Custody

end ReactivePage
