import ReactivePage.Proofs.Checkpoint.Turns
import ReactivePage.Proofs.Watch.Holding
import Mathlib.Algebra.Order.BigOperators.Group.List
import Mathlib.Algebra.Order.Group.Nat

namespace ReactivePage

namespace Scheduler

variable {σ : Type}

def bookings (d : Scheduler σ) (w : WatchId) : Nat :=
  (d.bindings.toList.map fun e => e.2.watches.count w).sum

def Numbered (d : Scheduler σ) : Prop :=
  ∀ id b, d.bindings.find? id = some b → id < d.nextBinding

structure Booked (d : Scheduler σ) : Prop where
  held : ∀ w, d.bookings w ≤ d.registry.holders w
  named : ∀ id b, d.bindings.find? id = some b →
    List.Forall₂ (Names d.registry b.scope) b.watches (d.dependencies b.value)
  numbered : d.Numbered

variable {d : Scheduler σ} {s : Store}

namespace Numbered

theorem find?_nextBinding (N : d.Numbered) : d.bindings.find? d.nextBinding = none := by
  cases h : d.bindings.find? d.nextBinding with
  | none => rfl
  | some b => exact absurd (N _ b h) (Nat.lt_irrefl _)

theorem insert (N : d.Numbered) (r : Registry) (b : Binding σ) :
    ({ d with
      registry := r
      bindings := d.bindings.insert d.nextBinding b
      nextBinding := d.nextBinding + 1 } : Scheduler σ).Numbered := by
  intro id b' h
  simp only [Dict.find?_insert_eq_ite] at h
  split at h
  · next heq => exact heq ▸ Nat.lt_succ_self _
  · exact Nat.lt_succ_of_lt (N id b' h)

theorem erase (N : d.Numbered) (r : Registry) (id : BindingId) :
    ({ d with registry := r, bindings := d.bindings.erase id } : Scheduler σ).Numbered := by
  intro id' b h
  simp only [Dict.find?_erase_eq_ite] at h
  split at h
  · cases h
  · exact N id' b h

end Numbered

theorem bookings_insert {id : BindingId} (h : d.bindings.find? id = none) (b : Binding σ)
    (w : WatchId) : ({ d with bindings := d.bindings.insert id b } : Scheduler σ).bookings w
      = d.bookings w + b.watches.count w := by
  rw [bookings, ((Dict.perm_insert h b).map _).sum_eq, List.map_cons, List.sum_cons, bookings,
    Nat.add_comm]

theorem bookings_erase {id : BindingId} {b : Binding σ} (h : d.bindings.find? id = some b)
    (w : WatchId) : d.bookings w
      = ({ d with bindings := d.bindings.erase id } : Scheduler σ).bookings w
        + b.watches.count w := by
  rw [bookings, ((Dict.perm_erase h).map _).sum_eq, List.map_cons, List.sum_cons, bookings,
    Nat.add_comm]

theorem count_le_bookings {id : BindingId} {b : Binding σ} (hb : d.bindings.find? id = some b)
    (w : WatchId) : b.watches.count w ≤ d.bookings w :=
  List.le_sum_of_mem (List.mem_map.2 ⟨(id, b), Dict.mem_toList.2 hb, rfl⟩)

theorem Booked.holders_pos (B : d.Booked) {id : BindingId} {b : Binding σ}
    (hb : d.bindings.find? id = some b) {w : WatchId} (hw : w ∈ b.watches) :
    0 < d.registry.holders w := by
  have hcount := List.count_pos_iff.2 hw
  have hle := count_le_bookings hb w
  have hheld := B.held w
  omega

theorem forall₂_names_congr {r r' : Registry} {scope : Handle} {ws : List WatchId}
    {paths : List String} (h : List.Forall₂ (Names r scope) ws paths)
    (hkeys : ∀ w ∈ ws, ∀ key, r.keyOf? w = some key → r'.keyOf? w = some key) :
    List.Forall₂ (Names r' scope) ws paths := by
  induction h with
  | nil => exact .nil
  | cons hname _ ih =>
    rw [List.forall_mem_cons] at hkeys
    obtain ⟨path, hread, hkey⟩ := hname
    exact .cons ⟨path, hread, hkeys.1 _ hkey⟩ (ih hkeys.2)

theorem Booked.registry (B : d.Booked) {r : Registry}
    (hheld : ∀ w, d.registry.holders w ≤ r.holders w)
    (hkeys : ∀ w key, d.registry.keyOf? w = some key → 0 < d.registry.holders w →
      r.keyOf? w = some key) : ({ d with registry := r } : Scheduler σ).Booked where
  held := fun w => Nat.le_trans (B.held w) (hheld w)
  named := fun id b hb => forall₂_names_congr (B.named id b hb) fun w hw key hkey =>
    hkeys w key hkey (B.holders_pos hb hw)
  numbered := B.numbered

theorem Booked.bind (B : d.Booked) (T : d.registry.Tracks s) {scope : Handle}
    (hscope : scope < s.heap.next) (value : Descriptor) (target : BindingTarget σ) :
    (d.bind s value scope target).2.1.Booked := by
  have hwatch := grown_watchPaths T hscope (.refl d.registry) (d.dependencies value)
  rw [Scheduler.bind]
  cases hrun : watchPaths d.registry s scope [] (d.dependencies value) with
  | mk result x =>
    obtain ⟨r, s'⟩ := x
    rw [hrun] at hwatch
    cases result with
    | error e =>
      exact B.registry (fun w => Nat.le_of_eq (hwatch.1 w).symm) hwatch.2
    | ok watches =>
      obtain ⟨G, hkeys, ws, rfl, hnames⟩ := hwatch
      refine ⟨?_, ?_, B.numbered.insert r _⟩
      · intro w
        have hheld := B.held w
        have hbookings := bookings_insert B.numbered.find?_nextBinding
          (⟨value, scope, watches, target, true⟩ : Binding σ) w
        rw [G.holders]
        exact hbookings.trans_le (Nat.add_le_add_right hheld _)
      · intro id b hb
        simp only [Dict.find?_insert_eq_ite] at hb
        split at hb
        · cases hb
          exact hnames
        · exact forall₂_names_congr (B.named id b hb) fun w _ key hkey => hkeys w key hkey

theorem Booked.unbind (B : d.Booked) (T : d.registry.Tracks s) (id : BindingId) :
    (d.unbind s id).2.1.Booked := by
  rw [Scheduler.unbind]
  cases hb : d.bindings.find? id with
  | none => exact B
  | some b =>
    have D := T.shrunk_releaseAll b.watches fun w =>
      Nat.le_trans (count_le_bookings hb w) (B.held w)
    have hrest : ∀ id' b', (d.bindings.erase id).find? id' = some b' →
        d.bindings.find? id' = some b' := by
      intro id' b' h
      rw [Dict.find?_erase_eq_ite] at h
      split at h
      · cases h
      · exact h
    have hheld : ∀ w, ({ d with bindings := d.bindings.erase id } : Scheduler σ).bookings w
        ≤ (d.registry.releaseAll s b.watches).1.holders w := by
      intro w
      have h₁ := bookings_erase hb w
      have h₂ := B.held w
      have h₃ := D.holders w
      omega
    refine ⟨hheld, ?_, B.numbered.erase _ id⟩
    intro id' b' h
    refine forall₂_names_congr (B.named id' b' (hrest id' b' h)) fun w hw key hkey => ?_
    have hcount : b'.watches.count w
        ≤ ({ d with bindings := d.bindings.erase id } : Scheduler σ).bookings w :=
      count_le_bookings h w
    have hpos := List.count_pos_iff.2 hw
    have hle := hheld w
    rw [← hkey]
    exact D.keys w (by omega)

theorem find?_checkpointWith (d : Scheduler σ) (s : Store) (received : List Signal)
    (id : BindingId) :
    ((d.checkpointWith s received).2.1.bindings.find? id).map
        (fun b => (b.value, b.scope, b.watches))
      = (d.bindings.find? id).map fun b => (b.value, b.scope, b.watches) := by
  have C := d.checkpointed s received
  by_cases hid : id ∈ (d.turnsWith s received).map (·.id)
  · obtain ⟨t, ht, rfl⟩ := List.mem_map.1 hid
    rw [C.settled t ht, ((C.called t.id t.binding).1 ⟨t, ht, rfl, rfl⟩).1]
    rfl
  · rw [C.untouched id hid]

theorem bookings_checkpointWith (d : Scheduler σ) (s : Store) (received : List Signal)
    (w : WatchId) : (d.checkpointWith s received).2.1.bookings w = d.bookings w := by
  have hwatches : ((d.checkpointWith s received).2.1.bindings.map (·.watches))
      = d.bindings.map (·.watches) := by
    apply Dict.ext_find?
    intro id
    have h := congrArg (Option.map fun x : Descriptor × Handle × List WatchId => x.2.2)
      (d.find?_checkpointWith s received id)
    rw [Option.map_map, Option.map_map] at h
    rw [Dict.find?_map, Dict.find?_map]
    exact h
  have hbookings : ∀ e : Scheduler σ, e.bookings w
      = ((e.bindings.map (·.watches)).toList.map fun x => x.2.count w).sum := by
    intro e
    rw [bookings, Dict.map, List.map_map]
    rfl
  rw [hbookings, hwatches, ← hbookings]

theorem Numbered.checkpointWith (N : d.Numbered) (s : Store) (received : List Signal) :
    (d.checkpointWith s received).2.1.Numbered := by
  intro id b hb
  have h := d.find?_checkpointWith s received id
  rw [hb] at h
  obtain ⟨b₀, hb₀, -⟩ := Option.map_eq_some_iff.1 h.symm
  exact N id b₀ hb₀

theorem Booked.checkpointWith (B : d.Booked) (s : Store) (received : List Signal) :
    (d.checkpointWith s received).2.1.Booked := by
  have hfind := d.find?_checkpointWith s received
  refine ⟨?_, ?_, B.numbered.checkpointWith s received⟩
  · intro w
    rw [bookings_checkpointWith]
    exact B.held w
  · intro id b hb
    have h := hfind id
    rw [hb] at h
    obtain ⟨b₀, hb₀, heq⟩ := Option.map_eq_some_iff.1 h.symm
    simp only [Prod.mk.injEq] at heq
    obtain ⟨hv, hs, hw⟩ := heq
    rw [← hv, ← hs, ← hw]
    exact B.named id b₀ hb₀

end Scheduler

end ReactivePage
