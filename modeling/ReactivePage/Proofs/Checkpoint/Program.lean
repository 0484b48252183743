import ReactivePage.Checkpoint.Action
import ReactivePage.Proofs.Watch.Upkeep

namespace ReactivePage

namespace Action

variable {α : Type}

def moments : Action α → Store → List Store
  | done _, _ => []
  | read next, s => (next s.heap).moments s
  | create contents next, s =>
    let (c, heap) := s.heap.create contents
    { s with heap } :: (next c).moments { s with heap }
  | load json next, s =>
    let (v, heap) := s.heap.ofJson json
    { s with heap } :: (next v).moments { s with heap }
  | write w next, s => s.write w :: next.moments (s.write w)
  | wake channel next, s =>
    let (delivered, s) := s.send channel .wake
    s :: (next delivered).moments s
  | render label value next, s =>
    let s := { s with rendered := s.rendered ++ [(label, value)] }
    s :: next.moments s

theorem run_induction {P Q : Store → Prop}
    (step : ∀ s t, Store.Step s t → Q s → Q t → P s → P t) (a : Action α) (s : Store)
    (hq : Q s) (hm : ∀ t ∈ a.moments s, Q t) (hp : P s) : P (a.run s).2 ∧ Q (a.run s).2 := by
  induction a generalizing s with
  | done result => exact ⟨hp, hq⟩
  | read next ih => exact ih _ s hq hm hp
  | create contents next ih =>
    simp only [moments, List.forall_mem_cons] at hm
    exact ih _ _ hm.1 hm.2 (step _ _ (.grow (.create _ _)) hq hm.1 hp)
  | load json next ih =>
    simp only [moments, List.forall_mem_cons] at hm
    exact ih _ _ hm.1 hm.2 (step _ _ (.grow (Heap.extends_ofJson _ _)) hq hm.1 hp)
  | write w next ih =>
    simp only [moments, List.forall_mem_cons] at hm
    exact ih _ hm.1 hm.2 (step _ _ (.write s w) hq hm.1 hp)
  | wake channel next ih =>
    simp only [moments, List.forall_mem_cons] at hm
    exact ih _ _ hm.1 hm.2 (step _ _ (.wake s channel) hq hm.1 hp)
  | render label value next ih =>
    simp only [moments, List.forall_mem_cons] at hm
    exact ih _ hm.1 hm.2 (step _ _ (.render s _) hq hm.1 hp)

theorem sends_run (a : Action α) (s : Store) (k : ChannelId) : Store.Sends k s (a.run s).2 := by
  have hrun := a.run_induction (P := Store.Sends k s) (Q := fun _ => True)
    (fun _ _ h _ _ hs => hs.trans (h.sends k)) s trivial (fun _ _ => trivial) (.refl s)
  exact hrun.1

def writes : Action α → Store → List Write
  | done _, _ => []
  | read next, s => (next s.heap).writes s
  | create contents next, s =>
    let (c, heap) := s.heap.create contents
    (next c).writes { s with heap }
  | load json next, s =>
    let (v, heap) := s.heap.ofJson json
    (next v).writes { s with heap }
  | write w next, s => w :: next.writes (s.write w)
  | wake channel next, s =>
    let (delivered, s) := s.send channel .wake
    (next delivered).writes s
  | render label value next, s => next.writes { s with rendered := s.rendered ++ [(label, value)] }

theorem exists_wakes (a : Action α) (s : Store) (hw : a.writes s = []) (k : ChannelId) :
    ∃ l, Store.Raises k s l (a.run s).2 ∧ ∀ signal ∈ l, signal = .wake := by
  induction a generalizing s with
  | done result => exact ⟨[], .quiet rfl, by simp⟩
  | read next ih => exact ih _ s hw
  | create contents next ih =>
    obtain ⟨l, hl, hwakes⟩ := ih _ _ hw
    exact ⟨l, hl.of_quiet rfl, hwakes⟩
  | load json next ih =>
    obtain ⟨l, hl, hwakes⟩ := ih _ _ hw
    exact ⟨l, hl.of_quiet rfl, hwakes⟩
  | write w next ih => cases hw
  | wake channel next ih =>
    obtain ⟨l, hl, hwakes⟩ := ih _ _ hw
    by_cases hk : channel = k
    · subst hk
      refine ⟨[.wake] ++ l, .trans (.send s .wake) hl, ?_⟩
      rw [List.forall_mem_append]
      exact ⟨by simp, hwakes⟩
    · exact ⟨[] ++ l, .trans (.elsewhere s .wake hk) hl, hwakes⟩
  | render label value next ih =>
    obtain ⟨l, hl, hwakes⟩ := ih _ hw
    exact ⟨l, hl.of_quiet rfl, hwakes⟩

end Action

end ReactivePage
