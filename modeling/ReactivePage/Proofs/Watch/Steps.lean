import ReactivePage.Proofs.Watch.Subscriptions

namespace ReactivePage

def Event.writesSlot (e : Event) (step : Step) : Bool :=
  match e with
  | .entry key _ _ => key = step.asKey
  | .splice index removed added => step.position? = some index && removed.length = added

namespace Store

def moveContent (s : Store) (id : ObservationId) (o : Observation) (new : Option Value) : Store :=
  ((s.subscribeContent id o.kind new).2.unsubscribeAll o.content.toList).setObservation id
    { o with content := (s.subscribeContent id o.kind new).1 }

def relinked (s : Store) (id : ObservationId) (o : Observation) (p : PathWatch)
    (last : Option Value) : Observation :=
  { o with holder := some { (s.relink id p).1 with last } }

def putRelinked (s : Store) (id : ObservationId) (o : Observation) (p : PathWatch)
    (last : Option Value) : Store :=
  (s.relink id p).2.setObservation id (s.relinked id o p last)

theorem followCollection_eq (s : Store) (id : ObservationId) (o : Observation)
    (old new : Option Value) :
    s.followCollection id o old new =
      if (s.handleOf? o.kind new).isSome ∧ s.handleOf? o.kind new = o.content.map (·.container)
      then s
      else
        let t := if s.handleOf? o.kind new = o.content.map (·.container) then s
          else s.moveContent id o new
        if Value.sameOption old new then t
        else t.report o (.replaced (t.heap.snapshot old) (t.heap.snapshot new)) := rfl

theorem relink_fst (s : Store) (id : ObservationId) (p : PathWatch) :
    (s.relink id p).1 =
      { p with links := (s.relink id p).1.links, chain := s.heap.chain p.root p.path } := by
  rw [relink]
  split
  · next h =>
    obtain ⟨h, -⟩ := h
    simp only [h]
  · rfl

theorem relink_cases (s : Store) (id : ObservationId) (p : PathWatch) :
    (s.heap.chain p.root p.path = p.chain ∧ s.relink id p = (p, s)) ∨
      Rewired s (s.relink id p).2 p.links (s.relink id p).1.links
        (s.heap.linkPlan id 0 (s.heap.chain p.root p.path) p.path.steps) := by
  rw [relink]
  split
  · next h => exact .inl ⟨h.1, rfl⟩
  · right
    have R := Rewired.unsubscribeAll s p.links
    have T := R.trans (Rewired.linkAll (s.unsubscribeAll p.links) id 0
      (s.heap.chain p.root p.path) p.path.steps) (by simp)
    rw [R.heap, List.append_nil] at T
    exact T

theorem relink_only (s : Store) (id : ObservationId) (p : PathWatch) :
    (s.relink id p).2 = { s with observers := (s.relink id p).2.observers } := by
  rcases relink_cases s id p with ⟨-, heq⟩ | R
  · rw [heq]
  · exact R.only

theorem heap_relink (s : Store) (id : ObservationId) (p : PathWatch) :
    (s.relink id p).2.heap = s.heap := by rw [relink_only]

theorem moveContent_only (s : Store) (id : ObservationId) (o : Observation) (new : Option Value) :
    s.moveContent id o new = { s with
      observers := (s.moveContent id o new).observers
      observations := (s.moveContent id o new).observations } := by
  have R := Rewired.subscribeContent s id o.kind new
  have T := Rewired.unsubscribeAll (s.subscribeContent id o.kind new).2 o.content.toList
  rw [moveContent, setObservation, T.only, R.only]

theorem putRelinked_only (s : Store) (id : ObservationId) (o : Observation) (p : PathWatch)
    (last : Option Value) :
    s.putRelinked id o p last = { s with
      observers := (s.putRelinked id o p last).observers
      observations := (s.putRelinked id o p last).observations } := by
  rw [putRelinked, setObservation, relink_only]

theorem refresh_eq {s : Store} {id : ObservationId} {o : Observation} {p : PathWatch}
    (ho : s.observations.find? id = some o) (hp : o.holder = some p) (direct : Bool) :
    s.refresh id direct =
      let new := s.heap.lookup? p.root p.path
      if direct = true ∨ ¬ Value.sameOption p.last new = true then
        let t := s.putRelinked id o p new
        match o.kind with
        | .scalar => t.reportValue (s.relinked id o p new) p.last new
        | _ => t.followCollection id (s.relinked id o p new) p.last new
      else s.putRelinked id o p p.last := by
  simp only [refresh, ho, hp, putRelinked, relinked]
  rewrite [relink_fst, heap_relink]
  rfl

theorem deliverLink_eq (s : Store) (id : ObservationId) (step : Step) (isLeaf : Bool) (e : Event) :
    s.deliverLink id step isLeaf e =
      if e.touches step then s.refresh id (isLeaf && e.writesSlot step) else s := by
  cases e with
  | entry key old new =>
    simp only [deliverLink, Event.touches, Event.writesSlot, decide_eq_true_eq]
    by_cases h : key = step.asKey
    · simp only [h, if_true, decide_true, Bool.and_true]
    · simp only [h, if_false]
  | splice index removed added =>
    cases hp : step.position? with
    | none => simp [deliverLink, Event.touches, hp]
    | some p => simp [deliverLink, Event.touches, Event.writesSlot, hp, Bool.and_assoc, eq_comm]

theorem deliverContent_eq (s : Store) (o : Observation) (e : Event) :
    ∃ change, s.deliverContent o e = s.report o change := by
  cases e with
  | entry key old new => exact ⟨_, rfl⟩
  | splice index removed added => exact ⟨_, rfl⟩

theorem write_eq_of_none {s : Store} {w : Write} {h : Heap} (hw : s.heap.write w = (h, none)) :
    s.write w = s := by
  have heq := Heap.eq_of_write_eq_none hw
  simp only [write, hw, heq]

theorem write_eq_of_some {s : Store} {w : Write} {h : Heap} {e : Event}
    (hw : s.heap.write w = (h, some e)) :
    s.write w = ({ s with heap := h }).notify w.target e := by
  simp only [write, hw]

end Store

end ReactivePage
