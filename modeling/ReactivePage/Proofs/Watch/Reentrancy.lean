import ReactivePage.Proofs.Watch.Steps
import Mathlib.Data.List.Sort

namespace ReactivePage

universe u v

variable {α : Type u} {σ : Type v}

namespace ObserverList

inductive Move (α : Type u)
  | subscribe (a : α)
  | close (id : Nat)

namespace Move

def apply (l : ObserverList α) : Move α → ObserverList α
  | subscribe a => (l.subscribe a).2
  | close id => l.close id

def closed : List (Move α) → List Nat
  | [] => []
  | subscribe _ :: moves => closed moves
  | close id :: moves => id :: closed moves

/-- The subscriptions that moves make, with numbers from `n` on, less those that a later move
closes. -/
def survivors : Nat → List (Move α) → List (Nat × α)
  | _, [] => []
  | n, subscribe a :: moves =>
    if n ∈ closed moves then survivors (n + 1) moves else (n, a) :: survivors (n + 1) moves
  | n, close _ :: moves => survivors n moves

theorem closed_append (moves moves' : List (Move α)) :
    closed (moves ++ moves') = closed moves ++ closed moves' := by
  induction moves with
  | nil => rfl
  | cons move moves ih =>
    cases move with
    | subscribe a => exact ih
    | close id => exact congrArg (id :: ·) ih

theorem le_of_mem_survivors {n : Nat} {moves : List (Move α)} {e : Nat × α}
    (he : e ∈ survivors n moves) : n ≤ e.1 := by
  induction moves generalizing n with
  | nil => cases he
  | cons move moves ih =>
    cases move with
    | close id => exact ih he
    | subscribe a =>
      rw [survivors] at he
      split at he
      · exact Nat.le_of_succ_le (ih he)
      · rcases List.mem_cons.1 he with rfl | he
        · exact Nat.le_refl n
        · exact Nat.le_of_succ_le (ih he)

end Move

open Move (closed survivors)

variable (l : ObserverList α)

def after (moves : List (Move α)) : ObserverList α := moves.foldl Move.apply l

theorem after_append (moves moves' : List (Move α)) :
    l.after (moves ++ moves') = (l.after moves).after moves' :=
  List.foldl_append

theorem putEntry_of_forall_lt {k : Nat} {entries : List (Nat × α)} (a : α)
    (h : ∀ e ∈ entries, e.1 < k) : putEntry k a entries = entries ++ [(k, a)] := by
  induction entries with
  | nil => rfl
  | cons e rest ih =>
    rw [List.forall_mem_cons] at h
    have hgt : compare k e.1 = .gt := Nat.compare_eq_gt.2 h.1
    simp only [putEntry, hgt, ih h.2, List.cons_append]

theorem toList_subscribe (a : α) :
    (l.subscribe a).2.entries.toList = l.entries.toList ++ [(l.nextId, a)] :=
  putEntry_of_forall_lt a l.bound

theorem toList_close (id : Nat) :
    (l.close id).entries.toList = l.entries.toList.filter fun e => e.1 ≠ id := by
  refine List.filter_congr fun e _ => decide_eq_decide.2 (not_congr ?_)
  rw [Nat.compare_eq_eq, eq_comm]

theorem sorted : l.entries.toList.Pairwise fun e f => e.1 < f.1 :=
  l.entries.sorted.imp fun h => Nat.compare_eq_lt.1 h

omit l in
theorem eq_of_increasing {entries entries' : List (Nat × α)}
    (h : entries.Pairwise fun e f => e.1 < f.1) (h' : entries'.Pairwise fun e f => e.1 < f.1)
    (hmem : ∀ e, e ∈ entries ↔ e ∈ entries') : entries = entries' := by
  have hasymm : Std.Asymm fun e f : Nat × α => e.1 < f.1 := ⟨fun _ _ => Nat.lt_asymm⟩
  exact h.eq_of_mem_iff h' hmem

theorem contains_iff {id : Nat} : l.contains id = true ↔ ∃ a, (id, a) ∈ l.entries.toList := by
  simp only [contains, Dict.contains_iff, Dict.mem_toList]

theorem toList_after (moves : List (Move α)) :
    (l.after moves).entries.toList =
      (l.entries.toList.filter fun e => e.1 ∉ closed moves) ++ survivors l.nextId moves := by
  -- By induction on the moves: the old observers that none closes, and the new ones that none
  -- closes later.
  induction moves generalizing l with
  | nil => simp [after, closed, survivors]
  | cons move moves ih =>
    cases move with
    | subscribe a =>
      have hrest := ih (l.subscribe a).2
      rw [toList_subscribe, List.filter_append, List.append_assoc] at hrest
      refine hrest.trans (congrArg ((l.entries.toList.filter fun e => e.1 ∉ closed moves) ++ ·) ?_)
      by_cases hn : l.nextId ∈ closed moves <;> simp [hn, survivors, subscribe]
    | close id =>
      have hrest := ih (l.close id)
      rw [toList_close, List.filter_filter] at hrest
      refine hrest.trans (congrArg (· ++ survivors l.nextId moves) ?_)
      refine List.filter_congr fun e _ => ?_
      simp [closed, Bool.and_comm]

variable {l}

theorem not_mem_closed_of_mem_after {moves : List (Move α)} {e : Nat × α} (hlt : e.1 < l.nextId)
    (he : e ∈ (l.after moves).entries.toList) : e.1 ∉ closed moves := by
  -- Numbers are not given twice, so an old number is still in the list only if nothing closed it.
  rw [toList_after, List.mem_append] at he
  rcases he with he | he
  · simpa using (List.mem_filter.1 he).2
  · exact absurd (Move.le_of_mem_survivors he) (Nat.not_le_of_lt hlt)

theorem mem_after_iff {moves : List (Move α)} {e : Nat × α} (he : e ∈ l.entries.toList) :
    e ∈ (l.after moves).entries.toList ↔ e.1 ∉ closed moves := by
  refine ⟨not_mem_closed_of_mem_after (l.bound e he), fun h => ?_⟩
  rw [toList_after]
  exact List.mem_append_left _ (List.mem_filter.2 ⟨he, by simpa using h⟩)

theorem contains_after_iff {moves : List (Move α)} {e : Nat × α} (he : e ∈ l.entries.toList) :
    (l.after moves).contains e.1 = true ↔ e.1 ∉ closed moves := by
  rw [contains_iff]
  constructor
  · rintro ⟨a, ha⟩
    exact not_mem_closed_of_mem_after (e := (e.1, a)) (l.bound e he) ha
  · exact fun h => ⟨e.2, (mem_after_iff he).2 h⟩

theorem close_of_forall_ne {id : Nat} (h : ∀ e ∈ l.entries.toList, e.1 ≠ id) : l.close id = l := by
  have hlist : (l.close id).entries.toList = l.entries.toList := by
    rw [toList_close, List.filter_eq_self]
    simpa using h
  obtain ⟨⟨entries, hsorted⟩, nextId, hbound⟩ := l
  simp only [close, Dict.erase] at hlist ⊢
  simp only [hlist]

theorem close_of_mem_closed {id : Nat} {moves : List (Move α)} (hid : id < l.nextId)
    (h : id ∈ closed moves) : (l.after moves).close id = l.after moves := by
  refine close_of_forall_ne fun e he => ?_
  rintro rfl
  exact not_mem_closed_of_mem_after hid he h

/-- Observers of a list that lives in a state: what a call does to the state, and which moves it
makes at the list. -/
structure Callbacks (α : Type u) (σ : Type v) where
  list : σ → ObserverList α
  call : α → σ → σ
  moves : α → σ → List (Move α)
  list_call : ∀ a s, list (call a s) = (list s).after (moves a s)

namespace Callbacks

variable (C : Callbacks α σ)

def notify (s : σ) : σ := ObserverList.notify C.list C.call s

def callAll (called : List (Nat × α)) (s : σ) : σ := called.foldl (fun s e => C.call e.2 s) s

def movesOf : List (Nat × α) → σ → List (Move α)
  | [], _ => []
  | e :: called, s => C.moves e.2 s ++ movesOf called (C.call e.2 s)

theorem list_callAll (called : List (Nat × α)) (s : σ) :
    C.list (C.callAll called s) = (C.list s).after (C.movesOf called s) := by
  induction called generalizing s with
  | nil => rfl
  | cons e called ih =>
    rw [movesOf, after_append, ← C.list_call]
    exact ih (C.call e.2 s)

/-- One notification calls these observers. They are some of those in the list at its start, each
called once, in order; an observer is left out if and only if one called before it closed it. In the
end the list holds what was not closed, the old observers before the new ones. -/
structure Dispatch (s : σ) (called : List (Nat × α)) : Prop where
  state : C.notify s = C.callAll called s
  order : called.Sublist (C.list s).entries.toList
  mem_iff : ∀ e ∈ (C.list s).entries.toList,
    e ∈ called ↔ e.1 ∉ closed (C.movesOf (called.filter fun f => f.1 < e.1) s)
  remains : (C.list (C.notify s)).entries.toList =
    ((C.list s).entries.toList.filter fun e => e.1 ∉ closed (C.movesOf called s)) ++
      survivors (C.list s).nextId (C.movesOf called s)

theorem exists_called {l : ObserverList α} {moves : List (Move α)} {rest : List (Nat × α)}
    (hsorted : rest.Pairwise fun e f => e.1 < f.1) (hrest : ∀ e ∈ rest, e ∈ l.entries.toList)
    {s : σ} (hs : C.list s = l.after moves) :
    ∃ called : List (Nat × α), called.Sublist rest ∧
      rest.foldl (fun s e => if (C.list s).contains e.1 then C.call e.2 s else s) s
        = C.callAll called s ∧
      ∀ e ∈ rest, e ∈ called ↔
        e.1 ∉ closed (moves ++ C.movesOf (called.filter fun f => f.1 < e.1) s) := by
  -- By induction on the turns that are left, with the moves made so far.
  induction rest generalizing s moves with
  | nil => exact ⟨[], .slnil, rfl, nofun⟩
  | cons e rest ih =>
    obtain ⟨hlt, hsorted⟩ := List.pairwise_cons.1 hsorted
    obtain ⟨he, hrest⟩ := List.forall_mem_cons.1 hrest
    have hcontains : (C.list s).contains e.1 = true ↔ e.1 ∉ closed moves := by
      rw [hs, contains_after_iff he]
    -- nobody behind `e` is called before `e`
    have hfirst : ∀ called : List (Nat × α), called.Sublist rest →
        called.filter (fun f => f.1 < e.1) = [] := by
      intro called hsub
      refine List.filter_eq_nil_iff.2 fun f hf => ?_
      simpa using Nat.le_of_lt (hlt f (hsub.subset hf))
    rw [List.foldl_cons]
    by_cases hclosed : e.1 ∈ closed moves
    · have hnot : ¬ (C.list s).contains e.1 = true := fun h => hcontains.1 h hclosed
      obtain ⟨called, hsub, hstate, hmem⟩ := ih hsorted hrest hs
      rw [if_neg hnot]
      refine ⟨called, hsub.cons e, hstate, List.forall_mem_cons.2 ⟨iff_of_false ?_ ?_, hmem⟩⟩
      · exact fun hc => Nat.lt_irrefl _ (hlt e (hsub.subset hc))
      · rw [hfirst called hsub]
        simpa [movesOf] using hclosed
    · have hs' : C.list (C.call e.2 s) = l.after (moves ++ C.moves e.2 s) := by
        rw [C.list_call, hs, after_append]
      obtain ⟨called, hsub, hstate, hmem⟩ := ih hsorted hrest hs'
      rw [if_pos (hcontains.2 hclosed)]
      refine ⟨e :: called, hsub.cons_cons e, hstate, List.forall_mem_cons.2
        ⟨iff_of_true List.mem_cons_self ?_, fun f hf => ?_⟩⟩
      · rw [List.filter_cons_of_neg (by simp), hfirst called hsub]
        simpa [movesOf] using hclosed
      · have hne : f ≠ e := by
          rintro rfl
          exact Nat.lt_irrefl _ (hlt f hf)
        rw [List.mem_cons, or_iff_right hne, hmem f hf,
          List.filter_cons_of_pos (by simpa using hlt f hf), movesOf, List.append_assoc]

theorem exists_dispatch (s : σ) : ∃ called, C.Dispatch s called := by
  have hs : C.list s = (C.list s).after [] := rfl
  obtain ⟨called, hsub, hstate, hmem⟩ := C.exists_called (C.list s).sorted (fun _ he => he) hs
  refine ⟨called, hstate, hsub, hmem, ?_⟩
  rw [show C.notify s = C.callAll called s from hstate, list_callAll, toList_after]

namespace Dispatch

variable {C} {s : σ} {called called' : List (Nat × α)} {e : Nat × α}

theorem sorted (D : C.Dispatch s called) : called.Pairwise fun e f => e.1 < f.1 :=
  (C.list s).sorted.sublist D.order

theorem unique (D : C.Dispatch s called) (D' : C.Dispatch s called') : called' = called := by
  -- The turns before a number settle those from it on.
  have hsame : ∀ n, ∀ e ∈ (C.list s).entries.toList, e.1 = n → (e ∈ called' ↔ e ∈ called) := by
    intro n
    induction n using Nat.strongRecOn with
    | ind n ih =>
      rintro e he rfl
      have hbefore : called'.filter (fun f => f.1 < e.1) = called.filter fun f => f.1 < e.1 := by
        refine eq_of_increasing (D'.sorted.filter _) (D.sorted.filter _) fun f => ?_
        simp only [List.mem_filter, decide_eq_true_eq]
        constructor
        · rintro ⟨hf, hlt⟩
          exact ⟨(ih _ hlt f (D'.order.subset hf) rfl).1 hf, hlt⟩
        · rintro ⟨hf, hlt⟩
          exact ⟨(ih _ hlt f (D.order.subset hf) rfl).2 hf, hlt⟩
      rw [D.mem_iff e he, D'.mem_iff e he, hbefore]
  refine eq_of_increasing D'.sorted D.sorted fun e => ⟨fun he => ?_, fun he => ?_⟩
  · exact (hsame _ e (D'.order.subset he) rfl).1 he
  · exact (hsame _ e (D.order.subset he) rfl).2 he

theorem not_mem_of_survivor (D : C.Dispatch s called)
    (he : e ∈ survivors (C.list s).nextId (C.movesOf called s)) : e ∉ called := fun hc =>
  Nat.not_le_of_lt ((C.list s).bound e (D.order.subset hc)) (Move.le_of_mem_survivors he)

theorem mem_of_survivor (D : C.Dispatch s called)
    (he : e ∈ survivors (C.list s).nextId (C.movesOf called s)) :
    e ∈ (C.list (C.notify s)).entries.toList := by
  rw [D.remains]
  exact List.mem_append_right _ he

theorem mem_iff_of_after (D : C.Dispatch s called) {l : ObserverList α} {moves : List (Move α)}
    (hs : C.list s = l.after moves) (he : e ∈ l.entries.toList) :
    e ∈ called ↔ e.1 ∉ closed (moves ++ C.movesOf (called.filter fun f => f.1 < e.1) s) := by
  have hhere : e ∈ (C.list s).entries.toList ↔ e.1 ∉ closed moves := by
    rw [hs, mem_after_iff he]
  rw [Move.closed_append, List.mem_append, not_or, ← hhere]
  exact ⟨fun hc => ⟨D.order.subset hc, (D.mem_iff e (D.order.subset hc)).1 hc⟩,
    fun h => (D.mem_iff e h.1).2 h.2⟩

end Dispatch

end Callbacks

end ObserverList

namespace Store

open ObserverList (Callbacks)

def Moved (c : Handle) (s s' : Store) : Prop :=
  ∃ moves, s'.observersOf c = (s.observersOf c).after moves

namespace Moved

variable {c : Handle} {s s₁ s₂ : Store}

theorem of_observers_eq (h : s₁.observers = s.observers) : Moved c s s₁ :=
  ⟨[], by rw [observersOf, h]; rfl⟩

theorem refl (c : Handle) (s : Store) : Moved c s s := of_observers_eq rfl

theorem trans (M : Moved c s s₁) (N : Moved c s₁ s₂) : Moved c s s₂ := by
  obtain ⟨moves, hm⟩ := M
  obtain ⟨moves', hn⟩ := N
  exact ⟨moves ++ moves', by rw [hn, hm, ObserverList.after_append]⟩

theorem setObservers (c d : Handle) (s : Store) (move : ObserverList.Move Observer) :
    Moved c s (s.setObservers d (move.apply (s.observersOf d))) := by
  by_cases h : c = d
  · subst h
    exact ⟨[move], by rw [observersOf_setObservers, if_pos rfl]; rfl⟩
  · exact ⟨[], by rw [observersOf_setObservers, if_neg h]; rfl⟩

theorem subscribe (c d : Handle) (s : Store) (o : Observer) : Moved c s (s.subscribe d o).2 :=
  setObservers c d s (.subscribe o)

theorem unsubscribe (c : Handle) (s : Store) (sub : Subscription) : Moved c s (s.unsubscribe sub) :=
  setObservers c sub.container s (.close sub.id)

theorem unsubscribeAll (c : Handle) (s : Store) (subs : List Subscription) :
    Moved c s (s.unsubscribeAll subs) := by
  induction subs generalizing s with
  | nil => exact refl c s
  | cons sub subs ih => exact (unsubscribe c s sub).trans (ih _)

theorem linkAll (c : Handle) (s : Store) (id : ObservationId) (i : Nat) (chain : List Handle)
    (steps : List Step) : Moved c s (s.linkAll id i chain steps).2 := by
  induction chain generalizing s i steps with
  | nil => exact refl c s
  | cons d chain ih =>
    cases steps with
    | nil => exact refl c s
    | cons step steps =>
      rw [Store.linkAll]
      split
      · exact (subscribe c d s (.link id i)).trans (ih _ _ _)
      · exact ih _ _ _

theorem subscribeContent (c : Handle) (s : Store) (id : ObservationId) (kind : Kind)
    (v : Option Value) : Moved c s (s.subscribeContent id kind v).2 := by
  rw [Store.subscribeContent.eq_def]
  split
  · next d =>
    split
    · exact subscribe c d s (.content id)
    · exact refl c s
  · exact refl c s

theorem relink (c : Handle) (s : Store) (id : ObservationId) (p : PathWatch) :
    Moved c s (s.relink id p).2 := by
  rw [Store.relink]
  split
  · exact refl c s
  · exact (unsubscribeAll c s p.links).trans (linkAll c _ id 0 _ _)

theorem putRelinked (c : Handle) (s : Store) (id : ObservationId) (o : Observation) (p : PathWatch)
    (last : Option Value) : Moved c s (s.putRelinked id o p last) :=
  (relink c s id p).trans (of_observers_eq rfl)

theorem moveContent (c : Handle) (s : Store) (id : ObservationId) (o : Observation)
    (new : Option Value) : Moved c s (s.moveContent id o new) :=
  ((subscribeContent c s id o.kind new).trans (unsubscribeAll c _ o.content.toList)).trans
    (of_observers_eq rfl)

theorem report (c : Handle) (s : Store) (o : Observation) (change : Change) :
    Moved c s (s.report o change) :=
  of_observers_eq rfl

theorem followCollection (c : Handle) (s : Store) (id : ObservationId) (o : Observation)
    (old new : Option Value) : Moved c s (s.followCollection id o old new) := by
  rw [followCollection_eq]
  split
  · exact refl c s
  · have hmove : Moved c s (if s.handleOf? o.kind new = o.content.map (·.container) then s
        else s.moveContent id o new) := by
      split
      · exact refl c s
      · exact moveContent c s id o new
    dsimp only
    split
    · exact hmove
    · exact hmove.trans (report c _ o _)

theorem refresh (c : Handle) (s : Store) (id : ObservationId) (direct : Bool) :
    Moved c s (s.refresh id direct) := by
  cases ho : s.observations.find? id with
  | none =>
    simp only [Store.refresh, ho]
    exact refl c s
  | some o =>
    cases hp : o.holder with
    | none =>
      simp only [Store.refresh, ho, hp]
      exact refl c s
    | some p =>
      rw [refresh_eq ho hp]
      dsimp only
      split
      · split
        · exact (putRelinked c s id o p _).trans (report c _ _ _)
        · exact (putRelinked c s id o p _).trans (followCollection c _ id _ _ _)
      · exact putRelinked c s id o p _

theorem deliver (c : Handle) (e : Event) (o : Observer) (s : Store) :
    Moved c s (s.deliver e o) := by
  cases o with
  | link id i =>
    rw [Store.deliver]
    split
    · split
      · rw [deliverLink_eq]
        split
        · exact refresh c s id _
        · exact refl c s
      · exact refl c s
    · exact refl c s
  | content id =>
    rw [Store.deliver]
    split
    · next o _ =>
      obtain ⟨change, h⟩ := deliverContent_eq s o e
      rw [h]
      exact report c s o change
    · exact refl c s

end Moved

theorem exists_callbacks (c : Handle) (e : Event) :
    ∃ C : Callbacks Observer Store,
      ∀ s, C.list s = s.observersOf c ∧ C.notify s = s.notify c e := by
  choose moves hmoves using fun o s => Moved.deliver c e o s
  exact ⟨⟨(·.observersOf c), deliver e, moves, hmoves⟩, fun s => ⟨rfl, rfl⟩⟩

theorem unsubscribe_of_find?_eq_none {s : Store} {sub : Subscription}
    (h : s.observers.find? sub.container = none) :
    { s.unsubscribe sub with observers := s.observers } = s ∧
      ∀ c, (s.unsubscribe sub).observersOf c = s.observersOf c := by
  refine ⟨rfl, fun c => ?_⟩
  rw [unsubscribe, observersOf_setObservers]
  split
  · next hc =>
    rw [hc, observersOf, h]
    rfl
  · rfl

end Store

namespace ObserverList.Callbacks

open Move (closed survivors)

/-- While a list is notified its observers may subscribe others and close whatever they like. Which
of them are called is settled by their numbers and by what those called before them closed; what
subscribes meanwhile is not called, and is called by the next notification unless it is closed
before its turn comes there. Whatever is done to a list, it holds its observers in the order in
which they subscribed. Closing a subscription again does nothing, nor does closing one of a list
that is gone. The observers of a container are such callbacks. -/
theorem dispatch_reentrant (C : Callbacks α σ) (s : σ) :
    (∃ called, C.Dispatch s called ∧ (∀ called', C.Dispatch s called' → called' = called) ∧
      ∀ e ∈ survivors (C.list s).nextId (C.movesOf called s), e ∉ called ∧
        ∀ (D : Callbacks α σ) (t : σ) (between : List (Move α)) (later : List (Nat × α)),
          D.list t = (C.list (C.notify s)).after between → D.Dispatch t later →
            (e ∈ later ↔
              e.1 ∉ closed (between ++ D.movesOf (later.filter fun f => f.1 < e.1) t))) ∧
    (∀ moves : List (Move α),
      ((∅ : ObserverList α).after moves).entries.toList = survivors 0 moves) ∧
    (∀ (l : ObserverList α) (moves : List (Move α)), ∀ id ∈ closed moves, id < l.nextId →
      (l.after moves).close id = l.after moves) ∧
    (∀ (t : Store) (sub : Subscription), t.observers.find? sub.container = none →
      { t.unsubscribe sub with observers := t.observers } = t ∧
        ∀ c, (t.unsubscribe sub).observersOf c = t.observersOf c) ∧
    ∀ c e, ∃ D : Callbacks Observer Store,
      ∀ t, D.list t = t.observersOf c ∧ D.notify t = t.notify c e := by
  refine ⟨?_, toList_after ∅, fun _ _ _ h hid => close_of_mem_closed hid h,
    fun _ _ h => Store.unsubscribe_of_find?_eq_none h, Store.exists_callbacks⟩
  obtain ⟨called, D⟩ := C.exists_dispatch s
  refine ⟨called, D, fun _ D' => D.unique D', fun e he => ⟨D.not_mem_of_survivor he, ?_⟩⟩
  intro E t between later ht L
  exact L.mem_iff_of_after ht (D.mem_of_survivor he)

end ObserverList.Callbacks

end ReactivePage
