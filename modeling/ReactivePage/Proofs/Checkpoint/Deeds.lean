import ReactivePage.Proofs.Checkpoint.Turns
import ReactivePage.Proofs.Watch.Causes

namespace ReactivePage

theorem Signal.length_filterMap_notification? (signals : List Signal) :
    (signals.filterMap notification?).length = signals.countP isChange := by
  rw [List.length_filterMap_eq_countP]
  congr 1
  funext signal
  cases signal with
  | change n => rfl
  | wake => rfl

inductive Deed
  | write (w : Write) (reports : List Notification)
  | wake

namespace Deed

def reports : Deed → List Notification
  | write _ reports => reports
  | wake => []

def signals : Deed → List Signal
  | write _ reports => reports.map .change
  | wake => [.wake]

def isWake : Deed → Bool
  | write _ _ => false
  | wake => true

theorem filterMap_signals (deeds : List Deed) :
    (deeds.flatMap signals).filterMap Signal.notification? = deeds.flatMap reports := by
  induction deeds with
  | nil => rfl
  | cons deed rest ih =>
    rw [List.flatMap_cons, List.flatMap_cons, List.filterMap_append, ih]
    cases deed with
    | write w ns => rw [signals, reports, filterMap_notification?_changes]
    | wake => rfl

theorem countP_signals (deeds : List Deed) :
    (deeds.flatMap signals).countP Signal.isWake = deeds.countP isWake := by
  induction deeds with
  | nil => rfl
  | cons deed rest ih =>
    rw [List.flatMap_cons, List.countP_append, ih, List.countP_cons, Nat.add_comm]
    cases deed with
    | write w ns => simp [signals, isWake, Signal.isWake, List.countP_map, Function.comp_def]
    | wake => rfl

end Deed

namespace Action

variable {α : Type}

def deeds (k : ChannelId) : Action α → Store → List Deed
  | done _, _ => []
  | read next, s => (next s.heap).deeds k s
  | create contents next, s =>
    let (c, heap) := s.heap.create contents
    (next c).deeds k { s with heap }
  | load json next, s =>
    let (v, heap) := s.heap.ofJson json
    (next v).deeds k { s with heap }
  | write w next, s => .write w (s.caused k w) :: next.deeds k (s.write w)
  | wake channel next, s =>
    let (delivered, s) := s.send channel .wake
    (if channel = k then [.wake] else []) ++ (next delivered).deeds k s
  | render label value next, s =>
    next.deeds k { s with rendered := s.rendered ++ [(label, value)] }

theorem raises_run (a : Action α) (s : Store) (k : ChannelId) :
    Store.Raises k s ((a.deeds k s).flatMap Deed.signals) (a.run s).2 := by
  induction a generalizing s with
  | done result => exact .quiet rfl
  | read next ih => exact ih _ s
  | create contents next ih => exact (ih _ _).of_quiet rfl
  | load json next ih => exact (ih _ _).of_quiet rfl
  | write w next ih => exact (s.raises_write k w).trans (ih _)
  | wake channel next ih =>
    by_cases hk : channel = k
    · subst hk
      simp only [deeds, if_true]
      exact (Store.Raises.send s .wake).trans (ih _ _)
    · simp only [deeds, if_neg hk]
      exact (Store.Raises.elsewhere s .wake hk).trans (ih _ _)
  | render label value next ih => exact (ih _).of_quiet rfl

end Action

namespace Scheduler

variable {σ : Type}

def turnDeeds (k : ChannelId) (evaluator : Evaluator) (b : Binding σ) (s : Store) : List Deed :=
  match b.value.evaluate (evaluator.evaluate s.heap b.scope) with
  | .ok value => (b.target.receive value b.target.memory).deeds k s
  | .error _ => []

def turnsDeeds (k : ChannelId) (evaluator : Evaluator) :
    List (BindingId × Binding σ) → Store → List Deed
  | [], _ => []
  | (_, b) :: rest, s =>
    turnDeeds k evaluator b s ++ turnsDeeds k evaluator rest (refresh evaluator b s).2

def deeds (d : Scheduler σ) (s : Store) (received : List Signal) : List Deed :=
  turnsDeeds d.channel d.evaluator (d.affected s received) (s.drain d.channel).2

theorem raises_refresh (k : ChannelId) (evaluator : Evaluator) (b : Binding σ) (s : Store) :
    Store.Raises k s ((turnDeeds k evaluator b s).flatMap Deed.signals)
      (refresh evaluator b s).2 := by
  rw [turnDeeds, refresh]
  cases b.value.evaluate (evaluator.evaluate s.heap b.scope) with
  | error e => exact .quiet rfl
  | ok value => exact (b.target.receive value b.target.memory).raises_run s k

theorem raises_refreshAll (k : ChannelId) (evaluator : Evaluator)
    (bindings : List (BindingId × Binding σ)) (s : Store) :
    Store.Raises k s ((turnsDeeds k evaluator bindings s).flatMap Deed.signals)
      (refreshAll evaluator bindings s).2 := by
  induction bindings generalizing s with
  | nil => exact .quiet rfl
  | cons e rest ih =>
    rw [turnsDeeds, List.flatMap_append]
    exact (raises_refresh k evaluator e.2 s).trans (ih _)

theorem raises_checkpointWith (d : Scheduler σ) (s : Store) (received : List Signal) :
    Store.Raises d.channel (s.drain d.channel).2 ((d.deeds s received).flatMap Deed.signals)
      (d.checkpointWith s received).2.2 :=
  raises_refreshAll _ _ _ _

end Scheduler

namespace Store

structure Alike (s t : Store) : Prop where
  twins : ∃ cs, t = s.withChannels cs
  isOpen : ∀ k, (t.channel k).isOpen = (s.channel k).isOpen

namespace Alike

variable {s t u : Store} {k : ChannelId}

theorem symm (A : s.Alike t) : t.Alike s where
  twins := by
    obtain ⟨cs, rfl⟩ := A.twins
    exact ⟨s.channels, rfl⟩
  isOpen := fun k => (A.isOpen k).symm

theorem trans (A : s.Alike t) (B : t.Alike u) : s.Alike u where
  twins := by
    obtain ⟨cs, rfl⟩ := A.twins
    obtain ⟨cs', rfl⟩ := B.twins
    exact ⟨cs', rfl⟩
  isOpen := fun k => (B.isOpen k).trans (A.isOpen k)

theorem setChannel {c : Channel} (h : c.isOpen = (s.channel k).isOpen) :
    s.Alike (s.setChannel k c) where
  twins := ⟨_, rfl⟩
  isOpen := by
    intro j
    rw [channel_setChannel]
    split
    · next hj => rw [h, hj]
    · rfl

theorem drain (s : Store) (k : ChannelId) : s.Alike (s.drain k).2 := setChannel rfl

theorem heap (A : s.Alike t) : t.heap = s.heap := by
  obtain ⟨cs, rfl⟩ := A.twins
  rfl

theorem withHeap (A : s.Alike t) (h : Heap) : Alike { s with heap := h } { t with heap := h } := by
  obtain ⟨cs, rfl⟩ := A.twins
  exact ⟨⟨cs, rfl⟩, A.isOpen⟩

theorem withRendered (A : s.Alike t) (rendered : List (String × Json)) :
    Alike { s with rendered } { t with rendered } := by
  obtain ⟨cs, rfl⟩ := A.twins
  exact ⟨⟨cs, rfl⟩, A.isOpen⟩

theorem write (A : s.Alike t) (w : Write) : (s.write w).Alike (t.write w) := by
  obtain ⟨cs, rfl⟩ := A.twins
  refine ⟨(InStep.write s cs w).twins, fun k => ?_⟩
  obtain ⟨ns, -, hs, ht⟩ := (InStep.write s cs w).raises k
  rw [ht.isOpen, hs.isOpen]
  exact A.isOpen k

theorem caused (A : s.Alike t) (k : ChannelId) (w : Write) : t.caused k w = s.caused k w := by
  obtain ⟨cs, rfl⟩ := A.twins
  obtain ⟨ns, -, hs, ht⟩ := (InStep.write (s.detach k) ((s.withChannels cs).detach k).channels
    w).raises k
  rw [caused_eq_of_raises hs]
  exact caused_eq_of_raises ht

theorem send (A : s.Alike t) (j : ChannelId) (signal : Signal) :
    (t.send j signal).1 = (s.send j signal).1 ∧ (s.send j signal).2.Alike (t.send j signal).2 :=
  ⟨A.isOpen j, (setChannel (Channel.isOpen_send _ _)).symm.trans
    (A.trans (setChannel (Channel.isOpen_send _ _)))⟩

end Alike

end Store

namespace Action

variable {α : Type} {s t : Store}

theorem run_alike (A : s.Alike t) (a : Action α) :
    (a.run t).1 = (a.run s).1 ∧ (a.run s).2.Alike (a.run t).2 ∧
      ∀ k, a.deeds k t = a.deeds k s := by
  induction a generalizing s t with
  | done result => exact ⟨rfl, A, fun _ => rfl⟩
  | read next ih =>
    simp only [run, deeds, A.heap]
    exact ih _ A
  | create contents next ih =>
    simp only [run, deeds, A.heap]
    exact ih _ (A.withHeap _)
  | load json next ih =>
    simp only [run, deeds, A.heap]
    exact ih _ (A.withHeap _)
  | write w next ih =>
    obtain ⟨hresult, hstore, hdeeds⟩ := ih (A.write w)
    refine ⟨hresult, hstore, fun k => ?_⟩
    rw [deeds, deeds, A.caused, hdeeds]
  | wake channel next ih =>
    obtain ⟨hsent, hstore⟩ := A.send channel .wake
    simp only [run, deeds, hsent]
    obtain ⟨hresult, hstore', hdeeds⟩ := ih _ hstore
    exact ⟨hresult, hstore', fun k => by rw [hdeeds]⟩
  | render label value next ih =>
    have hrendered : t.rendered = s.rendered := by
      obtain ⟨cs, rfl⟩ := A.twins
      rfl
    simp only [run, deeds, hrendered]
    exact ih (A.withRendered _)

end Action

namespace Scheduler

variable {σ : Type} {s t : Store}

theorem refresh_alike (A : s.Alike t) (evaluator : Evaluator) (b : Binding σ) :
    (refresh evaluator b t).1 = (refresh evaluator b s).1 ∧
      (refresh evaluator b s).2.Alike (refresh evaluator b t).2 ∧
      ∀ k, turnDeeds k evaluator b t = turnDeeds k evaluator b s := by
  simp only [refresh, turnDeeds, A.heap]
  cases b.value.evaluate (evaluator.evaluate s.heap b.scope) with
  | error e => exact ⟨rfl, A, fun _ => rfl⟩
  | ok value =>
    obtain ⟨hresult, hstore, hdeeds⟩ :=
      (b.target.receive value b.target.memory).run_alike A
    simp only [BindingTarget.run, hresult]
    exact ⟨trivial, hstore, hdeeds⟩

theorem refreshAll_alike (A : s.Alike t) (evaluator : Evaluator)
    (bindings : List (BindingId × Binding σ)) :
    (refreshAll evaluator bindings t).1 = (refreshAll evaluator bindings s).1 ∧
      (refreshAll evaluator bindings s).2.Alike (refreshAll evaluator bindings t).2 ∧
      ∀ k, turnsDeeds k evaluator bindings t = turnsDeeds k evaluator bindings s := by
  induction bindings generalizing s t with
  | nil => exact ⟨rfl, A, fun _ => rfl⟩
  | cons e rest ih =>
    obtain ⟨hresult, hstore, hdeeds⟩ := refresh_alike A evaluator e.2
    obtain ⟨hresults, hstore', hdeeds'⟩ := ih hstore
    simp only [refreshAll, turnsDeeds, hresult, hresults, hdeeds, hdeeds']
    exact ⟨trivial, hstore', fun _ => trivial⟩

end Scheduler

end ReactivePage
