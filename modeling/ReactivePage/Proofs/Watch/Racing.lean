import ReactivePage.Proofs.Trace
import ReactivePage.Watch.Channel
import Mathlib.Logic.Function.Basic

/-!
Threads that send while a channel is drained.

A send raises the flag and then queues its signal; a drain lowers the flag and then takes all that
is queued; and between the two steps of one thread others may take theirs. When nothing is half
done, signals are queued under a lowered flag in one case only: a send had raised the flag before a
drain lowered it, and queued its signal after the drain had taken all.
-/

namespace ReactivePage

/-- A channel with the signals that were announced and are not queued yet, by sender. -/
structure Traffic where
  channel : Channel
  sending : Nat → Option Signal
  draining : Bool

namespace Traffic

inductive Move
  | mark (sender : Nat) (signal : Signal)
  | enqueue (sender : Nat)
  | unmark
  | takeAll

namespace Move

def isMark : Move → Bool
  | mark _ _ => true
  | _ => false

def isEnqueue : Move → Bool
  | enqueue _ => true
  | _ => false

def isUnmark : Move → Bool
  | unmark => true
  | _ => false

def isTake : Move → Bool
  | takeAll => true
  | _ => false

end Move

def start : Traffic := ⟨Channel.empty, fun _ => none, false⟩

inductive Step : Traffic → Move → Traffic → Prop
  | mark {T : Traffic} {i : Nat} (signal : Signal) : T.sending i = none →
      Step T (.mark i signal)
        { T with
          channel := T.channel.mark
          sending := Function.update T.sending i (some signal) }
  | enqueue {T : Traffic} {i : Nat} {signal : Signal} : T.sending i = some signal →
      Step T (.enqueue i)
        { T with
          channel := T.channel.enqueue signal
          sending := Function.update T.sending i none }
  | unmark {T : Traffic} : T.draining = false →
      Step T .unmark { T with channel := T.channel.unmark, draining := true }
  | takeAll {T : Traffic} : T.draining = true →
      Step T .takeAll { T with channel := T.channel.takeAll.2, draining := false }

inductive Run : List Move → Traffic → Prop
  | start : Run [] start
  | step {moves : List Move} {T T' : Traffic} {m : Move} :
      Run moves T → Step T m T' → Run (moves ++ [m]) T'

def Settled (T : Traffic) : Prop := (∀ i, T.sending i = none) ∧ T.draining = false

variable {moves : List Move} {T T' : Traffic} {m : Move}

open Trace (Recent recent_concat not_recent_nil)

theorem Run.isOpen (h : Run moves T) : T.channel.isOpen = true := by
  induction h with
  | start => rfl
  | step _ hstep ih =>
    cases hstep with
    | mark signal hi => exact ih
    | enqueue hi =>
      simp only [Channel.enqueue, ih, if_true]
    | unmark hd => exact ih
    | takeAll hd => exact ih

theorem Run.due_iff (h : Run moves T) :
    T.channel.due = true ↔ Recent Move.isMark Move.isUnmark moves := by
  induction h with
  | start => simp [Traffic.start, Channel.empty, not_recent_nil]
  | step hrun hstep ih =>
    rw [recent_concat, ← ih]
    cases hstep with
    | mark signal hi => simp [Move.isMark, Channel.mark]
    | enqueue hi => simp [Move.isMark, Move.isUnmark, Channel.enqueue, hrun.isOpen]
    | unmark hd => simp [Move.isMark, Move.isUnmark, Channel.unmark]
    | takeAll hd => simp [Move.isMark, Move.isUnmark, Channel.takeAll]

theorem Run.queue_ne_nil_iff (h : Run moves T) :
    T.channel.queue ≠ [] ↔ Recent Move.isEnqueue Move.isTake moves := by
  induction h with
  | start => simp [Traffic.start, Channel.empty, not_recent_nil]
  | step hrun hstep ih =>
    rw [recent_concat, ← ih]
    cases hstep with
    | mark signal hi => simp [Move.isEnqueue, Move.isTake, Channel.mark]
    | enqueue hi => simp [Move.isEnqueue, Channel.enqueue, hrun.isOpen]
    | unmark hd => simp [Move.isEnqueue, Move.isTake, Channel.unmark]
    | takeAll hd => simp [Move.isEnqueue, Move.isTake, Channel.takeAll]

theorem Run.draining_iff (h : Run moves T) :
    T.draining = true ↔ Recent Move.isUnmark Move.isTake moves := by
  induction h with
  | start => simp [Traffic.start, not_recent_nil]
  | step hrun hstep ih =>
    rw [recent_concat, ← ih]
    cases hstep with
    | mark signal hi => simp [Move.isUnmark, Move.isTake]
    | enqueue hi => simp [Move.isUnmark, Move.isTake]
    | unmark hd => simp [Move.isUnmark]
    | takeAll hd => simp [Move.isUnmark, Move.isTake]

theorem Run.exists_mark (h : Run moves T)
    (hsent : (∃ i, T.sending i ≠ none) ∨ T.channel.queue ≠ []) : ∃ m ∈ moves, m.isMark = true := by
  induction h with
  | start => simp [Traffic.start, Channel.empty] at hsent
  | @step moves T T' m hrun hstep ih =>
    have hold : (∃ i, T.sending i ≠ none) ∨ T.channel.queue ≠ [] →
        ∃ x ∈ moves ++ [m], x.isMark = true := by
      intro h
      obtain ⟨x, hx, hmark⟩ := ih h
      exact ⟨x, List.mem_append_left _ hx, hmark⟩
    cases hstep with
    | mark signal hi => exact ⟨_, List.mem_append_right _ (List.mem_singleton_self _), rfl⟩
    | @enqueue i signal hi => exact hold (.inl ⟨i, by simp [hi]⟩)
    | unmark hd => exact hold hsent
    | takeAll hd =>
      refine hold (hsent.imp_right fun h => absurd ?_ h)
      rfl

/-- A drain lowered the flag and took all that was queued; later a send queued its signal, whose
flag had been raised before, and nothing has raised it since. -/
def Overtaken (moves : List Move) : Prop :=
  ∃ before between after,
    moves = before ++ .unmark :: between ++ .takeAll :: after ∧
    (∃ m ∈ after, m.isEnqueue = true) ∧ (∀ m ∈ after, m.isTake = false) ∧
    ∀ m ∈ between ++ .takeAll :: after, m.isMark = false ∧ m.isUnmark = false

theorem Run.overtaken (h : Run moves T) (hdrained : T.draining = false)
    (hqueue : T.channel.queue ≠ []) (hdue : T.channel.due = false) : Overtaken moves := by
  have hunmarked : ¬ Recent Move.isMark Move.isUnmark moves := by simp [← h.due_iff, hdue]
  have htaken : ¬ Recent Move.isUnmark Move.isTake moves := by simp [← h.draining_iff, hdrained]
  -- some send raised the flag, so some drain has lowered it: the last one that did
  obtain ⟨x, hx, hmark⟩ := h.exists_mark (.inr hqueue)
  obtain ⟨a, b, rfl⟩ := List.append_of_mem hx
  have hlowered : ∃ m ∈ a ++ x :: b, m.isUnmark = true := by
    by_contra hnone
    simp only [not_exists, not_and, Bool.not_eq_true] at hnone
    exact hunmarked ⟨a, x, b, rfl, hmark, fun m hm => hnone m (by simp [hm])⟩
  obtain ⟨m, hm, hunmark⟩ := hlowered
  obtain ⟨before, y, rest, hsplit, hy, hrest⟩ := Trace.recent_of_mem hm hunmark
  rw [hsplit] at hunmarked htaken h
  rw [hsplit]
  have hnomark : ∀ z ∈ rest, z.isMark = false := by
    intro z hz
    obtain ⟨c, d, rfl⟩ := List.append_of_mem hz
    rw [← Bool.not_eq_true]
    intro hzmark
    exact hunmarked ⟨before ++ y :: c, z, d, by simp, hzmark, fun m hm => hrest m (by simp [hm])⟩
  -- the drain has taken the queue since: the last time that this was done
  have htake : ∃ m ∈ rest, m.isTake = true := by
    by_contra hnone
    simp only [not_exists, not_and, Bool.not_eq_true] at hnone
    exact htaken ⟨before, y, rest, rfl, hy, hnone⟩
  obtain ⟨t, ht, htake⟩ := htake
  obtain ⟨between, z, after, rfl, hz, hafter⟩ := Trace.recent_of_mem ht htake
  have hlater : ∃ m ∈ after, m.isEnqueue = true := by
    by_contra hnone
    simp only [not_exists, not_and, Bool.not_eq_true] at hnone
    have hrecent := h.queue_ne_nil_iff.1 hqueue
    have hlist : before ++ y :: (between ++ z :: after)
        = (before ++ y :: between ++ [z]) ++ after := by simp
    rw [hlist, Trace.recent_append fun m hm => ⟨hnone m hm, hafter m hm⟩, recent_concat] at hrecent
    rcases hrecent with hz' | ⟨hz', -⟩
    · cases z with
      | enqueue i => cases hz
      | _ => cases hz'
    · cases hz'.symm.trans hz
  cases y with
  | unmark =>
    cases z with
    | takeAll =>
      refine ⟨before, between, after, by simp, hlater, hafter, fun m hm => ?_⟩
      exact ⟨hnomark m hm, hrest m hm⟩
    | _ => cases hz
  | _ => cases hy

theorem Run.due_of_overtaken (h : Run moves T) (ho : Overtaken moves) :
    T.channel.queue ≠ [] ∧ T.channel.due = false := by
  obtain ⟨before, between, after, rfl, ⟨m, hm, henqueue⟩, hafter, hflag⟩ := ho
  constructor
  · rw [h.queue_ne_nil_iff]
    obtain ⟨c, d, rfl⟩ := List.append_of_mem hm
    exact ⟨before ++ .unmark :: between ++ .takeAll :: c, m, d, by simp, henqueue,
      fun z hz => hafter z (by simp [hz])⟩
  · rw [← Bool.not_eq_true, h.due_iff, List.append_assoc, List.cons_append, List.append_cons,
      Trace.recent_append hflag, recent_concat]
    simp [Move.isMark, Move.isUnmark]

/-- When nothing is half done, what is queued is due, unless a drain has overtaken a send. -/
theorem Run.due_iff_not_overtaken (h : Run moves T) (hs : T.Settled) :
    (T.channel.queue ≠ [] → T.channel.due = true) ↔ ¬ Overtaken moves := by
  constructor
  · intro hdue ho
    obtain ⟨hqueue, hlow⟩ := h.due_of_overtaken ho
    rw [hdue hqueue] at hlow
    cases hlow
  · intro ho hqueue
    by_contra hlow
    exact ho (h.overtaken hs.2 hqueue (Bool.not_eq_true _ ▸ hlow))

def overtakenMoves : List Move := [.mark 0 .wake, .unmark, .takeAll, .enqueue 0]

def overtakenTraffic : Traffic where
  channel := ⟨false, [.wake], true⟩
  sending := Function.update (Function.update (fun _ => none) 0 (some .wake)) 0 none
  draining := false

theorem run_overtaken : Run overtakenMoves overtakenTraffic :=
  .step (.step (.step (.step .start (.mark .wake rfl)) (.unmark rfl)) (.takeAll rfl))
    (.enqueue rfl)

theorem settled_overtaken : overtakenTraffic.Settled := by
  refine ⟨fun i => ?_, rfl⟩
  simp [overtakenTraffic]

/-- Here nothing is half done and a wake is queued, and no checkpoint is due. -/
theorem not_due_of_queue_ne_nil : ¬ ∀ moves T, Run moves T → T.Settled →
    T.channel.queue ≠ [] → T.channel.due = true := by
  intro h
  cases h overtakenMoves overtakenTraffic run_overtaken settled_overtaken
    (by simp [overtakenTraffic])

theorem due_iff_not_overtaken_wake :
    Run overtakenMoves overtakenTraffic ∧ overtakenTraffic.Settled ∧ Overtaken overtakenMoves := by
  refine ⟨run_overtaken, settled_overtaken, ?_⟩
  by_contra ho
  cases (run_overtaken.due_iff_not_overtaken settled_overtaken).2 ho (by simp [overtakenTraffic])

end Traffic

end ReactivePage
