import ReactivePage.Proofs.Checkpoint.Deeds
import ReactivePage.Proofs.Checkpoint.Management

/-!
Threads around a scheduler.

Handles and listeners on other threads ask for checkpoints while the scheduler's own thread runs
programs, takes checkpoints and waits for them. The threads share the channel and nothing else. A
send is two steps, a drain lowers the flag and takes signal after signal, and between two steps of
one thread others may take theirs. Programs cannot look at the channel: one runs in a single step on
a channel of its own, and what came there is then sent on the shared one, signal by signal.

Whatever the order of the steps, every signal sent is queued once or was counted by one checkpoint,
and changes are counted in the order in which they were caused.
-/

namespace ReactivePage

inductive Stage
  | resting
  | holding
  | midway

inductive Thread
  | handle (calls : Nat) (midway : Bool)
  | listener (arrived waiting calls : Nat) (stage : Stage)

namespace Thread

def calls : Thread → Nat
  | handle calls _ => calls
  | listener _ _ calls _ => calls

def inFlight : Thread → Nat
  | handle _ true => 1
  | listener _ _ _ .midway => 1
  | _ => 0

def isResting : Thread → Bool
  | handle _ midway => !midway
  | listener _ _ _ .resting => true
  | _ => false

def Faithful : Thread → Prop
  | handle _ _ => True
  | listener arrived waiting calls .holding => calls + waiting + 1 = arrived
  | listener arrived waiting calls _ => calls + waiting = arrived

inductive Step : Thread → (Channel → Channel) → Thread → Prop
  | call {n : Nat} : Step (handle n false) Channel.mark (handle (n + 1) true)
  | queueCall {n : Nat} : Step (handle n true) (·.enqueue .wake) (handle n false)
  | arrive {arrived waiting n : Nat} {stage : Stage} :
      Step (listener arrived waiting n stage) id (listener (arrived + 1) (waiting + 1) n stage)
  | pick {arrived waiting n : Nat} :
      Step (listener arrived (waiting + 1) n .resting) id (listener arrived waiting n .holding)
  | forward {arrived waiting n : Nat} :
      Step (listener arrived waiting n .holding) Channel.mark
        (listener arrived waiting (n + 1) .midway)
  | queueForward {arrived waiting n : Nat} :
      Step (listener arrived waiting n .midway) (·.enqueue .wake)
        (listener arrived waiting n .resting)

variable {t t' : Thread} {f : Channel → Channel} {c : Channel}

theorem Step.faithful (h : Step t f t') (ht : t.Faithful) : t'.Faithful := by
  cases h with
  | call => trivial
  | queueCall => trivial
  | @arrive arrived waiting n stage =>
    cases stage <;> simp only [Faithful] at ht ⊢ <;> omega
  | pick =>
    simp only [Faithful] at ht ⊢
    omega
  | forward =>
    simp only [Faithful] at ht ⊢
    omega
  | queueForward => exact ht

theorem Step.isOpen (h : Step t f t') (ho : c.isOpen = true) : (f c).isOpen = true := by
  cases h <;> simp [Channel.mark, Channel.enqueue, ho]

theorem Step.queue (h : Step t f t') (ho : c.isOpen = true) :
    ∃ n, (f c).queue = c.queue ++ List.replicate n .wake ∧
      n + t'.inFlight + t.calls = t.inFlight + t'.calls := by
  cases h with
  | call => exact ⟨0, by simp [Channel.mark], by simp [inFlight, calls]; omega⟩
  | queueCall => exact ⟨1, by simp [Channel.enqueue, ho], by simp [inFlight, calls]⟩
  | @arrive arrived waiting n stage =>
    exact ⟨0, by simp, by cases stage <;> simp [inFlight, calls]⟩
  | pick => exact ⟨0, by simp, by simp [inFlight, calls]⟩
  | forward => exact ⟨0, by simp [Channel.mark], by simp [inFlight, calls]; omega⟩
  | queueForward => exact ⟨1, by simp [Channel.enqueue, ho], by simp [inFlight, calls]⟩

theorem inFlight_of_isResting (h : t.isResting = true) : t.inFlight = 0 := by
  cases t with
  | handle calls midway =>
    cases midway with
    | true => cases h
    | false => rfl
  | listener arrived waiting calls stage =>
    cases stage with
    | resting => rfl
    | holding => rfl
    | midway => cases h

end Thread

inductive Job
  | idle
  | blocked
  | due (received : List Signal)
  | draining (received : List Signal)
  | evaluating (received : List Signal)
  | sending (signals : List Signal)
  | midway (signal : Signal) (rest : List Signal)

namespace Job

@[simp] def received : Job → List Signal
  | idle => []
  | blocked => []
  | due received => received
  | draining received => received
  | evaluating received => received
  | sending _ => []
  | midway _ _ => []

@[simp] def outbox : Job → List Signal
  | idle => []
  | blocked => []
  | due _ => []
  | draining _ => []
  | evaluating _ => []
  | sending signals => signals
  | midway signal rest => signal :: rest

end Job

theorem Channel.receive_eq_some {c c' : Channel} {signal : Signal}
    (h : c.receive = (some signal, c')) :
    c.queue = signal :: c'.queue ∧ c'.isOpen = c.isOpen := by
  rw [receive] at h
  split at h
  · cases h
  · next hqueue =>
    cases h
    exact ⟨hqueue, rfl⟩

namespace Session

variable {σ : Type}

def channel (S : Session σ) : Channel := S.store.channel S.scheduler.channel

def withChannel (S : Session σ) (c : Channel) : Session σ :=
  { S with store := S.store.setChannel S.scheduler.channel c }

/-- The store with a channel of its own for the scheduler. -/
def detached (S : Session σ) : Store := S.store.detach S.scheduler.channel

@[simp] theorem channel_withChannel (S : Session σ) (c : Channel) :
    (S.withChannel c).channel = c := by
  rw [channel, withChannel, Store.channel_setChannel, if_pos rfl]

end Session

/-- A session among threads. `checkpoints` are the signals of each checkpoint with its report, and
`deeds` all that programs have done. -/
structure World (σ : Type) where
  session : Session σ
  job : Job
  threads : List Thread
  checkpoints : List (List Signal × Report)
  deeds : List Deed

namespace World

variable {σ : Type}

def start (settings : SchedulerSettings) (evaluator : Evaluator) : World σ :=
  ⟨.start settings evaluator, .idle, [], [], []⟩

/-- The scheduler's thread has run something on a channel of its own. What came there is to be
sent. -/
def outgoing (W : World σ) (scheduler : Scheduler σ) (store : Store) (deeds : List Deed) :
    World σ where
  session := Session.withChannel ⟨scheduler, store⟩ W.session.channel
  job := .sending (store.channel scheduler.channel).queue
  threads := W.threads
  checkpoints := W.checkpoints
  deeds := W.deeds ++ deeds

inductive Step : World σ → World σ → Prop
  | spawn {W : World σ} {t : Thread} : t = .handle 0 false ∨ t = .listener 0 0 0 .resting →
      Step W { W with threads := t :: W.threads }
  | thread {W : World σ} (before after : List Thread) {t t' : Thread} {f : Channel → Channel} :
      W.threads = before ++ t :: after → t.Step f t' →
      Step W { W with
        session := W.session.withChannel (f W.session.channel)
        threads := before ++ t' :: after }
  | act {W : World σ} (program : Action Unit) : W.job = .idle →
      Step W (W.outgoing W.session.scheduler (program.run W.session.detached).2
        (program.deeds W.session.scheduler.channel W.session.detached))
  | manage {W : World σ} (op : Operation σ) : op.isManagement = true → W.job = .idle →
      Step W { W with session := W.session.perform op }
  | checkpoint {W : World σ} : W.job = .idle → Step W { W with job := .due [] }
  | whenDue {W : World σ} : W.job = .idle →
      W.session.scheduler.settings.autoCheckpoint = true → W.session.channel.due = true →
      Step W { W with job := .due [] }
  | block {W : World σ} : W.job = .idle →
      W.session.scheduler.settings.autoCheckpoint = true → W.session.channel.due = false →
      Step W { W with job := .blocked }
  | timeOut {W : World σ} : W.job = .blocked → Step W { W with job := .idle }
  | receive {W : World σ} {signal : Signal} {c : Channel} : W.job = .blocked →
      W.session.channel.receive = (some signal, c) →
      Step W { W with session := W.session.withChannel c, job := .due [signal] }
  | unmark {W : World σ} {received : List Signal} : W.job = .due received →
      Step W { W with
        session := W.session.withChannel W.session.channel.unmark
        job := .draining received }
  | take {W : World σ} {received : List Signal} {signal : Signal} {c : Channel} :
      W.job = .draining received → W.session.channel.receive = (some signal, c) →
      Step W { W with
        session := W.session.withChannel c
        job := .draining (received ++ [signal]) }
  | drained {W : World σ} {received : List Signal} : W.job = .draining received →
      W.session.channel.queue = [] → Step W { W with job := .evaluating received }
  | evaluate {W : World σ} {received : List Signal} {report : Report} {scheduler : Scheduler σ}
      {store : Store} : W.job = .evaluating received →
      W.session.scheduler.checkpointWith W.session.detached received
        = (report, scheduler, store) →
      Step W { W.outgoing scheduler store (W.session.scheduler.deeds W.session.detached received)
        with checkpoints := W.checkpoints ++ [(received, report)] }
  | raise {W : World σ} {signal : Signal} {rest : List Signal} :
      W.job = .sending (signal :: rest) →
      Step W { W with
        session := W.session.withChannel W.session.channel.mark
        job := .midway signal rest }
  | queue {W : World σ} {signal : Signal} {rest : List Signal} :
      W.job = .midway signal rest →
      Step W { W with
        session := W.session.withChannel (W.session.channel.enqueue signal)
        job := .sending rest }
  | finish {W : World σ} : W.job = .sending [] → Step W { W with job := .idle }

inductive Reachable (settings : SchedulerSettings) (evaluator : Evaluator) : World σ → Prop
  | start : Reachable settings evaluator (start settings evaluator)
  | step {W W' : World σ} : Reachable settings evaluator W → Step W W' →
      Reachable settings evaluator W'

def Settled (W : World σ) : Prop := W.job = .idle ∧ ∀ t ∈ W.threads, t.isResting = true

def drained (W : World σ) : List Signal := W.checkpoints.flatMap Prod.fst

def trail (W : World σ) : List Signal :=
  W.drained ++ (W.job.received ++ W.session.channel.queue ++ W.job.outbox)

def Counted (c : List Signal × Report) : Prop :=
  c.2.notifications = c.1.countP Signal.isChange ∧ c.2.wakes = c.1.countP Signal.isWake

structure Balanced (W : World σ) : Prop where
  isOpen : W.session.channel.isOpen = true
  changes : W.trail.filterMap Signal.notification? = W.deeds.flatMap Deed.reports
  wakes : W.trail.countP Signal.isWake + (W.threads.map Thread.inFlight).sum
    = (W.threads.map Thread.calls).sum + W.deeds.countP Deed.isWake
  counted : ∀ c ∈ W.checkpoints, Counted c
  faithful : ∀ t ∈ W.threads, t.Faithful

namespace Balanced

variable {W W' : World σ}

theorem start (settings : SchedulerSettings) (evaluator : Evaluator) :
    (World.start settings evaluator : World σ).Balanced where
  isOpen := rfl
  changes := rfl
  wakes := rfl
  counted := by
    intro c hc
    cases hc
  faithful := by
    intro t ht
    cases ht

theorem spawn (B : W.Balanced) {t : Thread}
    (ht : t = .handle 0 false ∨ t = .listener 0 0 0 .resting) :
    Balanced { W with threads := t :: W.threads } where
  isOpen := B.isOpen
  changes := B.changes
  wakes := by
    have h := B.wakes
    rw [trail] at h ⊢
    rcases ht with rfl | rfl <;> simpa [drained, Thread.inFlight, Thread.calls] using h
  counted := B.counted
  faithful := by
    rw [List.forall_mem_cons]
    refine ⟨?_, B.faithful⟩
    rcases ht with rfl | rfl
    · trivial
    · rfl

theorem thread (B : W.Balanced) {before after : List Thread} {t t' : Thread}
    {f : Channel → Channel} (hthreads : W.threads = before ++ t :: after) (h : t.Step f t') :
    Balanced { W with
      session := W.session.withChannel (f W.session.channel)
      threads := before ++ t' :: after } := by
  obtain ⟨n, hqueue, hcount⟩ := h.queue B.isOpen
  have hchanges := B.changes
  have hwakes := B.wakes
  have hfaithful := B.faithful
  rw [hthreads] at hwakes hfaithful
  rw [trail] at hchanges hwakes
  -- requests are queued behind what is queued and before what is to be sent: no change moves
  constructor
  · rw [Session.channel_withChannel]
    exact h.isOpen B.isOpen
  · rw [trail, Session.channel_withChannel, hqueue, ← hchanges]
    simp [drained, List.filterMap_append, Signal.notification?]
  · rw [trail, Session.channel_withChannel, hqueue]
    simp only [drained, List.countP_append, List.map_append, List.map_cons, List.sum_append,
      List.sum_cons, List.countP_replicate, Signal.isWake, if_true] at hwakes ⊢
    omega
  · exact B.counted
  · rw [List.forall_mem_append, List.forall_mem_cons] at hfaithful ⊢
    obtain ⟨hbefore, ht, hafter⟩ := hfaithful
    exact ⟨hbefore, h.faithful ht, hafter⟩

theorem advance (B : W.Balanced) (deeds : List Deed)
    (checkpoints : List (List Signal × Report)) {session : Session σ} {job : Job}
    (hopen : session.channel.isOpen = true)
    (htrail : checkpoints.flatMap Prod.fst ++ (job.received ++ session.channel.queue ++ job.outbox)
      = W.trail ++ deeds.flatMap Deed.signals)
    (hcounted : ∀ c ∈ checkpoints, Counted c) :
    Balanced ⟨session, job, W.threads, checkpoints, W.deeds ++ deeds⟩ where
  isOpen := hopen
  changes := by
    rw [trail, drained, htrail, List.filterMap_append, List.flatMap_append, B.changes,
      Deed.filterMap_signals]
  wakes := by
    have h := B.wakes
    rw [trail, drained, htrail, List.countP_append, List.countP_append, Deed.countP_signals,
      Nat.add_right_comm, h, Nat.add_assoc]
  counted := hcounted
  faithful := B.faithful

theorem pass (B : W.Balanced) {session : Session σ} {job : Job}
    (hopen : session.channel.isOpen = true)
    (hsignals : job.received ++ session.channel.queue ++ job.outbox
      = W.job.received ++ W.session.channel.queue ++ W.job.outbox) :
    Balanced { W with session, job } := by
  have h := B.advance [] W.checkpoints hopen
    (by rw [hsignals, trail, drained, List.flatMap_nil, List.append_nil]) B.counted
  rwa [List.append_nil] at h

theorem outgoing (B : W.Balanced) {scheduler : Scheduler σ} {store : Store} {deeds : List Deed}
    {s : Store} {k : ChannelId} {checkpoints : List (List Signal × Report)}
    (hjob : W.job.outbox = []) (hk : scheduler.channel = k) (hempty : s.channel k = .empty)
    (h : Store.Raises k s (deeds.flatMap Deed.signals) store)
    (hdrained : checkpoints.flatMap Prod.fst = W.drained ++ W.job.received)
    (hcounted : ∀ c ∈ checkpoints, Counted c) :
    Balanced { W.outgoing scheduler store deeds with checkpoints } := by
  have hopen : (s.channel k).isOpen = true := by
    rw [hempty]
    rfl
  have hqueue : (store.channel k).queue = deeds.flatMap Deed.signals := by
    rw [h.queue hopen, hempty]
    rfl
  refine B.advance deeds checkpoints ?_ ?_ hcounted
  · exact (congrArg Channel.isOpen (Session.channel_withChannel _ _)).trans B.isOpen
  · rw [World.outgoing, Session.channel_withChannel, hk, hqueue, hdrained, trail, hjob]
    simp

theorem evaluate (B : W.Balanced) {received : List Signal} {report : Report}
    {scheduler : Scheduler σ} {store : Store} (hjob : W.job = .evaluating received)
    (hrun : W.session.scheduler.checkpointWith W.session.detached received
      = (report, scheduler, store)) :
    Balanced { W.outgoing scheduler store (W.session.scheduler.deeds W.session.detached received)
      with checkpoints := W.checkpoints ++ [(received, report)] } := by
  have D := W.session.scheduler.checkpointed W.session.detached received
  have hraises := W.session.scheduler.raises_checkpointWith W.session.detached received
  have hempty : W.session.detached.channel W.session.scheduler.channel = .empty :=
    W.session.store.channel_detach _
  rw [hrun] at D hraises
  have hchannel : scheduler.channel = W.session.scheduler.channel := congrArg (·.channel) D.rest
  have hcounted : Counted (received, report) := by
    have hnotifications := D.notifications
    have hwakes := D.wakes
    rw [hempty, Channel.empty, List.append_nil] at hnotifications hwakes
    exact ⟨hnotifications, hwakes⟩
  refine B.outgoing (by rw [hjob]; rfl) hchannel ?_ hraises (by simp [World.drained, hjob]) ?_
  · rw [Store.drain, Store.channel_setChannel, if_pos rfl, hempty]
    rfl
  · rw [List.forall_mem_append, List.forall_mem_singleton]
    exact ⟨B.counted, hcounted⟩

theorem step (B : W.Balanced) (h : Step W W') : W'.Balanced := by
  cases h with
  | spawn ht => exact B.spawn ht
  | thread before after hthreads h => exact B.thread hthreads h
  | act program hjob =>
    exact B.outgoing (by rw [hjob]; rfl) rfl (W.session.store.channel_detach _)
      (program.raises_run _ _) (by simp [drained, hjob]) B.counted
  | manage op hop hjob =>
    obtain ⟨hchannel, hquiet⟩ := W.session.queue_perform hop
    obtain ⟨hqueue, hopen⟩ := hquiet W.session.scheduler.channel
    refine B.pass ?_ ?_
    · rw [Session.channel, hchannel, hopen]
      exact B.isOpen
    · rw [Session.channel, hchannel, hqueue, Session.channel]
  | checkpoint hjob => exact B.pass B.isOpen (by simp [hjob])
  | whenDue hjob hauto hdue => exact B.pass B.isOpen (by simp [hjob])
  | block hjob hauto hdue => exact B.pass B.isOpen (by simp [hjob])
  | timeOut hjob => exact B.pass B.isOpen (by simp [hjob])
  | receive hjob hreceive =>
    obtain ⟨hqueue, hopen⟩ := Channel.receive_eq_some hreceive
    refine B.pass ?_ ?_
    · rw [Session.channel_withChannel, hopen, B.isOpen]
    · simp [hjob, hqueue]
  | unmark hjob =>
    exact B.pass (by simpa [Channel.unmark] using B.isOpen) (by simp [hjob, Channel.unmark])
  | take hjob hreceive =>
    obtain ⟨hqueue, hopen⟩ := Channel.receive_eq_some hreceive
    refine B.pass ?_ ?_
    · rw [Session.channel_withChannel, hopen, B.isOpen]
    · simp [hjob, hqueue]
  | drained hjob hempty => exact B.pass B.isOpen (by simp [hjob])
  | evaluate hjob hrun => exact B.evaluate hjob hrun
  | raise hjob =>
    exact B.pass (by simpa [Channel.mark] using B.isOpen) (by simp [hjob, Channel.mark])
  | @queue signal rest hjob =>
    refine B.pass ?_ ?_
    · rw [Session.channel_withChannel, Channel.enqueue, if_pos B.isOpen]
      exact B.isOpen
    · simp [hjob, Channel.enqueue, B.isOpen]
  | finish hjob => exact B.pass B.isOpen (by simp [hjob])

end Balanced

theorem Reachable.balanced {settings : SchedulerSettings} {evaluator : Evaluator} {W : World σ}
    (h : Reachable settings evaluator W) : W.Balanced := by
  induction h with
  | start => exact .start settings evaluator
  | step _ hstep ih => exact ih.step hstep

/-- Every signal that was sent is queued, or one checkpoint has counted it. -/
structure Conserved (W : World σ) : Prop where
  wakes : (W.checkpoints.map (·.2.wakes)).sum + W.session.channel.queue.countP Signal.isWake
    = (W.threads.map Thread.calls).sum + W.deeds.countP Deed.isWake
  forwarded : ∀ arrived waiting calls stage,
    Thread.listener arrived waiting calls stage ∈ W.threads → calls + waiting = arrived
  changes : (W.checkpoints.map (·.2.notifications)).sum
      + W.session.channel.queue.countP Signal.isChange
    = (W.deeds.flatMap Deed.reports).length
  ordered : ∀ w,
    ((W.drained ++ W.session.channel.queue).filterMap Signal.notification?).filter (·.watch = w)
      = (W.deeds.flatMap Deed.reports).filter (·.watch = w)

namespace Balanced

variable {W : World σ}

theorem trail_eq (hs : W.Settled) : W.trail = W.drained ++ W.session.channel.queue := by
  rw [trail, hs.1]
  simp

theorem sum_notifications (B : W.Balanced) :
    (W.checkpoints.map (·.2.notifications)).sum = W.drained.countP Signal.isChange := by
  rw [drained, List.countP_flatMap]
  exact congrArg List.sum (List.map_congr_left fun c hc => (B.counted c hc).1)

theorem sum_wakes (B : W.Balanced) :
    (W.checkpoints.map (·.2.wakes)).sum = W.drained.countP Signal.isWake := by
  rw [drained, List.countP_flatMap]
  exact congrArg List.sum (List.map_congr_left fun c hc => (B.counted c hc).2)

end Balanced

theorem Settled.inFlight {W : World σ} (hs : W.Settled) :
    (W.threads.map Thread.inFlight).sum = 0 := by
  apply List.sum_eq_zero
  intro n hn
  obtain ⟨t, ht, rfl⟩ := List.mem_map.1 hn
  exact Thread.inFlight_of_isResting (hs.2 t ht)

/-- Whatever threads do, when none of them has anything half done no signal is lost. -/
theorem Reachable.conserved {settings : SchedulerSettings} {evaluator : Evaluator} {W : World σ}
    (h : Reachable settings evaluator W) (hs : W.Settled) : W.Conserved := by
  have B := h.balanced
  have hchanges := B.changes
  have hwakes := B.wakes
  rw [Balanced.trail_eq hs] at hchanges hwakes
  constructor
  · rw [B.sum_wakes, ← List.countP_append, ← hwakes, hs.inFlight, Nat.add_zero]
  · intro arrived waiting calls stage ht
    have hfaithful := B.faithful _ ht
    have hresting := hs.2 _ ht
    cases stage with
    | resting => exact hfaithful
    | _ => cases hresting
  · rw [B.sum_notifications, ← List.countP_append, ← hchanges,
      Signal.length_filterMap_notification?]
  · intro w
    rw [hchanges]

/-- A listener begins its request before a checkpoint lowers the flag, and queues it when the
checkpoint has taken all that was queued: the request stays for the next one. -/
theorem conserved_late : ∃ W : World Unit,
    Reachable Settings.default.scheduler Evaluator.joined W ∧ W.Settled ∧
      W.session.channel.queue = [.wake] ∧ W.checkpoints.map (·.2.notifications) = [1] ∧
      W.Conserved := by
  have quiet : Reachable Settings.default.scheduler Evaluator.joined (start _ _ : World Unit) :=
    .start
  have spawned := quiet.step (.spawn (.inr rfl))
  have created := (spawned.step (.act (.create (.object ∅) fun _ => .done ()) rfl)).step
    (.finish rfl)
  have watched := created.step (.manage (.watch (.field 1 "done")) rfl rfl)
  have written := watched.step (.act (.write (.put 1 "done" (.scalar .null)) (.done ())) rfl)
  have sent := ((written.step (.raise rfl)).step (.queue rfl)).step (.finish rfl)
  have picked := (sent.step (.thread [] [] rfl .arrive)).step (.thread [] [] rfl .pick)
  have begun := picked.step (.thread [] [] rfl .forward)
  have lowered := (begun.step (.checkpoint rfl)).step (.unmark rfl)
  have taken := (lowered.step (.take rfl rfl)).step (.drained rfl rfl)
  have queued := taken.step (.thread [] [] rfl .queueForward)
  have finished := (queued.step (.evaluate rfl rfl)).step (.finish rfl)
  exact ⟨_, finished, ⟨rfl, by decide⟩, rfl, rfl, finished.conserved ⟨rfl, by decide⟩⟩

end World

end ReactivePage
