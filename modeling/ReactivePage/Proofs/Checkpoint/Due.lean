import ReactivePage.Proofs.Checkpoint.Sequential

namespace ReactivePage

theorem Channel.due_sendAll (c : Channel) (signals : List Signal) :
    (c.sendAll signals).due = true ↔ c.due = true ∨ signals ≠ [] := by
  induction signals generalizing c with
  | nil => simp [sendAll]
  | cons signal rest ih =>
    have hdue : (c.send signal).due = true := by
      rw [send, enqueue]
      split <;> rfl
    rw [sendAll, List.foldl_cons, ← sendAll, ih]
    simp [hdue]

theorem Channel.receive_eq_none_iff {c : Channel} : c.receive.1 = none ↔ c.queue = [] := by
  rw [receive]
  split
  · next h => simp [h]
  · next h => simp [h]

namespace Scheduler

variable {σ : Type} (d : Scheduler σ) (s : Store) (received : List Signal)

theorem channel_checkpointWith :
    (d.checkpointWith s received).2.2.channel d.channel
      = (s.channel d.channel).drain.2.sendAll ((d.deeds s received).flatMap Deed.signals) := by
  rw [(d.raises_checkpointWith s received).channel, Store.drain, Store.channel_setChannel,
    if_pos rfl]

theorem fresh_checkpointWith {id : BindingId} {b : Binding σ}
    (hb : (d.checkpointWith s received).2.1.bindings.find? id = some b) : b.fresh = false := by
  have C := d.checkpointed s received
  by_cases hid : id ∈ (d.turnsWith s received).map (·.id)
  · obtain ⟨t, ht, rfl⟩ := List.mem_map.1 hid
    cases (C.settled t ht).symm.trans hb
    rfl
  · rw [C.untouched id hid] at hb
    rw [Bool.eq_false_iff]
    intro hfresh
    obtain ⟨t, ht, rfl, -⟩ := (C.called id b).2 ⟨hb, .inl hfresh⟩
    exact hid (List.mem_map_of_mem ht)

theorem isScheduled_checkpointWith :
    (d.checkpointWith s received).2.1.isScheduled (d.checkpointWith s received).2.2 = true ↔
      ∃ deed ∈ d.deeds s received, deed.signals ≠ [] := by
  have hdue : (d.checkpointWith s received).2.1.isScheduled (d.checkpointWith s received).2.2
      = ((d.checkpointWith s received).2.2.channel d.channel).due := rfl
  have hlow : (s.channel d.channel).drain.2.due = false := rfl
  rw [hdue, d.channel_checkpointWith, Channel.due_sendAll, hlow]
  simp

end Scheduler

namespace Session

variable {σ : Type} {S S' : Session σ}

/-- Something is left for the next checkpoint: a signal, or a binding that had no turn yet. -/
def Waiting (S : Session σ) : Prop :=
  S.channel.queue ≠ [] ∨
    ∃ id b, S.scheduler.bindings.find? id = some b ∧ b.fresh = true

structure Alert (S : Session σ) : Prop where
  isOpen : S.channel.isOpen = true
  due : S.Waiting → S.channel.due = true

namespace Alert

theorem start (settings : SchedulerSettings) (evaluator : Evaluator) :
    (Session.start settings evaluator : Session σ).Alert where
  isOpen := rfl
  due := by
    rintro (hqueue | ⟨id, b, hb, -⟩)
    · exact absurd rfl hqueue
    · cases hb

theorem not_waiting (A : S.Alert) (h : S.channel.due = false) : ¬ S.Waiting := by
  intro hwaiting
  rw [A.due hwaiting] at h
  cases h

theorem sent (A : S.Alert) (hd : S'.scheduler = S.scheduler) {signals : List Signal}
    (hc : S'.channel = S.channel.sendAll signals) : S'.Alert where
  isOpen := by rw [hc, Channel.isOpen_sendAll, A.isOpen]
  due := by
    rw [Waiting, hd, hc, Channel.due_sendAll, Channel.queue_sendAll A.isOpen]
    by_cases hsignals : signals = []
    · rw [hsignals, List.append_nil]
      exact fun hwaiting => .inl (A.due hwaiting)
    · exact fun _ => .inr hsignals

theorem act (A : S.Alert) (program : Action Unit) : (S.perform (.act program)).Alert :=
  A.sent rfl (program.raises_run S.store S.scheduler.channel).channel

theorem manage (A : S.Alert) {op : Operation σ} (h : op.isManagement = true) :
    (S.perform op).Alert := by
  obtain ⟨hchannel, ⟨hchannels, hbindings⟩ | ⟨t, hchannels, hstore⟩⟩ := S.managed h
  · have hsame : (S.perform op).channel = S.channel := by
      rw [Session.channel, hchannel, Store.channel_congr hchannels, Session.channel]
    constructor
    · rw [hsame]
      exact A.isOpen
    · rw [hsame]
      rintro (hqueue | ⟨id, b, hb, hfresh⟩)
      · exact A.due (.inl (hsame ▸ hqueue))
      · exact A.due (.inr ⟨id, b, hbindings id b hb, hfresh⟩)
  · have hmarked : (S.perform op).channel = S.channel.mark := by
      rw [Session.channel, hchannel, hstore, Store.schedule, Store.channel_setChannel, if_pos rfl,
        Store.channel_congr hchannels, Session.channel]
    constructor
    · rw [hmarked]
      exact A.isOpen
    · rw [hmarked]
      exact fun _ => rfl

theorem checkpointWith {d : Scheduler σ} {s : Store} (hopen : (s.channel d.channel).isOpen = true)
    (received : List Signal) :
    Session.Alert ⟨(d.checkpointWith s received).2.1, (d.checkpointWith s received).2.2⟩ := by
  have hchannel : Session.channel ⟨(d.checkpointWith s received).2.1,
      (d.checkpointWith s received).2.2⟩ = _ := d.channel_checkpointWith s received
  have hdrained : (s.channel d.channel).drain.2.isOpen = true := hopen
  constructor
  · rw [hchannel, Channel.isOpen_sendAll, hdrained]
  · rw [Waiting, hchannel, Channel.queue_sendAll hdrained, Channel.due_sendAll]
    rintro (hqueue | ⟨id, b, hb, hfresh⟩)
    · exact .inr hqueue
    · rw [d.fresh_checkpointWith s received hb] at hfresh
      cases hfresh

theorem wakeTimes (A : S.Alert) (n : Nat) :
    Session.Alert ⟨S.scheduler, Scheduler.wakeTimes S.store S.scheduler.channel n⟩ :=
  A.sent rfl (S.scheduler.tuned_wakeTimes S.store n).channel_eq

theorem wait (A : S.Alert) (late : Nat) : (S.perform (.wait late)).Alert := by
  simp only [Session.perform, Scheduler.wait]
  split
  · exact A.wakeTimes late
  · split
    · exact (checkpointWith A.isOpen []).wakeTimes late
    · have W := A.wakeTimes late
      generalize Scheduler.wakeTimes S.store S.scheduler.channel late = s at W ⊢
      rw [Store.receive]
      rcases hreceive : (s.channel S.scheduler.channel).receive with ⟨_ | signal, c⟩
      · have hsame : Session.channel ⟨S.scheduler, s.setChannel S.scheduler.channel c⟩
            = Channel.sendAll (s.channel S.scheduler.channel) [] := by
          rw [Session.channel, Store.channel_setChannel, if_pos rfl,
            Channel.receive_eq_none hreceive]
          rfl
        exact W.sent rfl hsame
      · refine checkpointWith ?_ [signal]
        rw [Store.channel_setChannel, if_pos rfl, (Channel.receive_eq_some hreceive).2]
        exact W.isOpen

theorem perform (A : S.Alert) (op : Operation σ) : (S.perform op).Alert := by
  by_cases h : op.isManagement = true
  · exact A.manage h
  · cases op with
    | act program => exact A.act program
    | checkpoint => exact checkpointWith A.isOpen []
    | runScheduled =>
      simp only [Session.perform, Scheduler.runScheduled]
      split
      · exact checkpointWith A.isOpen []
      · exact A
    | wait late => exact A.wait late
    | _ => exact absurd rfl h

theorem run (A : S.Alert) (ops : List (Operation σ)) : (ops.foldl Session.perform S).Alert := by
  induction ops generalizing S with
  | nil => exact A
  | cons op rest ih => exact ih (A.perform op)

theorem wait_eq_none_iff (A : S.Alert) (h : S.scheduler.settings.autoCheckpoint = true)
    (late : Nat) : (S.scheduler.wait S.store late).1 = none ↔
      S.scheduler.isScheduled S.store = false ∧ late = 0 := by
  rw [Scheduler.wait, if_neg (not_not_intro h)]
  split
  · next hdue => simp [hdue]
  · next hdue =>
    have hempty : S.channel.queue = [] := by
      by_contra hqueue
      exact hdue (A.due (.inl hqueue))
    have hwoken : (Scheduler.wakeTimes S.store S.scheduler.channel late).channel S.scheduler.channel
        = S.channel.sendAll (List.replicate late .wake) :=
      (S.scheduler.tuned_wakeTimes S.store late).channel_eq
    have hfirst : ((Scheduler.wakeTimes S.store S.scheduler.channel late).receive
        S.scheduler.channel).1 = none ↔ late = 0 := by
      rw [Store.receive, hwoken, Channel.receive_eq_none_iff, Channel.queue_sendAll A.isOpen,
        hempty, List.nil_append, List.replicate_eq_nil_iff]
    rw [← hfirst]
    rcases (Scheduler.wakeTimes S.store S.scheduler.channel late).receive S.scheduler.channel with
      ⟨_ | signal, s⟩
    · simp [hdue]
    · simp

end Alert

theorem runScheduled_eq_none_iff (h : S.scheduler.settings.autoCheckpoint = true) :
    (S.scheduler.runScheduled S.store).1 = none ↔ S.scheduler.isScheduled S.store = false := by
  rw [Scheduler.runScheduled, h, Bool.true_and]
  split
  · next hdue => simp [hdue]
  · next hdue => simp [hdue]

/-- In every state of a run a checkpoint is due as long as a signal is queued or a binding has had
no turn. With automatic checkpoints a scheduled run does nothing only when none is due, and so does
a wait in which no request comes; without them both change nothing. Right after a checkpoint the
next one is due if one of its targets has raised a signal, and only then. -/
theorem due_while_waiting (settings : SchedulerSettings) (evaluator : Evaluator)
    (ops : List (Operation σ)) :
    let S := ops.foldl Session.perform (start settings evaluator)
    (S.Waiting → S.scheduler.isScheduled S.store = true) ∧
    (S.scheduler.settings.autoCheckpoint = true →
      ((S.scheduler.runScheduled S.store).1 = none ↔ S.scheduler.isScheduled S.store = false) ∧
      (∀ late, (S.scheduler.wait S.store late).1 = none ↔
        S.scheduler.isScheduled S.store = false ∧ late = 0) ∧
      (S.scheduler.isScheduled S.store = false → S.channel.queue = [] ∧
        ∀ id b, S.scheduler.bindings.find? id = some b → b.fresh = false)) ∧
    (S.scheduler.settings.autoCheckpoint = false →
      S.scheduler.runScheduled S.store = (none, S.scheduler, S.store) ∧
      S.scheduler.wait S.store 0 = (none, S.scheduler, S.store)) ∧
    ∀ s received, (S.scheduler.checkpointWith s received).2.1.isScheduled
        (S.scheduler.checkpointWith s received).2.2 = true ↔
      ∃ deed ∈ S.scheduler.deeds s received, deed.signals ≠ [] := by
  intro S
  have A : S.Alert := (Alert.start settings evaluator).run ops
  refine ⟨A.due, fun hauto => ⟨runScheduled_eq_none_iff hauto, A.wait_eq_none_iff hauto,
    fun hdue => ?_⟩, fun hauto => ⟨?_, ?_⟩, S.scheduler.isScheduled_checkpointWith⟩
  · have hrest := A.not_waiting hdue
    rw [Waiting, not_or, not_not] at hrest
    refine ⟨hrest.1, fun id b hb => ?_⟩
    rw [Bool.eq_false_iff]
    exact fun hfresh => hrest.2 ⟨id, b, hb, hfresh⟩
  · rw [Scheduler.runScheduled, hauto, Bool.false_and, if_neg Bool.false_ne_true]
  · rw [Scheduler.wait, hauto, if_pos Bool.false_ne_true]
    rfl

def switchRun : List (Operation Unit) :=
  [.act (.create (.object (Dict.ofList [("on", .scalar (.bool false))])) fun _ => .done ()),
    .bind (.single "on") 1 ⟨(), fun _ _ => .write (.put 1 "on" (.scalar (.bool true))) (.done ())⟩]

theorem due_while_waiting_switch :
    let S := switchRun.foldl Session.perform (start Settings.default.scheduler Evaluator.paths)
    S.Waiting ∧ S.scheduler.isScheduled S.store = true ∧
      (S.scheduler.runScheduled S.store).1 ≠ none ∧
      (S.scheduler.checkpoint S.store).2.1.isScheduled (S.scheduler.checkpoint S.store).2.2
        = true := by
  intro S
  obtain ⟨hdue, hauto, -, hnext⟩ :=
    due_while_waiting Settings.default.scheduler Evaluator.paths switchRun
  have hwaiting : S.Waiting := .inr ⟨1, _, rfl, rfl⟩
  refine ⟨hwaiting, hdue hwaiting, fun hnone => ?_, (hnext S.store []).2 ⟨_, .head _, nofun⟩⟩
  have hdown := ((hauto rfl).1).1 hnone
  rw [hdue hwaiting] at hdown
  cases hdown

end Session

end ReactivePage
