import ReactivePage.Proofs.Checkpoint.Threads
import Mathlib.Logic.Relation

namespace ReactivePage

theorem Channel.receive_eq_none {c c' : Channel} (h : c.receive = (none, c')) : c' = c := by
  rw [receive] at h
  split at h
  · cases h
    rfl
  · cases h

namespace Session

variable {σ : Type} {S S' S'' : Session σ} {c c' : Channel}

structure Tuned (S : Session σ) (c : Channel) (S' : Session σ) : Prop where
  scheduler : S'.scheduler = S.scheduler
  twins : ∃ cs, S'.store = S.store.withChannels cs
  channels : ∀ j, S'.store.channel j = if j = S.scheduler.channel then c else S.store.channel j

namespace Tuned

theorem refl (S : Session σ) : S.Tuned S.channel S where
  scheduler := rfl
  twins := ⟨_, rfl⟩
  channels := by
    intro j
    split
    · next hj => rw [hj, Session.channel]
    · rfl

theorem withChannel (S : Session σ) (c : Channel) : S.Tuned c (S.withChannel c) where
  scheduler := rfl
  twins := ⟨_, rfl⟩
  channels := fun j => S.store.channel_setChannel S.scheduler.channel j c

theorem channel_eq (T : S.Tuned c S') : S'.channel = c := by
  rw [Session.channel, T.scheduler, T.channels, if_pos rfl]

theorem trans (T : S.Tuned c S') (T' : S'.Tuned c' S'') : S.Tuned c' S'' where
  scheduler := T'.scheduler.trans T.scheduler
  twins := by
    obtain ⟨cs, h⟩ := T.twins
    obtain ⟨cs', h'⟩ := T'.twins
    exact ⟨cs', by rw [h', h]; rfl⟩
  channels := by
    intro j
    rw [T'.channels, T.scheduler, T.channels]
    split
    · rfl
    · rfl

theorem symm (T : S.Tuned c S') : S'.Tuned S.channel S where
  scheduler := T.scheduler.symm
  twins := by
    obtain ⟨cs, h⟩ := T.twins
    exact ⟨S.store.channels, by rw [h]; rfl⟩
  channels := by
    intro j
    rw [T.channels, T.scheduler]
    split
    · next hj => rw [hj, Session.channel]
    · rfl

theorem set (T : S.Tuned c S') (c' : Channel) : S.Tuned c' (S'.withChannel c') :=
  T.trans (withChannel S' c')

theorem alike (T : S.Tuned c S') (h : c.isOpen = S.channel.isOpen) : S.store.Alike S'.store where
  twins := T.twins
  isOpen := by
    intro j
    rw [T.channels]
    split
    · next hj => rw [h, hj, Session.channel]
    · rfl

end Tuned

end Session

namespace Scheduler

variable {σ : Type} {s t : Store} {d : Scheduler σ}

theorem checkpointWith_alike (A : s.Alike t) {received received' : List Signal}
    (hsignals : received' ++ (t.channel d.channel).queue
      = received ++ (s.channel d.channel).queue) :
    (d.checkpointWith t received').2.1 = (d.checkpointWith s received).2.1 ∧
      (d.checkpointWith s received).2.2.Alike (d.checkpointWith t received').2.2 ∧
      ∀ k, ∃ l, Store.Raises k (s.drain d.channel).2 l (d.checkpointWith s received).2.2 ∧
        Store.Raises k (t.drain d.channel).2 l (d.checkpointWith t received').2.2 := by
  have B : (s.drain d.channel).2.Alike (t.drain d.channel).2 :=
    ((Store.Alike.drain s _).symm.trans A).trans (Store.Alike.drain t _)
  have haffected : d.affected t received' = d.affected s received :=
    congrArg (fun signals => d.bindings.toList.filter fun e : BindingId × Binding σ =>
      isAffected (changedWatches signals) e.2) hsignals
  obtain ⟨houtcomes, hstore, hdeeds⟩ := refreshAll_alike B d.evaluator (d.affected s received)
  have ht : d.checkpointWith t received' = ((d.checkpointWith t received').1,
      { d with
        bindings := settleAll d.bindings
          (refreshAll d.evaluator (d.affected t received') (t.drain d.channel).2).1
        sequence := d.sequence + 1 },
      (refreshAll d.evaluator (d.affected t received') (t.drain d.channel).2).2) := rfl
  rw [ht, haffected, houtcomes]
  refine ⟨rfl, hstore, fun k => ⟨_, raises_refreshAll k _ (d.affected s received) _, ?_⟩⟩
  rw [← hdeeds]
  exact raises_refreshAll k _ _ _

theorem tuned_wakeTimes (d : Scheduler σ) (s : Store) (n : Nat) :
    Session.Tuned ⟨d, s⟩ ((s.channel d.channel).sendAll (List.replicate n .wake))
      ⟨d, wakeTimes s d.channel n⟩ := by
  induction n generalizing s with
  | zero => exact .refl _
  | succ n ih =>
    have T := Session.Tuned.withChannel ⟨d, s⟩ ((s.channel d.channel).send .wake)
    have T' := ih (s.send d.channel .wake).2
    rw [Store.send, Store.channel_setChannel, if_pos rfl] at T'
    exact T.trans T'

end Scheduler

namespace World

variable {σ : Type} {W W' : World σ} {S S' : Session σ} {c : Channel} {job : Job}

def Reaches (W : World σ) (job : Job) (S : Session σ) (c : Channel) : Prop :=
  ∃ W', Relation.ReflTransGen Step W W' ∧ W'.job = job ∧ S.Tuned c W'.session

namespace Reaches

theorem here (hjob : W.job = job) (T : S.Tuned c W.session) : W.Reaches job S c :=
  ⟨W, .refl, hjob, T⟩

theorem of_run (h : Relation.ReflTransGen Step W W') (hW' : W'.Reaches job S c) :
    W.Reaches job S c := by
  obtain ⟨V, hV, hrest⟩ := hW'
  exact ⟨V, h.trans hV, hrest⟩

theorem of_step (h : Step W W') (hW' : W'.Reaches job S c) : W.Reaches job S c :=
  of_run (.single h) hW'

theorem sending {signals : List Signal} (hjob : W.job = .sending signals)
    (T : S.Tuned c W.session) : W.Reaches .idle S (c.sendAll signals) := by
  induction signals generalizing W c with
  | nil => exact of_step (.finish hjob) (here rfl T)
  | cons signal rest ih =>
    refine of_step (.raise hjob) (of_step (.queue rfl) (ih rfl ?_))
    rw [Session.channel_withChannel, T.channel_eq]
    exact (T.set c.mark).set (c.send signal)

theorem draining {received : List Signal} (hjob : W.job = .draining received)
    (T : S.Tuned c W.session) :
    W.Reaches (.evaluating (received ++ c.queue)) S { c with queue := [] } := by
  obtain ⟨due, queue, isOpen⟩ := c
  induction queue generalizing W received with
  | nil =>
    refine of_step (.drained hjob (by rw [T.channel_eq])) (here ?_ T)
    rw [List.append_nil]
  | cons signal rest ih =>
    have htake : W.session.channel.receive = (some signal, ⟨due, rest, isOpen⟩) := by
      rw [T.channel_eq]
      rfl
    have h := ih (W := { W with
      session := W.session.withChannel ⟨due, rest, isOpen⟩
      job := .draining (received ++ [signal]) }) rfl (T.set _)
    rw [List.append_assoc] at h
    exact of_step (.take hjob htake) h

theorem outgoing {d : Scheduler σ} {s t s' t' : Store}
    (hjob : W.job = .sending (t'.channel d.channel).queue)
    (hsession : W.session = Session.withChannel ⟨d, t'⟩ (s.channel d.channel))
    (hempty : t.channel d.channel = .empty)
    (hothers : ∀ j, j ≠ d.channel → t.channel j = s.channel j) (A : s'.Alike t')
    (hraises : ∀ j, ∃ l, Store.Raises j s l s' ∧ Store.Raises j t l t') :
    W.Reaches .idle ⟨d, s'⟩ (s'.channel d.channel) := by
  obtain ⟨l, hs, ht⟩ := hraises d.channel
  have hopen : (t.channel d.channel).isOpen = true := by
    rw [hempty]
    rfl
  rw [ht.queue hopen, hempty] at hjob
  have T : Session.Tuned ⟨d, s'⟩ (s.channel d.channel) W.session := by
    rw [hsession]
    refine ⟨rfl, ?_, fun j => ?_⟩
    · obtain ⟨cs, rfl⟩ := A.twins
      exact ⟨_, rfl⟩
    · rw [Session.withChannel, Store.channel_setChannel]
      split
      · rfl
      · next hj =>
        obtain ⟨m, hs, ht⟩ := hraises j
        rw [ht.channel, hs.channel, hothers j hj]
  rw [hs.channel]
  exact sending hjob T

theorem due {received : List Signal} (hjob : W.job = .due received)
    (T : S.Tuned S.channel W.session) (hopen : S.channel.isOpen = true) :
    W.Reaches .idle
      ⟨(S.scheduler.checkpointWith S.store received).2.1,
        (S.scheduler.checkpointWith S.store received).2.2⟩
      ((S.scheduler.checkpointWith S.store received).2.2.channel S.scheduler.channel) := by
  refine of_step (.unmark hjob) ?_
  rw [T.channel_eq]
  obtain ⟨V, hrun, hV, TV⟩ := draining (W := { W with
    session := W.session.withChannel S.channel.unmark
    job := .draining received }) rfl (T.set S.channel.unmark)
  -- the checkpoint has all signals in hand, where the operation finds them on the channel
  have hdetached : V.session.detached.channel S.scheduler.channel = .empty := by
    rw [Session.detached, TV.scheduler, Store.channel_detach]
  have A : S.store.Alike V.session.detached := by
    refine (TV.alike rfl).trans (.setChannel ?_)
    exact ((congrArg Channel.isOpen TV.channel_eq).trans hopen).symm
  have hsignals : received ++ S.channel.unmark.queue
      ++ (V.session.detached.channel S.scheduler.channel).queue
        = received ++ (S.store.channel S.scheduler.channel).queue := by
    rw [hdetached, Channel.empty, List.append_nil]
    rfl
  obtain ⟨hscheduler, hstore, hraises⟩ := S.scheduler.checkpointWith_alike A hsignals
  rcases hout : S.scheduler.checkpointWith V.session.detached (received ++ S.channel.unmark.queue)
    with ⟨report, d, t'⟩
  rw [hout] at hscheduler hstore hraises
  rw [← TV.scheduler] at hout
  refine of_run hrun (of_step (.evaluate hV hout) ?_)
  cases hscheduler
  refine outgoing (s := (S.store.drain S.scheduler.channel).2)
    (t := (V.session.detached.drain S.scheduler.channel).2) rfl ?_ ?_ ?_ hstore hraises
  · rw [Store.drain, Store.channel_setChannel, World.outgoing, TV.channel_eq]
    exact congrArg (Session.withChannel _) (if_pos rfl).symm
  · rw [Store.drain, Store.channel_setChannel, hdetached]
    exact if_pos rfl
  · intro j hj
    have hj' : j ≠ S.scheduler.channel := hj
    rw [Store.drain, Store.drain, Store.channel_setChannel, Store.channel_setChannel, if_neg hj',
      if_neg hj', Session.detached, Store.detach, Store.channel_setChannel, TV.scheduler,
      if_neg hj', TV.channels, if_neg hj']

theorem calls {n m : Nat} {rest : List Thread} (hthreads : W.threads = .handle n false :: rest)
    (T : S.Tuned c W.session) : W.Reaches W.job S (c.sendAll (List.replicate m .wake)) := by
  induction m generalizing W c n with
  | zero => exact here rfl T
  | succ m ih =>
    refine of_step (.thread [] rest hthreads .call)
      (of_step (.thread [] rest rfl .queueCall) (ih rfl ?_))
    rw [Session.channel_withChannel, T.channel_eq]
    exact (T.set c.mark).set (c.send .wake)

theorem wakes (T : S.Tuned c W.session) (n : Nat) :
    W.Reaches W.job S (c.sendAll (List.replicate n .wake)) :=
  of_step (.spawn (.inl rfl)) (calls rfl T)

theorem retune (T : S.Tuned c S') (h : W.Reaches job S c) : W.Reaches job S' S'.channel := by
  obtain ⟨V, hrun, hV, TV⟩ := h
  rw [T.channel_eq]
  exact ⟨V, hrun, hV, T.symm.trans TV⟩

theorem wakeTimes (h : W.Reaches job S S.channel) (n : Nat) :
    W.Reaches job ⟨S.scheduler, Scheduler.wakeTimes S.store S.scheduler.channel n⟩
      ((Scheduler.wakeTimes S.store S.scheduler.channel n).channel S.scheduler.channel) := by
  obtain ⟨V, hrun, rfl, TV⟩ := h
  exact of_run hrun (retune (Scheduler.tuned_wakeTimes _ _ n) (wakes TV n))

theorem act (program : Action Unit) (hjob : W.job = .idle)
    (hopen : W.session.channel.isOpen = true) :
    W.Reaches .idle ⟨W.session.scheduler, (program.run W.session.store).2⟩
      ((program.run W.session.store).2.channel W.session.scheduler.channel) := by
  have A : W.session.store.Alike W.session.detached := .setChannel hopen.symm
  obtain ⟨-, hstore, hdeeds⟩ := program.run_alike A
  refine of_step (.act program hjob) (outgoing (s := W.session.store) (t := W.session.detached)
    rfl rfl (W.session.store.channel_detach _) ?_ hstore fun j => ?_)
  · intro j hj
    rw [Session.detached, Store.detach, Store.channel_setChannel, if_neg hj]
  · refine ⟨_, program.raises_run _ j, ?_⟩
    rw [← hdeeds]
    exact program.raises_run _ j

theorem timeOut {s : Store} (hjob : W.job = .blocked) (T : S.Tuned S.channel W.session)
    (hreceive : S.store.receive S.scheduler.channel = (none, s)) :
    W.Reaches .idle ⟨S.scheduler, s⟩ (s.channel S.scheduler.channel) := by
  rcases hchannel : S.channel.receive with ⟨first, c⟩
  rw [Store.receive, ← Session.channel, hchannel] at hreceive
  cases hreceive
  rw [Channel.receive_eq_none hchannel]
  exact of_step (.timeOut hjob) (retune (.withChannel S S.channel) (here rfl T))

theorem receive {signal : Signal} {s : Store} (hjob : W.job = .blocked)
    (T : S.Tuned S.channel W.session) (hopen : S.channel.isOpen = true)
    (hreceive : S.store.receive S.scheduler.channel = (some signal, s)) :
    W.Reaches .idle
      ⟨(S.scheduler.checkpointWith s [signal]).2.1, (S.scheduler.checkpointWith s [signal]).2.2⟩
      ((S.scheduler.checkpointWith s [signal]).2.2.channel S.scheduler.channel) := by
  rcases hchannel : S.channel.receive with ⟨first, c⟩
  rw [Store.receive, ← Session.channel, hchannel] at hreceive
  cases hreceive
  obtain ⟨-, hkept⟩ := Channel.receive_eq_some hchannel
  refine of_step (.receive hjob (by rw [T.channel_eq, hchannel]))
    (due (S := S.withChannel c) rfl ?_ ?_)
  · rw [Session.channel_withChannel]
    exact (Session.Tuned.withChannel S c).symm.trans (T.set c)
  · rw [Session.channel_withChannel, hkept, hopen]

end Reaches

/-- Every operation of a session is a run of the machine in which nobody interferes. -/
theorem reaches_perform (hjob : W.job = .idle) (hopen : W.session.channel.isOpen = true)
    (op : Operation σ) : W.Reaches .idle (W.session.perform op) (W.session.perform op).channel := by
  have stays : W.Reaches .idle W.session W.session.channel := .here hjob (.refl _)
  by_cases hop : op.isManagement = true
  · exact .of_step (.manage op hop hjob) (.here hjob (.refl _))
  · cases op with
    | act program => exact .act program hjob hopen
    | checkpoint => exact .of_step (.checkpoint hjob) (.due rfl (.refl _) hopen)
    | runScheduled =>
      simp only [Session.perform, Scheduler.runScheduled]
      split
      · next hdue =>
        rw [Bool.and_eq_true] at hdue
        exact .of_step (.whenDue hjob hdue.1 hdue.2) (.due rfl (.refl _) hopen)
      · exact stays
    | wait late =>
      simp only [Session.perform, Scheduler.wait]
      split
      · exact stays.wakeTimes late
      · split
        · next hauto hdue =>
          rw [Decidable.not_not] at hauto
          exact .wakeTimes (.of_step (.whenDue hjob hauto hdue) (.due rfl (.refl _) hopen)) late
        · next hauto hdue =>
          rw [Decidable.not_not] at hauto
          have woken := Scheduler.tuned_wakeTimes W.session.scheduler W.session.store late
          obtain ⟨V, hrun, hV, TV⟩ := Reaches.wakeTimes (W := { W with job := .blocked })
            (.here rfl (.refl W.session)) late
          refine .of_step (.block hjob hauto (Bool.eq_false_iff.2 hdue)) (.of_run hrun ?_)
          rcases hreceive : (Scheduler.wakeTimes W.session.store W.session.scheduler.channel
            late).receive W.session.scheduler.channel with ⟨_ | signal, s⟩
          · exact .timeOut (S := ⟨_, Scheduler.wakeTimes _ _ late⟩) hV TV hreceive
          · refine .receive (S := ⟨_, Scheduler.wakeTimes _ _ late⟩) hV TV ?_ hreceive
            rw [woken.channel_eq, Channel.isOpen_sendAll]
            exact hopen
    | _ => exact absurd rfl hop

end World

end ReactivePage
