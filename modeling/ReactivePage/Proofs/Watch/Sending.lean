import ReactivePage.Proofs.Watch.Steps

/-!
What a change of a store sends on a channel.

`Raises k s l t` says that the store went from `s` to `t` and that meanwhile the signals `l` were
sent on the channel `k`, in this order, and nothing was taken off it. Writes, and everything that
follows an event, change channels in no other way.
-/

namespace ReactivePage

namespace Channel

def sendAll (c : Channel) (signals : List Signal) : Channel := signals.foldl send c

@[simp] theorem isOpen_send (c : Channel) (signal : Signal) :
    (c.send signal).isOpen = c.isOpen := by
  rw [send, enqueue]
  split <;> rfl

theorem queue_send {c : Channel} (h : c.isOpen = true) (signal : Signal) :
    (c.send signal).queue = c.queue ++ [signal] := by
  rw [send, enqueue, mark, if_pos h]

@[simp] theorem isOpen_sendAll (c : Channel) (signals : List Signal) :
    (c.sendAll signals).isOpen = c.isOpen := by
  induction signals generalizing c with
  | nil => rfl
  | cons signal rest ih => exact (ih _).trans (c.isOpen_send signal)

theorem queue_sendAll {c : Channel} (h : c.isOpen = true) (signals : List Signal) :
    (c.sendAll signals).queue = c.queue ++ signals := by
  induction signals generalizing c with
  | nil => exact (List.append_nil _).symm
  | cons signal rest ih =>
    have hopen := (c.isOpen_send signal).trans h
    calc ((c.send signal).sendAll rest).queue
        = (c.send signal).queue ++ rest := ih hopen
      _ = c.queue ++ (signal :: rest) := by rw [queue_send h, List.append_assoc]; rfl

theorem queue_sendAll_closed {c : Channel} (h : ¬ c.isOpen = true) (signals : List Signal) :
    (c.sendAll signals).queue = c.queue := by
  induction signals generalizing c with
  | nil => rfl
  | cons signal rest ih =>
    have hclosed : ¬ (c.send signal).isOpen = true := by rwa [isOpen_send]
    have hqueue : (c.send signal).queue = c.queue := by rw [send, enqueue, mark, if_neg h]
    exact (ih hclosed).trans hqueue

end Channel

namespace Store

theorem channel_setChannel (s : Store) (k j : ChannelId) (c : Channel) :
    (s.setChannel k c).channel j = if j = k then c else s.channel j := by
  rw [channel, setChannel, Dict.find?_insert_eq_ite]
  by_cases hj : j = k
  · rw [if_pos hj, if_pos hj, Option.getD_some]
  · rw [if_neg hj, if_neg hj, channel]

theorem channel_congr {s t : Store} (h : t.channels = s.channels) (k : ChannelId) :
    t.channel k = s.channel k := by
  rw [channel, channel, h]

inductive Raises (k : ChannelId) : Store → List Signal → Store → Prop
  | quiet {s t} : t.channels = s.channels → Raises k s [] t
  | send (s signal) : Raises k s [signal] (s.send k signal).2
  | elsewhere (s) {j} (signal) : j ≠ k → Raises k s [] (s.send j signal).2
  | trans {s t u l m} : Raises k s l t → Raises k t m u → Raises k s (l ++ m) u

theorem Raises.of_quiet {k : ChannelId} {s t u : Store} {l : List Signal} (h : Raises k t l u)
    (hc : t.channels = s.channels) : Raises k s l u :=
  .trans (.quiet hc) h

theorem Raises.channel {k : ChannelId} {s t : Store} {l : List Signal} (h : Raises k s l t) :
    t.channel k = (s.channel k).sendAll l := by
  induction h with
  | quiet h => exact channel_congr h k
  | send s signal => rw [Store.send, channel_setChannel, if_pos rfl]; rfl
  | elsewhere s signal hj => rw [Store.send, channel_setChannel, if_neg hj.symm]; rfl
  | trans _ _ ih ih' => rw [ih', ih, Channel.sendAll, Channel.sendAll, Channel.sendAll,
      List.foldl_append]

theorem Raises.isOpen {k : ChannelId} {s t : Store} {l : List Signal} (h : Raises k s l t) :
    (t.channel k).isOpen = (s.channel k).isOpen := by
  rw [h.channel, Channel.isOpen_sendAll]

theorem Raises.queue {k : ChannelId} {s t : Store} {l : List Signal} (h : Raises k s l t)
    (ho : (s.channel k).isOpen = true) : (t.channel k).queue = (s.channel k).queue ++ l := by
  rw [h.channel, Channel.queue_sendAll ho]

theorem Raises.queue_closed {k : ChannelId} {s t : Store} {l : List Signal} (h : Raises k s l t)
    (ho : ¬ (s.channel k).isOpen = true) : (t.channel k).queue = (s.channel k).queue := by
  rw [h.channel, Channel.queue_sendAll_closed ho]

def Sends (k : ChannelId) (s t : Store) : Prop := ∃ l, Raises k s l t

namespace Sends

variable {k : ChannelId} {s t u : Store}

theorem quiet (h : t.channels = s.channels) : Sends k s t := ⟨[], .quiet h⟩

theorem refl (s : Store) : Sends k s s := quiet rfl

theorem trans (h : Sends k s t) (h' : Sends k t u) : Sends k s u := by
  obtain ⟨l, hl⟩ := h
  obtain ⟨m, hm⟩ := h'
  exact ⟨l ++ m, hl.trans hm⟩

theorem send (s : Store) (j : ChannelId) (signal : Signal) : Sends k s (s.send j signal).2 := by
  by_cases hj : j = k
  · subst hj
    exact ⟨_, .send s signal⟩
  · exact ⟨_, .elsewhere s signal hj⟩

theorem report (s : Store) (o : Observation) (change : Change) : Sends k s (s.report o change) :=
  send s o.channel _

theorem isOpen (h : Sends k s t) : (t.channel k).isOpen = (s.channel k).isOpen := by
  obtain ⟨l, hl⟩ := h
  exact hl.isOpen

theorem mem_queue (h : Sends k s t) {signal : Signal} (hm : signal ∈ (s.channel k).queue)
    (ho : (t.channel k).isOpen = true) : signal ∈ (t.channel k).queue := by
  obtain ⟨l, hl⟩ := h
  rw [hl.queue (hl.isOpen.symm.trans ho)]
  exact List.mem_append_left _ hm

end Sends

theorem channels_moveContent (s : Store) (id : ObservationId) (o : Observation)
    (new : Option Value) : (s.moveContent id o new).channels = s.channels := by
  rw [moveContent_only]

theorem channels_putRelinked (s : Store) (id : ObservationId) (o : Observation)
    (p : PathWatch) (last : Option Value) :
    (s.putRelinked id o p last).channels = s.channels := by
  rw [putRelinked_only]

inductive Reacts : Store → Store → Prop
  | refl (s) : Reacts s s
  | trans {s t u} : Reacts s t → Reacts t u → Reacts s u
  | relink (s id o p last) : Reacts s (s.putRelinked id o p last)
  | move (s id o new) : Reacts s (s.moveContent id o new)
  | report (s o change) : Reacts s (s.report o change)

namespace Reacts

theorem followCollection (s : Store) (id : ObservationId) (o : Observation)
    (old new : Option Value) : Reacts s (s.followCollection id o old new) := by
  rw [followCollection_eq]
  split
  · exact refl s
  · have hmove : Reacts s (if s.handleOf? o.kind new = o.content.map (·.container) then s
        else s.moveContent id o new) := by
      split
      · exact refl s
      · exact move s id o new
    simp only
    split
    · exact hmove
    · exact hmove.trans (report _ o _)

theorem refresh (s : Store) (id : ObservationId) (direct : Bool) :
    Reacts s (s.refresh id direct) := by
  cases ho : s.observations.find? id with
  | none =>
    simp only [Store.refresh, ho]
    exact refl s
  | some o =>
    cases hp : o.holder with
    | none =>
      simp only [Store.refresh, ho, hp]
      exact refl s
    | some p =>
      simp only [refresh_eq ho hp]
      split
      · split
        · exact (relink s id o p _).trans (report _ _ _)
        · exact (relink s id o p _).trans (followCollection _ _ _ _ _)
      · exact relink s id o p _

theorem deliverLink (s : Store) (id : ObservationId) (step : Step) (isLeaf : Bool) (e : Event) :
    Reacts s (s.deliverLink id step isLeaf e) := by
  rw [deliverLink_eq]
  split
  · exact refresh s id _
  · exact refl s

theorem deliver (e : Event) (observer : Observer) (s : Store) :
    Reacts s (s.deliver e observer) := by
  cases observer with
  | link id i =>
    simp only [Store.deliver]
    split
    · split
      · exact deliverLink s id _ _ e
      · exact refl s
    · exact refl s
  | content id =>
    simp only [Store.deliver]
    split
    · next o ho =>
      obtain ⟨change, hchange⟩ := deliverContent_eq s o e
      rw [hchange]
      exact report s o change
    · exact refl s

theorem notify (s : Store) (c : Handle) (e : Event) : Reacts s (s.notify c e) := by
  rw [Store.notify, ObserverList.notify]
  generalize (s.observersOf c).entries.toList = entries
  induction entries generalizing s with
  | nil => exact refl s
  | cons x rest ih =>
    rw [List.foldl_cons]
    split
    · exact (deliver e x.2 s).trans (ih _)
    · exact ih s

variable {s t : Store}

theorem sends (h : Reacts s t) (k : ChannelId) : Sends k s t := by
  induction h with
  | refl s => exact .refl s
  | trans _ _ ih ih' => exact ih.trans ih'
  | relink s id o p last => exact .quiet (channels_putRelinked s id o p last)
  | move s id o new => exact .quiet (channels_moveContent s id o new)
  | report s o change => exact .report s o change

theorem heap (h : Reacts s t) : t.heap = s.heap := by
  induction h with
  | refl s => rfl
  | trans _ _ ih ih' => exact ih'.trans ih
  | relink s id o p last => exact heap_relink s id p
  | move s id o new => rw [moveContent_only]
  | report s o change => rfl

end Reacts

namespace Sends

variable {k : ChannelId}

theorem refresh (s : Store) (id : ObservationId) (direct : Bool) :
    Sends k s (s.refresh id direct) :=
  (Reacts.refresh s id direct).sends k

theorem write (s : Store) (w : Write) : Sends k s (s.write w) := by
  rcases hw : s.heap.write w with ⟨h, e | e⟩
  · rw [write_eq_of_none hw]
    exact refl s
  · rw [write_eq_of_some hw]
    have hheap : Sends k s { s with heap := h } := quiet rfl
    exact hheap.trans ((Reacts.notify _ _ _).sends k)

end Sends

end Store

end ReactivePage
