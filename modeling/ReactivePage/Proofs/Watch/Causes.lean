import ReactivePage.Proofs.Watch.Follow

/-!
The changes that a write causes.

Dispatch sends on channels and never looks at them: stores that differ in their channels alone
stay so when the same is written to both, and the same changes are sent. So a write causes a list
of changes that is known without the channel, and each of them carries the number of a watch that
is observed.
-/

namespace ReactivePage

def Signal.notification? : Signal → Option Notification
  | change n => some n
  | wake => none

theorem filterMap_notification?_changes (ns : List Notification) :
    (ns.map Signal.change).filterMap Signal.notification? = ns := by
  induction ns with
  | nil => rfl
  | cons n rest ih => simpa [Signal.notification?] using ih

namespace Store

def withChannels (s : Store) (channels : Dict ChannelId Channel) : Store := { s with channels }

def detach (s : Store) (k : ChannelId) : Store := s.setChannel k Channel.empty

section WithChannels

variable (s : Store) (cs : Dict ChannelId Channel)

@[simp] theorem heap_withChannels : (s.withChannels cs).heap = s.heap := rfl

@[simp] theorem observations_withChannels :
    (s.withChannels cs).observations = s.observations := rfl

@[simp] theorem observersOf_withChannels (c : Handle) :
    (s.withChannels cs).observersOf c = s.observersOf c := rfl

@[simp] theorem accepts_withChannels (c : Handle) (step : Step) :
    (s.withChannels cs).accepts c step = s.accepts c step := rfl

@[simp] theorem handleOf?_withChannels (kind : Kind) (v : Option Value) :
    (s.withChannels cs).handleOf? kind v = s.handleOf? kind v := rfl

@[simp] theorem subscribe_withChannels (c : Handle) (o : Observer) :
    (s.withChannels cs).subscribe c o
      = ((s.subscribe c o).1, (s.subscribe c o).2.withChannels cs) := rfl

theorem linkAll_withChannels (id : ObservationId) (i : Nat) (chain : List Handle)
    (steps : List Step) :
    (s.withChannels cs).linkAll id i chain steps
      = ((s.linkAll id i chain steps).1, (s.linkAll id i chain steps).2.withChannels cs) := by
  induction chain generalizing s i steps with
  | nil => rfl
  | cons c chain ih =>
    cases steps with
    | nil => rfl
    | cons step steps =>
      simp only [linkAll, accepts_withChannels]
      by_cases ha : s.accepts c step = true
      · simp only [if_pos ha, subscribe_withChannels, ih]
      · simp only [if_neg ha, ih]

theorem unsubscribeAll_withChannels (subs : List Subscription) :
    (s.withChannels cs).unsubscribeAll subs = (s.unsubscribeAll subs).withChannels cs := by
  induction subs generalizing s with
  | nil => rfl
  | cons sub rest ih => exact ih (s.unsubscribe sub)

theorem relink_withChannels (id : ObservationId) (p : PathWatch) :
    (s.withChannels cs).relink id p
      = ((s.relink id p).1, (s.relink id p).2.withChannels cs) := by
  simp only [relink]
  rw [heap_withChannels]
  split
  · rfl
  · simp only [unsubscribeAll_withChannels, linkAll_withChannels]

theorem subscribeContent_withChannels (id : ObservationId) (kind : Kind) (v : Option Value) :
    (s.withChannels cs).subscribeContent id kind v
      = ((s.subscribeContent id kind v).1, (s.subscribeContent id kind v).2.withChannels cs) := by
  cases v with
  | none => rfl
  | some v =>
    cases v with
    | scalar j => rfl
    | ref c =>
      simp only [subscribeContent]
      rw [heap_withChannels]
      split
      · rfl
      · rfl

theorem moveContent_withChannels (id : ObservationId) (o : Observation) (new : Option Value) :
    (s.withChannels cs).moveContent id o new = (s.moveContent id o new).withChannels cs := by
  simp only [moveContent, subscribeContent_withChannels, unsubscribeAll_withChannels]
  rfl

theorem putRelinked_withChannels (id : ObservationId) (o : Observation) (p : PathWatch)
    (last : Option Value) :
    (s.withChannels cs).putRelinked id o p last
      = (s.putRelinked id o p last).withChannels cs := by
  simp only [putRelinked, relinked, relink_withChannels]
  rfl

end WithChannels

def Serves (s : Store) (k : ChannelId) (w : WatchId) : Prop :=
  ∃ id o, s.observations.find? id = some o ∧ o.channel = k ∧ o.watch = w

theorem Serves.of_setObservation {s : Store} {id : ObservationId} {o : Observation}
    {k : ChannelId} {w : WatchId} (h : (s.setObservation id o).Serves k w)
    (ho : s.Serves o.channel o.watch) : s.Serves k w := by
  obtain ⟨j, o', hj, rfl, rfl⟩ := h
  rw [find?_setObservation] at hj
  split at hj
  · cases hj
    exact ho
  · exact ⟨j, o', hj, rfl, rfl⟩

theorem Serves.congr {s t : Store} {k : ChannelId} {w : WatchId} (h : t.Serves k w)
    (hrec : t.observations = s.observations) : s.Serves k w := by
  obtain ⟨id, o, ho, hk, hw⟩ := h
  exact ⟨id, o, hrec ▸ ho, hk, hw⟩

theorem Serves.of_putRelinked {s : Store} {id : ObservationId} {o : Observation} {p : PathWatch}
    {last : Option Value} {k : ChannelId} {w : WatchId}
    (h : (s.putRelinked id o p last).Serves k w) (ho : s.Serves o.channel o.watch) :
    s.Serves k w := by
  have hrec : (s.relink id p).2.observations = s.observations := by rw [relink_only]
  exact (h.of_setObservation (ho.congr hrec.symm)).congr hrec

theorem Serves.of_moveContent {s : Store} {id : ObservationId} {o : Observation}
    {new : Option Value} {k : ChannelId} {w : WatchId} (h : (s.moveContent id o new).Serves k w)
    (ho : s.Serves o.channel o.watch) : s.Serves k w := by
  have hrec : ((s.subscribeContent id o.kind new).2.unsubscribeAll o.content.toList).observations
      = s.observations := by
    rw [(Rewired.unsubscribeAll _ _).observations, (Rewired.subscribeContent s id _ _).observations]
  exact (h.of_setObservation (ho.congr hrec.symm)).congr hrec

/-- The same was done to two stores that differ in their channels: they still differ in nothing
else, and the same changes were sent, each for a watch that was observed before. -/
structure InStep (s t s' t' : Store) : Prop where
  twins : ∃ cs, t' = s'.withChannels cs
  serves : ∀ k w, s'.Serves k w → s.Serves k w
  raises : ∀ k, ∃ ns : List Notification, (∀ n ∈ ns, s.Serves k n.watch) ∧
    Raises k s (ns.map .change) s' ∧ Raises k t (ns.map .change) t'

namespace InStep

variable {s t s' t' s'' t'' : Store} {cs : Dict ChannelId Channel}

theorem quiet (ht : ∃ cs, t' = s'.withChannels cs) (hserves : ∀ k w, s'.Serves k w → s.Serves k w)
    (hs : s'.channels = s.channels) (ht' : t'.channels = t.channels) : InStep s t s' t' where
  twins := ht
  serves := hserves
  raises := fun _ => ⟨[], by simp, .quiet hs, .quiet ht'⟩

theorem refl (s : Store) (cs : Dict ChannelId Channel) :
    InStep s (s.withChannels cs) s (s.withChannels cs) :=
  quiet ⟨cs, rfl⟩ (fun _ _ h => h) rfl rfl

theorem trans (I : InStep s t s' t') (J : InStep s' t' s'' t'') : InStep s t s'' t'' where
  twins := J.twins
  serves := fun k w h => I.serves k w (J.serves k w h)
  raises := by
    intro k
    obtain ⟨ns, hns, hs, ht⟩ := I.raises k
    obtain ⟨ms, hms, hs', ht'⟩ := J.raises k
    refine ⟨ns ++ ms, ?_, ?_, ?_⟩
    · rw [List.forall_mem_append]
      exact ⟨hns, fun n hn => I.serves k _ (hms n hn)⟩
    · rw [List.map_append]
      exact hs.trans hs'
    · rw [List.map_append]
      exact ht.trans ht'

theorem report {o : Observation} (ho : s.Serves o.channel o.watch) (cs : Dict ChannelId Channel)
    (change : Change) :
    InStep s (s.withChannels cs) (s.report o change) ((s.withChannels cs).report o change) where
  twins := ⟨_, rfl⟩
  serves := fun _ _ h => h
  raises := by
    intro k
    by_cases hk : o.channel = k
    · subst hk
      exact ⟨[⟨o.watch, o.label, change⟩], by simpa using ho, .send s _, .send _ _⟩
    · exact ⟨[], by simp, .elsewhere s _ hk, .elsewhere _ _ hk⟩

theorem moveContent {o : Observation} (ho : s.Serves o.channel o.watch)
    (cs : Dict ChannelId Channel) (id : ObservationId) (new : Option Value) :
    InStep s (s.withChannels cs) (s.moveContent id o new)
      ((s.withChannels cs).moveContent id o new) := by
  refine quiet ⟨cs, moveContent_withChannels s cs id o new⟩
    (fun _ _ h => h.of_moveContent ho) (channels_moveContent s id o new)
    (channels_moveContent _ id o new)

theorem putRelinked {o : Observation} (ho : s.Serves o.channel o.watch)
    (cs : Dict ChannelId Channel) (id : ObservationId) (p : PathWatch) (last : Option Value) :
    InStep s (s.withChannels cs) (s.putRelinked id o p last)
      ((s.withChannels cs).putRelinked id o p last) := by
  refine quiet ⟨cs, putRelinked_withChannels s cs id o p last⟩
    (fun _ _ h => h.of_putRelinked ho) (channels_putRelinked s id o p last)
    (channels_putRelinked _ id o p last)

theorem followCollection {o : Observation} {id : ObservationId}
    (ho : s.observations.find? id = some o) (cs : Dict ChannelId Channel)
    (old new : Option Value) :
    InStep s (s.withChannels cs) (s.followCollection id o old new)
      ((s.withChannels cs).followCollection id o old new) := by
  have hserves : s.Serves o.channel o.watch := ⟨id, o, ho, rfl, rfl⟩
  rw [followCollection_eq, followCollection_eq, handleOf?_withChannels]
  by_cases hsame : (s.handleOf? o.kind new).isSome ∧
      s.handleOf? o.kind new = o.content.map (·.container)
  · rw [if_pos hsame, if_pos hsame]
    exact refl s cs
  · rw [if_neg hsame, if_neg hsame]
    have hmove : ∃ t t', t = (if s.handleOf? o.kind new = o.content.map (·.container) then s
          else s.moveContent id o new) ∧
        t' = (if s.handleOf? o.kind new = o.content.map (·.container) then s.withChannels cs
          else (s.withChannels cs).moveContent id o new) ∧
        InStep s (s.withChannels cs) t t' ∧ t.Serves o.channel o.watch := by
      by_cases hstay : s.handleOf? o.kind new = o.content.map (·.container)
      · simp only [if_pos hstay]
        exact ⟨_, _, rfl, rfl, refl s cs, hserves⟩
      · simp only [if_neg hstay]
        exact ⟨_, _, rfl, rfl, moveContent hserves cs id new, id, _,
          find?_moveContent s id o new, rfl, rfl⟩
    obtain ⟨t, t', ht, ht', I, hserves'⟩ := hmove
    obtain ⟨cs', rfl⟩ := I.twins
    simp only [← ht, ← ht']
    split
    · exact I
    · exact I.trans (report hserves' cs' _)

theorem refresh (s : Store) (cs : Dict ChannelId Channel) (id : ObservationId) (direct : Bool) :
    InStep s (s.withChannels cs) (s.refresh id direct) ((s.withChannels cs).refresh id direct) := by
  cases ho : s.observations.find? id with
  | none =>
    have ho' : (s.withChannels cs).observations.find? id = none := ho
    simp only [Store.refresh, ho, ho']
    exact refl s cs
  | some o =>
    have ho' : (s.withChannels cs).observations.find? id = some o := ho
    have hserves : s.Serves o.channel o.watch := ⟨id, o, ho, rfl, rfl⟩
    cases hp : o.holder with
    | none =>
      simp only [Store.refresh, ho, ho', hp]
      exact refl s cs
    | some p =>
      simp only [refresh_eq ho hp, refresh_eq ho' hp]
      rw [heap_withChannels]
      split
      · have hmoved : (s.withChannels cs).relinked id o p (s.heap.lookup? p.root p.path)
            = s.relinked id o p (s.heap.lookup? p.root p.path) := by
          rw [relinked, relink_withChannels]
          rfl
        have I := putRelinked hserves cs id p (s.heap.lookup? p.root p.path)
        rw [hmoved, putRelinked_withChannels]
        rw [putRelinked_withChannels] at I
        have hput := find?_putRelinked s id o p (s.heap.lookup? p.root p.path)
        split
        · exact I.trans (report ⟨id, _, hput, rfl, rfl⟩ cs _)
        · exact I.trans (followCollection hput cs p.last _)
      · exact putRelinked hserves cs id p p.last

theorem deliverLink (s : Store) (cs : Dict ChannelId Channel) (id : ObservationId) (step : Step)
    (isLeaf : Bool) (e : Event) :
    InStep s (s.withChannels cs) (s.deliverLink id step isLeaf e)
      ((s.withChannels cs).deliverLink id step isLeaf e) := by
  rw [deliverLink_eq, deliverLink_eq]
  split
  · exact refresh s cs id _
  · exact refl s cs

theorem deliver (e : Event) (observer : Observer) (s : Store) (cs : Dict ChannelId Channel) :
    InStep s (s.withChannels cs) (s.deliver e observer)
      ((s.withChannels cs).deliver e observer) := by
  cases observer with
  | link id i =>
    simp only [Store.deliver, observations_withChannels]
    split
    · split
      · exact deliverLink s cs id _ _ e
      · exact refl s cs
    · exact refl s cs
  | content id =>
    simp only [Store.deliver, observations_withChannels]
    split
    · next o ho =>
      have hserves : s.Serves o.channel o.watch := ⟨id, o, ho, rfl, rfl⟩
      cases e with
      | entry key old new => exact report hserves cs _
      | splice index removed added => exact report hserves cs _
    · exact refl s cs

theorem notify (s : Store) (cs : Dict ChannelId Channel) (c : Handle) (e : Event) :
    InStep s (s.withChannels cs) (s.notify c e) ((s.withChannels cs).notify c e) := by
  rw [Store.notify, Store.notify, ObserverList.notify, ObserverList.notify,
    observersOf_withChannels]
  generalize (s.observersOf c).entries.toList = entries
  induction entries generalizing s cs with
  | nil => exact refl s cs
  | cons x rest ih =>
    rw [List.foldl_cons, List.foldl_cons, observersOf_withChannels]
    split
    · have I := deliver e x.2 s cs
      obtain ⟨cs', hcs'⟩ := I.twins
      rw [hcs'] at I ⊢
      exact I.trans (ih _ cs')
    · exact ih s cs

theorem write (s : Store) (cs : Dict ChannelId Channel) (w : Write) :
    InStep s (s.withChannels cs) (s.write w) ((s.withChannels cs).write w) := by
  rcases hw : s.heap.write w with ⟨h, e | e⟩
  · have hw' : (s.withChannels cs).heap.write w = (h, none) := hw
    rw [write_eq_of_none hw, write_eq_of_none hw']
    exact refl s cs
  · have hw' : (s.withChannels cs).heap.write w = (h, some e) := hw
    rw [write_eq_of_some hw, write_eq_of_some hw']
    have hheap : InStep s (s.withChannels cs) { s with heap := h }
        (Store.withChannels { s with heap := h } cs) :=
      quiet ⟨cs, rfl⟩ (fun _ _ hserves => hserves) rfl rfl
    exact hheap.trans (notify _ cs _ _)

end InStep

/-- The changes that a write sends on a channel, read off a channel of its own. -/
def caused (s : Store) (k : ChannelId) (w : Write) : List Notification :=
  (((s.detach k).write w).channel k).queue.filterMap Signal.notification?

theorem channel_detach (s : Store) (k : ChannelId) : (s.detach k).channel k = Channel.empty := by
  rw [detach, channel_setChannel, if_pos rfl]

theorem caused_eq_of_raises {s : Store} {k : ChannelId} {w : Write} {ns : List Notification}
    (h : Raises k (s.detach k) (ns.map .change) ((s.detach k).write w)) : s.caused k w = ns := by
  have hempty := channel_detach s k
  have hopen : ((s.detach k).channel k).isOpen = true := by
    rw [hempty]
    rfl
  rw [caused, h.queue hopen, hempty]
  exact filterMap_notification?_changes ns

theorem raises_write (s : Store) (k : ChannelId) (w : Write) :
    Raises k s ((s.caused k w).map .change) (s.write w) := by
  obtain ⟨ns, -, hs, ht⟩ := (InStep.write s (s.detach k).channels w).raises k
  rw [caused_eq_of_raises ht]
  exact hs

theorem serves_of_mem_caused {s : Store} {k : ChannelId} {w : Write} {n : Notification}
    (h : n ∈ s.caused k w) : s.Serves k n.watch := by
  obtain ⟨ns, hns, -, ht⟩ := (InStep.write s (s.detach k).channels w).raises k
  rw [caused_eq_of_raises ht] at h
  exact hns n h

end Store

end ReactivePage
