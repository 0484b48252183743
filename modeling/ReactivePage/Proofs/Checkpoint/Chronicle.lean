import ReactivePage.Proofs.Checkpoint.Freshness

/-!
Sessions that remember what their bindings have seen.

A chronicle keeps for each binding the model in which it was last evaluated, which no program can
see. As long as watches end only by unbinding, what a binding has seen and what it would see now
are the same, or a checkpoint will look at it.
-/

namespace ReactivePage

def Operation.keepsWatches {σ : Type} : Operation σ → Bool
  | act _ => true
  | watch _ => true
  | unwatch _ => false
  | release _ => false
  | closeAll => false
  | bind _ _ _ => true
  | unbind _ => true
  | checkpoint => true
  | runScheduled => true
  | wait _ => false

namespace Session

variable {σ : Type}

def turns (S : Session σ) : Operation σ → List (Turn σ)
  | .checkpoint => S.scheduler.turnsWith S.store []
  | .runScheduled =>
    if S.scheduler.settings.autoCheckpoint && S.scheduler.isScheduled S.store
    then S.scheduler.turnsWith S.store [] else []
  | _ => []

def Tame (S : Session σ) : Prop := S.scheduler.Tame S.store

instance (S : Session σ) : Decidable S.Tame :=
  inferInstanceAs (Decidable (S.scheduler.Tame S.store))

end Session

structure Chronicle (σ : Type) where
  session : Session σ
  seen : BindingId → Option Heap

namespace Chronicle

variable {σ : Type}

def perform (C : Chronicle σ) (op : Operation σ) : Chronicle σ where
  session := C.session.perform op
  seen id :=
    match (C.session.turns op).find? (·.id = id) with
    | some t => some t.before.heap
    | none => C.seen id

structure Allows (C : Chronicle σ) (op : Operation σ) : Prop where
  keepsWatches : op.keepsWatches = true
  admits : C.session.Admits op
  during : ∀ t ∈ C.session.moments op, C.session.scheduler.Tame t
  after : (C.session.perform op).Tame

inductive Reachable (settings : SchedulerSettings) : Chronicle σ → Prop
  | start : Reachable settings ⟨.start settings Evaluator.paths, fun _ => none⟩
  | perform {C : Chronicle σ} {op : Operation σ} :
      Reachable settings C → C.Allows op → Reachable settings (C.perform op)

/-- What the expressions of a binding give is what they gave when it was last evaluated. -/
def Current (C : Chronicle σ) (id : BindingId) (b : Binding σ) : Prop :=
  ∃ h, C.seen id = some h ∧ b.Current h C.session.store.heap

def Accounted (C : Chronicle σ) (id : BindingId) (b : Binding σ) : Prop :=
  b.fresh = true ∨ b.Announced C.session.store C.session.scheduler.channel ∨ C.Current id b

structure Faithful (C : Chronicle σ) : Prop where
  listening : C.session.scheduler.Listening C.session.store
  tame : C.session.Tame
  accounted : ∀ id b, C.session.scheduler.bindings.find? id = some b → C.Accounted id b

end Chronicle

namespace Scheduler

variable {σ : Type} {d : Scheduler σ} {s : Store}

theorem Listening.adjusted (L : d.Listening s) {r : Registry} {t : Store}
    (A : Registry.Adjusted d.registry s r t) (B : ({ d with registry := r } : Scheduler σ).Booked) :
    ({ d with registry := r } : Scheduler σ).Listening t where
  tracks := A.tracks
  booked := B
  evaluator := L.evaluator
  channel := A.channel.trans L.channel
  isOpen := by
    rw [Store.channel_congr A.channels]
    exact L.isOpen

theorem Listening.aside (L : d.Listening s) {t : Store} (hheap : t.heap = s.heap)
    (hobs : t.observers = s.observers) (hrec : t.observations = s.observations)
    (hnext : t.nextObservation = s.nextObservation)
    (hopen : (t.channel d.channel).isOpen = (s.channel d.channel).isOpen) : d.Listening t where
  tracks := L.tracks.aside hheap hobs hrec hnext
  booked := L.booked
  evaluator := L.evaluator
  channel := L.channel
  isOpen := hopen.trans L.isOpen

theorem channel_drain (s : Store) (k : ChannelId) :
    ((s.drain k).2.channel k).isOpen = (s.channel k).isOpen ∧
      ((s.drain k).2.channel k).queue = [] := by
  rw [Store.drain, Store.channel_setChannel, if_pos rfl]
  exact ⟨rfl, rfl⟩

theorem channel_schedule (s : Store) (k : ChannelId) :
    (s.schedule k).channel k = { s.channel k with due := true } := by
  rw [Store.schedule, Store.channel_setChannel, if_pos rfl]
  rfl

theorem Listening.checkpoint (L : d.Listening s) (htame : d.Tame s)
    (hm : ∀ t ∈ d.moments s [], t.heap.Closed ∧ d.Tame t) :
    (d.checkpointWith s []).2.1.Listening (d.checkpointWith s []).2.2 ∧
      (∀ id b seen, d.bindings.find? id = some b → b.Current seen s.heap →
        b.Announced (d.checkpointWith s []).2.2 d.channel ∨
          b.Current seen (d.checkpointWith s []).2.2.heap) ∧
      ∀ t ∈ d.turnsWith s [],
        t.binding.Announced (d.checkpointWith s []).2.2 d.channel ∨
          t.binding.Current t.before.heap (d.checkpointWith s []).2.2.heap := by
  have L₁ : d.Listening (s.drain d.channel).2 :=
    L.aside rfl rfl rfl rfl (channel_drain s d.channel).1
  have hbound : ∀ e ∈ d.affected s [], d.bindings.find? e.1 = some e.2 := by
    intro e he
    exact (mem_affected.1 he).1
  obtain ⟨L₂, hstay, hturns⟩ := L₁.refreshAll htame hbound hm
  refine ⟨⟨L₂.tracks, L.booked.checkpointWith s [], L₂.evaluator, L₂.channel, L₂.isOpen⟩, ?_,
    hturns⟩
  intro id b seen hb hcur
  exact hstay id b seen hb (.inr hcur)

end Scheduler

namespace Chronicle

variable {σ : Type} {C : Chronicle σ}

theorem seen_perform_of_mem {op : Operation σ} {t : Turn σ} (ht : t ∈ C.session.turns op)
    (hnodup : ((C.session.turns op).map (·.id)).Nodup) :
    (C.perform op).seen t.id = some t.before.heap := by
  have hfind : (C.session.turns op).find? (·.id = t.id) = some t := by
    cases h : (C.session.turns op).find? (·.id = t.id) with
    | none => simpa using List.find?_eq_none.1 h t ht
    | some t' =>
      have hid : t'.id = t.id := by simpa using List.find?_some h
      rw [List.inj_on_of_nodup_map hnodup (List.mem_of_find?_eq_some h) ht hid]
  simp only [perform, hfind]

theorem seen_perform_of_not_mem {op : Operation σ} {id : BindingId}
    (h : id ∉ (C.session.turns op).map (·.id)) : (C.perform op).seen id = C.seen id := by
  have hfind : (C.session.turns op).find? (·.id = id) = none := by
    apply List.find?_eq_none.2
    intro t ht heq
    exact h (List.mem_map.2 ⟨t, ht, by simpa using heq⟩)
  simp only [perform, hfind]

theorem Faithful.checkpoint (F : C.Faithful) (h : C.Allows .checkpoint) :
    (C.perform .checkpoint).Faithful := by
  have hm : ∀ t ∈ C.session.scheduler.moments C.session.store [],
      t.heap.Closed ∧ C.session.scheduler.Tame t := fun t ht => ⟨h.admits.1 t ht, h.during t ht⟩
  obtain ⟨L, hstay, hturns⟩ := F.listening.checkpoint F.tame hm
  have D := C.session.scheduler.checkpointed C.session.store []
  refine ⟨L, h.after, ?_⟩
  intro id b hb
  right
  by_cases hid : id ∈ (C.session.turns .checkpoint).map (·.id)
  · obtain ⟨t, ht, rfl⟩ := List.mem_map.1 hid
    cases (D.settled t ht).symm.trans hb
    exact (hturns t ht).imp_right fun hcur =>
      ⟨t.before.heap, seen_perform_of_mem ht (D.ascending.imp Nat.ne_of_lt), hcur⟩
  · have hb₀ : C.session.scheduler.bindings.find? id = some b := (D.untouched id hid).symm.trans hb
    have hcalled : ¬ b.CalledBy (C.session.store.channel C.session.scheduler.channel).queue := by
      intro hcall
      obtain ⟨t, ht, rfl, -⟩ := (D.called id b).2 ⟨hb₀, hcall⟩
      exact hid (List.mem_map_of_mem ht)
    rcases F.accounted id b hb₀ with hfresh | hann | ⟨seen, hseen, hcur⟩
    · exact absurd (.inl hfresh) hcalled
    · exact absurd (.inr hann) hcalled
    · exact (hstay id b seen hb₀ hcur).imp_right fun hcur =>
        ⟨seen, (seen_perform_of_not_mem hid).trans hseen, hcur⟩

theorem Faithful.act (F : C.Faithful) {program : Action Unit} (h : C.Allows (.act program)) :
    (C.perform (.act program)).Faithful := by
  obtain ⟨⟨L, -⟩, hstay⟩ := F.listening.run F.tame program fun t ht =>
    ⟨h.admits.1 t ht, h.during t ht⟩
  refine ⟨L, h.after, ?_⟩
  intro id b hb
  rcases F.accounted id b hb with hfresh | hann | ⟨seen, hseen, hcur⟩
  · exact .inl hfresh
  · exact .inr (.inl (hann.mono (program.sends_run _ _) L.isOpen))
  · exact .inr ((hstay id b seen hb (.inr hcur)).imp_right fun hcur => ⟨seen, hseen, hcur⟩)

theorem Faithful.quiet (F : C.Faithful) {op : Operation σ} {S : Session σ}
    (hS : C.session.perform op = S) (hturns : C.session.turns op = [])
    (L : S.scheduler.Listening S.store) (ht : S.Tame)
    (hheap : S.store.heap = C.session.store.heap)
    (hqueue : (S.store.channel S.scheduler.channel).queue
      = (C.session.store.channel C.session.scheduler.channel).queue)
    (hold : ∀ id b, S.scheduler.bindings.find? id = some b →
      b.fresh = true ∨ C.session.scheduler.bindings.find? id = some b) :
    (C.perform op).Faithful := by
  have hperform : C.perform op = ⟨S, C.seen⟩ := by simp [perform, hS, hturns]
  rw [hperform]
  refine ⟨L, ht, fun id b hb => ?_⟩
  rcases hold id b hb with hfresh | hb
  · exact .inl hfresh
  · have haccounted := F.accounted id b hb
    rw [Accounted, Binding.Announced, Current] at haccounted ⊢
    rw [hqueue, hheap]
    exact haccounted

theorem Faithful.adjusted (F : C.Faithful) {op : Operation σ} {r : Registry} {s : Store}
    (hS : C.session.perform op = ⟨{ C.session.scheduler with registry := r }, s⟩)
    (hturns : C.session.turns op = []) (ht : (C.session.perform op).Tame)
    (A : Registry.Adjusted C.session.scheduler.registry C.session.store r s)
    (hbooked : ({ C.session.scheduler with registry := r } : Scheduler σ).Booked) :
    (C.perform op).Faithful := by
  refine F.quiet hS hturns (F.listening.adjusted A hbooked) (hS ▸ ht) A.heap ?_ fun _ _ => .inr
  rw [Store.channel_congr A.channels]

theorem Faithful.watch (F : C.Faithful) {target : Target} (h : C.Allows (.watch target)) :
    (C.perform (.watch target)).Faithful := by
  cases hw : C.session.scheduler.registry.watch C.session.store target with
  | error e =>
    have hsame : C.session.perform (.watch target) = C.session := by
      simp only [Session.perform, Scheduler.watch, hw]
      rfl
    exact F.quiet hsame rfl F.listening F.tame rfl rfl fun _ _ => .inr
  | ok x =>
    obtain ⟨w, r, s⟩ := x
    obtain ⟨key, -, W⟩ := F.listening.tracks.watch h.admits.2 hw
    obtain ⟨G, -⟩ := W.grown
    have hsame : C.session.perform (.watch target)
        = ⟨{ C.session.scheduler with registry := r }, s⟩ := by
      simp only [Session.perform, Scheduler.watch, hw]
      rfl
    refine F.adjusted hsame rfl h.after W.toAdjusted ?_
    refine F.listening.booked.registry (fun w' => ?_) fun w' key hkey _ => G.keys w' key hkey
    rw [G.holders]
    exact Nat.le_add_right _ _

theorem Faithful.bind (F : C.Faithful) {value : Descriptor} {scope : Handle}
    {target : BindingTarget σ} (h : C.Allows (.bind value scope target)) :
    (C.perform (.bind value scope target)).Faithful := by
  have L := F.listening
  have hscope : scope < C.session.store.heap.next := h.admits.2
  have A := Scheduler.adjusted_watchPaths L.tracks hscope []
    (C.session.scheduler.dependencies value)
  have B := L.booked.bind L.tracks hscope value target
  have hperform : C.session.perform (.bind value scope target)
      = ⟨(C.session.scheduler.bind C.session.store value scope target).2.1,
        (C.session.scheduler.bind C.session.store value scope target).2.2⟩ := rfl
  rw [Scheduler.bind] at B hperform
  cases hrun : Scheduler.watchPaths C.session.scheduler.registry C.session.store scope []
      (C.session.scheduler.dependencies value) with
  | mk result x =>
    obtain ⟨r, s⟩ := x
    rw [hrun] at A B hperform
    cases result with
    | error e => exact F.adjusted hperform rfl h.after A B
    | ok watches =>
      refine F.quiet hperform rfl ?_ (hperform ▸ h.after) A.heap ?_ ?_
      · have hopen : (s.channel C.session.scheduler.channel).isOpen = true := by
          rw [Store.channel_congr A.channels]
          exact L.isOpen
        refine ⟨A.tracks.aside rfl rfl rfl rfl, B, L.evaluator, A.channel.trans L.channel, ?_⟩
        simp only [Scheduler.channel_schedule]
        exact hopen
      · simp only [Scheduler.channel_schedule]
        rw [Store.channel_congr A.channels]
      · intro id b hb
        simp only [Dict.find?_insert_eq_ite] at hb
        split at hb
        · cases hb
          exact .inl rfl
        · exact .inr hb

theorem Faithful.unbind (F : C.Faithful) {id : BindingId} (h : C.Allows (.unbind id)) :
    (C.perform (.unbind id)).Faithful := by
  have L := F.listening
  have B := L.booked.unbind L.tracks id
  have hperform : C.session.perform (.unbind id)
      = ⟨(C.session.scheduler.unbind C.session.store id).2.1,
        (C.session.scheduler.unbind C.session.store id).2.2⟩ := rfl
  rw [Scheduler.unbind] at B hperform
  cases hb : C.session.scheduler.bindings.find? id with
  | none =>
    rw [hb] at hperform
    exact F.quiet hperform rfl L F.tame rfl rfl fun _ _ => .inr
  | some b =>
    rw [hb] at B hperform
    have A := L.tracks.releaseAll b.watches
    refine F.quiet hperform rfl ?_ (hperform ▸ h.after) A.heap ?_ ?_
    · refine ⟨A.tracks, B, L.evaluator, A.channel.trans L.channel, ?_⟩
      rw [Store.channel_congr A.channels]
      exact L.isOpen
    · rw [Store.channel_congr A.channels]
    · intro id' b' hb'
      right
      simp only [Dict.find?_erase_eq_ite] at hb'
      split at hb'
      · cases hb'
      · exact hb'

theorem Faithful.runScheduled (F : C.Faithful) (h : C.Allows .runScheduled) :
    (C.perform .runScheduled).Faithful := by
  by_cases hdue : (C.session.scheduler.settings.autoCheckpoint
      && C.session.scheduler.isScheduled C.session.store) = true
  · have hperform : C.session.perform .runScheduled = C.session.perform .checkpoint := by
      simp only [Session.perform, Scheduler.runScheduled, if_pos hdue]
    have hturns : C.session.turns .runScheduled = C.session.turns .checkpoint := if_pos hdue
    have hmoments : C.session.moments .runScheduled = C.session.moments .checkpoint := if_pos hdue
    have hsame : C.perform .runScheduled = C.perform .checkpoint := by
      rw [perform, perform, hperform, hturns]
    rw [hsame]
    apply F.checkpoint
    exact ⟨rfl, ⟨hmoments ▸ h.admits.1, trivial⟩, hmoments ▸ h.during, hperform ▸ h.after⟩
  · have hperform : C.session.perform .runScheduled = C.session := by
      simp only [Session.perform, Scheduler.runScheduled, if_neg hdue]
    exact F.quiet hperform (if_neg hdue) F.listening F.tame rfl rfl fun _ _ => .inr

theorem faithful_start (settings : SchedulerSettings) :
    (⟨.start settings Evaluator.paths, fun _ => none⟩ : Chronicle σ).Faithful where
  listening := by
    have O := Session.ordered_start (σ := σ) settings Evaluator.paths
    refine ⟨O.tracks, ⟨fun _ => Nat.zero_le _, ?_, ?_⟩, rfl, O.channel, rfl⟩
    · intro id b hb
      cases hb
    · intro id b hb
      cases hb
  tame := by
    intro id b hb
    cases hb
  accounted := by
    intro id b hb
    cases hb

theorem Faithful.perform (F : C.Faithful) {op : Operation σ} (h : C.Allows op) :
    (C.perform op).Faithful := by
  cases op with
  | act program => exact F.act h
  | watch target => exact F.watch h
  | unwatch w => cases h.keepsWatches
  | release w => cases h.keepsWatches
  | closeAll => cases h.keepsWatches
  | bind value scope target => exact F.bind h
  | unbind id => exact F.unbind h
  | checkpoint => exact F.checkpoint h
  | runScheduled => exact F.runScheduled h
  | wait late => cases h.keepsWatches

theorem Reachable.faithful {settings : SchedulerSettings} (h : Reachable settings C) :
    C.Faithful := by
  induction h with
  | start => exact faithful_start settings
  | perform _ ha ih => exact ih.perform ha

end Chronicle

namespace Turn

variable {σ : Type}

def writes (t : Turn σ) : List Write :=
  match t.result with
  | .ok value => (t.binding.target.receive value t.binding.target.memory).writes t.before
  | .error _ => []

theorem exists_wakes {t : Turn σ} {evaluator : Evaluator} (hfair : t.Fair evaluator)
    (hw : t.writes = []) (k : ChannelId) :
    ∃ l, Store.Raises k t.before l t.after ∧ ∀ signal ∈ l, signal = .wake := by
  cases hr : t.result with
  | ok value =>
    rw [writes, hr] at hw
    obtain ⟨memory, hrun, -⟩ := hfair.applied value hr
    have hwakes := Action.exists_wakes _ _ hw k
    rwa [hrun] at hwakes
  | error e =>
    rw [(hfair.spared e hr).2]
    exact ⟨[], .quiet rfl, by simp⟩

end Turn

namespace Scheduler

variable {σ : Type}

theorem no_change_of_writes_eq_nil {d : Scheduler σ} {s : Store} {received : List Signal}
    (hw : ∀ t ∈ d.turnsWith s received, t.writes = []) (n : Notification) :
    .change n ∉ ((d.checkpointWith s received).2.2.channel d.channel).queue := by
  have D := d.checkpointed s received
  have hwakes : ∀ ts : List (Turn σ), (∀ t ∈ ts, t.Fair d.evaluator) → (∀ t ∈ ts, t.writes = []) →
      ∃ raised, List.Forall₂ (fun t l => Store.Raises d.channel t.before l t.after) ts raised ∧
        ∀ signal ∈ raised.flatten, signal = .wake := by
    intro ts
    induction ts with
    | nil => exact fun _ _ => ⟨[], .nil, by simp⟩
    | cons t rest ih =>
      intro hfair hw
      rw [List.forall_mem_cons] at hfair hw
      obtain ⟨l, hl, hlw⟩ := t.exists_wakes hfair.1 hw.1 d.channel
      obtain ⟨raised, hraised, hrest⟩ := ih hfair.2 hw.2
      refine ⟨l :: raised, .cons hl hraised, ?_⟩
      rw [List.flatten_cons, List.forall_mem_append]
      exact ⟨hlw, hrest⟩
  obtain ⟨raised, hraised, hall⟩ := hwakes _ D.fair hw
  have hqueue := (queue_of_chain D.chained hraised).2
  rw [(channel_drain s d.channel).2, List.nil_append] at hqueue
  rw [hqueue]
  split
  · intro hm
    cases hall _ hm
  · simp

end Scheduler

namespace Chronicle

variable {σ : Type} {C : Chronicle σ}

/-- In every state between two operations a binding is new, or a change of one of its watches waits
for a checkpoint, or its expressions give what they gave when it was last evaluated. So after a
checkpoint whose targets write nothing, all bindings are current. -/
theorem Reachable.noStaleBinding {settings : SchedulerSettings} (h : Reachable settings C) :
    (∀ id b, C.session.scheduler.bindings.find? id = some b →
      b.fresh = true ∨ b.Announced C.session.store C.session.scheduler.channel ∨
        C.Current id b) ∧
    (C.Allows .checkpoint → (∀ t ∈ C.session.turns .checkpoint, t.writes = []) →
      ∀ id b, (C.perform .checkpoint).session.scheduler.bindings.find? id = some b →
        (C.perform .checkpoint).Current id b) := by
  refine ⟨h.faithful.accounted, fun ha hw id b hb => ?_⟩
  have F := h.faithful.checkpoint ha
  have D := C.session.scheduler.checkpointed C.session.store []
  rcases F.accounted id b hb with hfresh | ⟨n, hn, -⟩ | hcur
  · by_cases hid : id ∈ (C.session.turns .checkpoint).map (·.id)
    · obtain ⟨t, ht, rfl⟩ := List.mem_map.1 hid
      cases (D.settled t ht).symm.trans hb
      cases hfresh
    · have hb₀ := (D.untouched id hid).symm.trans hb
      obtain ⟨t, ht, rfl, -⟩ := (D.called id b).2 ⟨hb₀, .inl hfresh⟩
      exact absurd (List.mem_map_of_mem ht) hid
  · exact absurd hn (Scheduler.no_change_of_writes_eq_nil hw n)
  · exact hcur

def flagChronicle : Chronicle Unit :=
  let C : Chronicle Unit := ⟨.start Settings.default.scheduler Evaluator.paths, fun _ => none⟩
  let C := C.perform (.act (.create (.object (Dict.ofList [("done", .scalar (.bool false))]))
    fun _ => .done ()))
  let C := C.perform (.bind (.single "done") 1
    ⟨(), fun value _ => .render "done" value (.done ())⟩)
  let C := C.perform .checkpoint
  C.perform (.act (.write (.put 1 "done" (.scalar (.bool true))) (.done ())))

theorem reachable_flagChronicle : Reachable Settings.default.scheduler flagChronicle := by
  refine .perform (.perform (.perform (.perform .start ?_) ?_) ?_) ?_
  · exact ⟨rfl, ⟨by decide, trivial⟩, by decide, by decide⟩
  · exact ⟨rfl, ⟨by decide, by decide⟩, by decide, by decide⟩
  · exact ⟨rfl, ⟨by decide, trivial⟩, by decide, by decide⟩
  · exact ⟨rfl, ⟨by decide, trivial⟩, by decide, by decide⟩

theorem noStaleBinding_flag :
    Reachable Settings.default.scheduler flagChronicle ∧
      (∃ b, flagChronicle.session.scheduler.bindings.find? 1 = some b ∧ b.fresh = false ∧
        flagChronicle.Accounted 1 b) ∧
      ∃ b, (flagChronicle.perform .checkpoint).session.scheduler.bindings.find? 1 = some b ∧
        (flagChronicle.perform .checkpoint).Current 1 b := by
  obtain ⟨haccounted, hcurrent⟩ := reachable_flagChronicle.noStaleBinding
  refine ⟨reachable_flagChronicle, ⟨_, rfl, rfl, haccounted 1 _ rfl⟩, _, rfl, ?_⟩
  apply hcurrent ⟨rfl, ⟨by decide, trivial⟩, by decide, by decide⟩ _ 1 _ rfl
  intro t ht
  cases List.mem_singleton.1 ht
  rfl

end Chronicle

end ReactivePage
