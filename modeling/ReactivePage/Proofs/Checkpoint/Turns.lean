import ReactivePage.Proofs.Checkpoint.Session

namespace ReactivePage

namespace Signal

def isChange : Signal → Bool
  | change _ => true
  | wake => false

def isWake : Signal → Bool
  | change _ => false
  | wake => true

end Signal

def Binding.CalledBy {σ : Type} (b : Binding σ) (signals : List Signal) : Prop :=
  b.fresh = true ∨ ∃ n : Notification, .change n ∈ signals ∧ n.watch ∈ b.watches

structure Turn (σ : Type) where
  id : BindingId
  binding : Binding σ
  before : Store
  result : Except EvalError Json
  target : BindingTarget σ
  after : Store

namespace Turn

variable {σ : Type}

/-- The value is that of the descriptor in the model of the turn; the target takes it once, and
without a value nothing happens. -/
structure Fair (t : Turn σ) (evaluator : Evaluator) : Prop where
  result : t.result
    = t.binding.value.evaluate (evaluator.evaluate t.before.heap t.binding.scope)
  applied : ∀ value, t.result = .ok value → ∃ memory,
    (t.binding.target.receive value t.binding.target.memory).run t.before = (memory, t.after) ∧
      t.target = { t.binding.target with memory }
  spared : ∀ e, t.result = .error e → t.target = t.binding.target ∧ t.after = t.before

def Chain : Store → List (Turn σ) → Store → Prop
  | s, [], s' => s' = s
  | s, t :: rest, s' => t.before = s ∧ Chain t.after rest s'

def succeeded (t : Turn σ) : Bool :=
  match t.result with
  | .ok _ => true
  | .error _ => false

def failure? (t : Turn σ) : Option (BindingId × EvalError) :=
  match t.result with
  | .ok _ => none
  | .error e => some (t.id, e)

def settled (t : Turn σ) : Binding σ := { t.binding with target := t.target, fresh := false }

end Turn

namespace Scheduler

variable {σ : Type}

/-- What a checkpoint has done when it went through these turns. -/
structure Checkpointed (d : Scheduler σ) (s : Store) (received : List Signal)
    (report : Report) (d' : Scheduler σ) (s' : Store) (turns : List (Turn σ)) : Prop where
  notifications : report.notifications
    = (received ++ (s.channel d.channel).queue).countP Signal.isChange
  wakes : report.wakes = (received ++ (s.channel d.channel).queue).countP Signal.isWake
  called : ∀ id b, (∃ t ∈ turns, t.id = id ∧ t.binding = b) ↔
    d.bindings.find? id = some b ∧ b.CalledBy (received ++ (s.channel d.channel).queue)
  ascending : (turns.map (·.id)).Pairwise (· < ·)
  chained : Turn.Chain (s.drain d.channel).2 turns s'
  fair : ∀ t ∈ turns, t.Fair d.evaluator
  evaluated : report.evaluated = (turns.filter (·.succeeded)).map (·.id)
  failures : report.failures = turns.filterMap (·.failure?)
  ordered : report.evaluated.Pairwise (· < ·) ∧ (report.failures.map Prod.fst).Pairwise (· < ·)
  disjoint : ∀ id ∈ report.evaluated, id ∉ report.failures.map Prod.fst
  covered : ∀ id, (id ∈ report.evaluated ∨ id ∈ report.failures.map Prod.fst) ↔
    ∃ b, d.bindings.find? id = some b ∧
      b.CalledBy (received ++ (s.channel d.channel).queue)
  settled : ∀ t ∈ turns, d'.bindings.find? t.id = some t.settled
  untouched : ∀ id, id ∉ turns.map (·.id) → d'.bindings.find? id = d.bindings.find? id
  rest : d' = { d with bindings := d'.bindings, sequence := d.sequence + 1 }
  /-- The queue afterwards is what the turns raised, in order. -/
  raised : ∃ raised,
    List.Forall₂ (fun t l => Store.Raises d.channel t.before l t.after) turns raised ∧
    (s'.channel d.channel).queue = if (s.channel d.channel).isOpen then raised.flatten else []

def turns (evaluator : Evaluator) : List (BindingId × Binding σ) → Store → List (Turn σ)
  | [], _ => []
  | (id, b) :: rest, s =>
    let result := b.value.evaluate (evaluator.evaluate s.heap b.scope)
    let (target, after) :=
      match result with
      | .ok value => b.target.run value s
      | .error _ => (b.target, s)
    ⟨id, b, s, result, target, after⟩ :: turns evaluator rest after

theorem turns_cons (evaluator : Evaluator) (id : BindingId) (b : Binding σ)
    (rest : List (BindingId × Binding σ)) (s : Store) :
    ∃ t : Turn σ, t.id = id ∧ t.binding = b ∧ t.before = s ∧ t.after = (refresh evaluator b s).2 ∧
      turns evaluator ((id, b) :: rest) s = t :: turns evaluator rest t.after := by
  refine ⟨_, rfl, rfl, rfl, ?_, rfl⟩
  rw [refresh]
  cases b.value.evaluate (evaluator.evaluate s.heap b.scope) <;> rfl

def outcome (t : Turn σ) : BindingId × Outcome σ :=
  match t.result with
  | .ok _ => (t.id, .ok t.target)
  | .error e => (t.id, .error e)

theorem outcome_ok {t : Turn σ} {value : Json} (h : t.result = .ok value) :
    outcome t = (t.id, .ok t.target) := by rw [outcome, h]

theorem outcome_error {t : Turn σ} {e : EvalError} (h : t.result = .error e) :
    outcome t = (t.id, .error e) := by rw [outcome, h]

theorem refreshAll_eq (evaluator : Evaluator) (bindings : List (BindingId × Binding σ))
    (s : Store) :
    (refreshAll evaluator bindings s).1 = (turns evaluator bindings s).map outcome := by
  induction bindings generalizing s with
  | nil => rfl
  | cons e rest ih =>
    obtain ⟨id, b⟩ := e
    simp only [refreshAll, turns, refresh]
    cases hv : b.value.evaluate (evaluator.evaluate s.heap b.scope) with
    | ok value => simp only [ih, List.map_cons, outcome]
    | error e => simp only [ih, List.map_cons, outcome]

theorem chain_turns (evaluator : Evaluator) (bindings : List (BindingId × Binding σ))
    (s : Store) :
    Turn.Chain s (turns evaluator bindings s) (refreshAll evaluator bindings s).2 := by
  induction bindings generalizing s with
  | nil => rfl
  | cons e rest ih =>
    obtain ⟨id, b⟩ := e
    simp only [refreshAll, turns, refresh]
    cases hv : b.value.evaluate (evaluator.evaluate s.heap b.scope) with
    | ok value => exact ⟨rfl, ih _⟩
    | error e => exact ⟨rfl, ih _⟩

theorem fair_turns (evaluator : Evaluator) (bindings : List (BindingId × Binding σ)) (s : Store) :
    ∀ t ∈ turns evaluator bindings s, t.Fair evaluator := by
  induction bindings generalizing s with
  | nil => simp [turns]
  | cons e rest ih =>
    obtain ⟨id, b⟩ := e
    simp only [turns, List.forall_mem_cons]
    cases hv : b.value.evaluate (evaluator.evaluate s.heap b.scope) with
    | ok value =>
      refine ⟨⟨hv.symm, ?_, ?_⟩, ih _⟩
      · intro value' h
        cases h
        exact ⟨_, rfl, rfl⟩
      · intro e h
        cases h
    | error e =>
      refine ⟨⟨hv.symm, ?_, ?_⟩, ih _⟩
      · intro value h
        cases h
      · intro e' _
        exact ⟨rfl, rfl⟩

theorem map_turns (evaluator : Evaluator) (bindings : List (BindingId × Binding σ)) (s : Store) :
    (turns evaluator bindings s).map (fun t => (t.id, t.binding)) = bindings := by
  induction bindings generalizing s with
  | nil => rfl
  | cons e rest ih =>
    simp only [turns, List.map_cons, ih]

theorem evaluated_map_outcome (ts : List (Turn σ)) :
    evaluated (ts.map outcome) = (ts.filter (·.succeeded)).map (·.id) := by
  induction ts with
  | nil => rfl
  | cons t rest ih =>
    cases hr : t.result with
    | ok value =>
      have hs : t.succeeded = true := by rw [Turn.succeeded, hr]
      simp [evaluated, outcome_ok hr, hs, ih]
    | error e =>
      have hs : t.succeeded = false := by rw [Turn.succeeded, hr]
      simp [evaluated, outcome_error hr, hs, ih]

theorem failures_map_outcome (ts : List (Turn σ)) :
    failures (ts.map outcome) = ts.filterMap (·.failure?) := by
  induction ts with
  | nil => rfl
  | cons t rest ih =>
    cases hr : t.result with
    | ok value =>
      have hf : t.failure? = none := by rw [Turn.failure?, hr]
      simp [failures, outcome_ok hr, hf, ih]
    | error e =>
      have hf : t.failure? = some (t.id, e) := by rw [Turn.failure?, hr]
      simp [failures, outcome_error hr, hf, ih]

theorem isAffected_iff (signals : List Signal) (b : Binding σ) :
    isAffected (changedWatches signals) b = true ↔ b.CalledBy signals := by
  have hmem : ∀ w, w ∈ changedWatches signals ↔
      ∃ n : Notification, .change n ∈ signals ∧ n.watch = w := by
    intro w
    induction signals with
    | nil => simp [changedWatches]
    | cons signal rest ih =>
      cases signal with
      | change n => simp [changedWatches, ih, or_and_right, exists_or, eq_comm]
      | wake => simp [changedWatches, ih]
  simp only [isAffected, Bool.or_eq_true, List.any_eq_true, List.contains_iff_mem, hmem,
    Binding.CalledBy]
  refine or_congr_right ⟨?_, ?_⟩
  · rintro ⟨w, hw, n, hn, rfl⟩
    exact ⟨n, hn, hw⟩
  · rintro ⟨n, hn, hw⟩
    exact ⟨n.watch, hw, n, hn, rfl⟩

theorem length_changedWatches (signals : List Signal) :
    (changedWatches signals).length = signals.countP Signal.isChange := by
  induction signals with
  | nil => rfl
  | cons signal rest ih =>
    cases signal with
    | change n => simp [changedWatches, ih, List.countP_cons, Signal.isChange]
    | wake => simp [changedWatches, ih, Signal.isChange]

theorem countWakes_eq (signals : List Signal) :
    countWakes signals = signals.countP Signal.isWake := by
  induction signals with
  | nil => rfl
  | cons signal rest ih =>
    cases signal with
    | change n => simp [countWakes, ih, Signal.isWake]
    | wake => simp [countWakes, ih, List.countP_cons, Signal.isWake]

theorem outcome_fst (t : Turn σ) : (outcome t).1 = t.id := by
  rw [outcome]
  split <;> rfl

theorem settle_outcome {t : Turn σ} {evaluator : Evaluator} (h : t.Fair evaluator) :
    settle (outcome t).2 t.binding = t.settled := by
  cases hr : t.result with
  | ok value => rw [outcome_ok hr]; rfl
  | error e =>
    rw [outcome_error hr, Turn.settled, (h.spared e hr).1]
    rfl

theorem settleAll_cons (bindings : Dict BindingId (Binding σ)) (t : Turn σ) (ts : List (Turn σ)) :
    settleAll bindings ((t :: ts).map outcome)
      = settleAll (bindings.modify t.id (settle (outcome t).2)) (ts.map outcome) := by
  rw [← outcome_fst t]
  rfl

theorem find?_settleAll_of_not_mem {bindings : Dict BindingId (Binding σ)} {ts : List (Turn σ)}
    {id : BindingId} (h : id ∉ ts.map (·.id)) :
    (settleAll bindings (ts.map outcome)).find? id = bindings.find? id := by
  induction ts generalizing bindings with
  | nil => rfl
  | cons t rest ih =>
    simp only [List.map_cons, List.mem_cons, not_or] at h
    rw [settleAll_cons, ih h.2, Dict.find?_modify, if_neg h.1]

theorem find?_settleAll {bindings : Dict BindingId (Binding σ)} {ts : List (Turn σ)}
    {evaluator : Evaluator} (hfair : ∀ t ∈ ts, t.Fair evaluator)
    (hnodup : (ts.map (·.id)).Nodup) (hfind : ∀ t ∈ ts, bindings.find? t.id = some t.binding) :
    ∀ t ∈ ts, (settleAll bindings (ts.map outcome)).find? t.id = some t.settled := by
  induction ts generalizing bindings with
  | nil => simp
  | cons t rest ih =>
    rw [List.forall_mem_cons] at hfair hfind ⊢
    rw [List.map_cons, List.nodup_cons] at hnodup
    rw [settleAll_cons]
    constructor
    · rw [find?_settleAll_of_not_mem hnodup.1, Dict.find?_modify, if_pos rfl, hfind.1,
        Option.map_some, settle_outcome hfair.1]
    · apply ih hfair.2 hnodup.2
      intro t' ht'
      have hne : t'.id ≠ t.id := fun heq => hnodup.1 (heq ▸ List.mem_map_of_mem ht')
      rw [Dict.find?_modify, if_neg hne, hfind.2 t' ht']

theorem queue_of_chain {k : ChannelId} {ts : List (Turn σ)} {raised : List (List Signal)}
    {s s' : Store} (hc : Turn.Chain s ts s')
    (hr : List.Forall₂ (fun t l => Store.Raises k t.before l t.after) ts raised) :
    (s'.channel k).isOpen = (s.channel k).isOpen ∧ (s'.channel k).queue
      = (s.channel k).queue ++ if (s.channel k).isOpen then raised.flatten else [] := by
  induction hr generalizing s with
  | nil =>
    rw [show s' = s from hc]
    simp
  | @cons t l ts raised hturn _ ih =>
    obtain ⟨rfl, hrest⟩ := hc
    obtain ⟨hopen, hqueue⟩ := ih hrest
    refine ⟨hopen.trans hturn.isOpen, ?_⟩
    rw [hqueue, hturn.isOpen]
    by_cases ho : (t.before.channel k).isOpen = true
    · simp only [ho, if_true, hturn.queue ho, List.flatten_cons, List.append_assoc]
    · simp only [ho, if_false, hturn.queue_closed ho, List.append_nil, Bool.false_eq_true]

theorem exists_raised (evaluator : Evaluator) (k : ChannelId) {ts : List (Turn σ)}
    (hfair : ∀ t ∈ ts, t.Fair evaluator) :
    ∃ raised, List.Forall₂ (fun t l => Store.Raises k t.before l t.after) ts raised := by
  induction ts with
  | nil => exact ⟨[], .nil⟩
  | cons t rest ih =>
    rw [List.forall_mem_cons] at hfair
    obtain ⟨raised, hrest⟩ := ih hfair.2
    have hsends : Store.Sends k t.before t.after := by
      cases hr : t.result with
      | ok value =>
        obtain ⟨memory, hrun, -⟩ := hfair.1.applied value hr
        have hsends :=
          (t.binding.target.receive value t.binding.target.memory).sends_run t.before k
        rwa [hrun] at hsends
      | error e =>
        rw [(hfair.1.spared e hr).2]
        exact .refl _
    obtain ⟨l, hl⟩ := hsends
    exact ⟨l :: raised, .cons hl hrest⟩

theorem ascending_affected (d : Scheduler σ) (s : Store) (received : List Signal) :
    ((d.affected s received).map Prod.fst).Pairwise (· < ·) := by
  apply List.pairwise_map.2
  apply List.Pairwise.filter
  apply d.bindings.sorted.imp
  intro e e' h
  exact Nat.compare_eq_lt.1 h

theorem mem_affected {d : Scheduler σ} {s : Store} {received : List Signal} {id : BindingId}
    {b : Binding σ} : (id, b) ∈ d.affected s received ↔
      d.bindings.find? id = some b ∧ b.CalledBy (received ++ (s.channel d.channel).queue) := by
  rw [affected, List.mem_filter, Dict.mem_toList, isAffected_iff]
  rfl

theorem map_fst_failures (ts : List (Turn σ)) :
    (ts.filterMap (·.failure?)).map Prod.fst = (ts.filter (!·.succeeded)).map (·.id) := by
  induction ts with
  | nil => rfl
  | cons t rest ih =>
    cases hr : t.result with
    | ok value =>
      have hf : t.failure? = none := by rw [Turn.failure?, hr]
      have hs : t.succeeded = true := by rw [Turn.succeeded, hr]
      simp [hf, hs, ih]
    | error e =>
      have hf : t.failure? = some (t.id, e) := by rw [Turn.failure?, hr]
      have hs : t.succeeded = false := by rw [Turn.succeeded, hr]
      simp [hf, hs, ih]

def turnsWith (d : Scheduler σ) (s : Store) (received : List Signal) : List (Turn σ) :=
  turns d.evaluator (d.affected s received) (s.drain d.channel).2

theorem map_turnsWith (d : Scheduler σ) (s : Store) (received : List Signal) :
    (d.turnsWith s received).map (fun t => (t.id, t.binding)) = d.affected s received :=
  map_turns _ _ _

theorem exists_mem_turnsWith (d : Scheduler σ) (s : Store) (received : List Signal)
    (id : BindingId) (b : Binding σ) :
    (∃ t ∈ d.turnsWith s received, t.id = id ∧ t.binding = b) ↔
      d.bindings.find? id = some b ∧ b.CalledBy (received ++ (s.channel d.channel).queue) := by
  rw [← mem_affected, ← map_turnsWith, List.mem_map]
  simp only [Prod.mk.injEq]

theorem ascending_turnsWith (d : Scheduler σ) (s : Store) (received : List Signal) :
    ((d.turnsWith s received).map (·.id)).Pairwise (· < ·) := by
  have hids : (d.turnsWith s received).map (·.id) = (d.affected s received).map Prod.fst := by
    rw [← map_turnsWith, List.map_map]
    rfl
  rw [hids]
  exact ascending_affected d s received

theorem evaluated_checkpointWith (d : Scheduler σ) (s : Store) (received : List Signal) :
    (d.checkpointWith s received).1.evaluated
      = ((d.turnsWith s received).filter (·.succeeded)).map (·.id) := by
  rw [← evaluated_map_outcome, turnsWith, ← refreshAll_eq]
  rfl

theorem failures_checkpointWith (d : Scheduler σ) (s : Store) (received : List Signal) :
    (d.checkpointWith s received).1.failures
      = (d.turnsWith s received).filterMap (·.failure?) := by
  rw [← failures_map_outcome, turnsWith, ← refreshAll_eq]
  rfl

theorem bindings_checkpointWith (d : Scheduler σ) (s : Store) (received : List Signal) :
    (d.checkpointWith s received).2.1.bindings
      = settleAll d.bindings ((d.turnsWith s received).map outcome) := by
  rw [turnsWith, ← refreshAll_eq]
  rfl

theorem not_mem_failed {ts : List (Turn σ)} (hnodup : (ts.map (·.id)).Nodup) {id : BindingId}
    (hid : id ∈ (ts.filter (·.succeeded)).map (·.id)) :
    id ∉ (ts.filter (!·.succeeded)).map (·.id) := by
  intro hfailed
  obtain ⟨t, ht, rfl⟩ := List.mem_map.1 hid
  obtain ⟨t', ht', heq⟩ := List.mem_map.1 hfailed
  rw [List.mem_filter] at ht ht'
  have hsame := List.inj_on_of_nodup_map hnodup ht'.1 ht.1 heq
  subst hsame
  simp [ht.2] at ht'

theorem mem_succeeded_or_failed {ts : List (Turn σ)} {id : BindingId} :
    (id ∈ (ts.filter (·.succeeded)).map (·.id) ∨ id ∈ (ts.filter (!·.succeeded)).map (·.id)) ↔
      ∃ t ∈ ts, t.id = id := by
  simp only [List.mem_map, List.mem_filter]
  constructor
  · rintro (⟨t, ht, rfl⟩ | ⟨t, ht, rfl⟩)
    · exact ⟨t, ht.1, rfl⟩
    · exact ⟨t, ht.1, rfl⟩
  · rintro ⟨t, ht, rfl⟩
    cases hs : t.succeeded with
    | true => exact .inl ⟨t, ⟨ht, hs⟩, rfl⟩
    | false => exact .inr ⟨t, ⟨ht, by rw [hs]; rfl⟩, rfl⟩

theorem checkpointed (d : Scheduler σ) (s : Store) (received : List Signal) :
    Checkpointed d s received (d.checkpointWith s received).1 (d.checkpointWith s received).2.1
      (d.checkpointWith s received).2.2 (d.turnsWith s received) := by
  have hcalled := d.exists_mem_turnsWith s received
  have hfair : ∀ t ∈ d.turnsWith s received, t.Fair d.evaluator := fair_turns _ _ _
  have hchain := chain_turns d.evaluator (d.affected s received) (s.drain d.channel).2
  have hascending := d.ascending_turnsWith s received
  have hnodup : ((d.turnsWith s received).map (·.id)).Nodup := hascending.imp Nat.ne_of_lt
  have hfind : ∀ t ∈ d.turnsWith s received, d.bindings.find? t.id = some t.binding :=
    fun t ht => ((hcalled t.id t.binding).1 ⟨t, ht, rfl, rfl⟩).1
  have hevaluated := d.evaluated_checkpointWith s received
  have hfailures := d.failures_checkpointWith s received
  have hfailed : (d.checkpointWith s received).1.failures.map Prod.fst
      = ((d.turnsWith s received).filter (!·.succeeded)).map (·.id) := by
    rw [hfailures, map_fst_failures]
  have hbindings := d.bindings_checkpointWith s received
  refine ⟨?_, ?_, hcalled, hascending, hchain, hfair, hevaluated, hfailures, ?_, ?_, ?_, ?_, ?_,
    rfl, ?_⟩
  · exact length_changedWatches _
  · exact countWakes_eq _
  · rw [hevaluated, hfailed]
    exact ⟨hascending.sublist (List.filter_sublist.map _),
      hascending.sublist (List.filter_sublist.map _)⟩
  · rw [hevaluated, hfailed]
    exact fun id => not_mem_failed hnodup
  · intro id
    rw [hevaluated, hfailed, mem_succeeded_or_failed]
    constructor
    · rintro ⟨t, ht, rfl⟩
      exact ⟨t.binding, (hcalled t.id t.binding).1 ⟨t, ht, rfl, rfl⟩⟩
    · rintro ⟨b, hb⟩
      obtain ⟨t, ht, hid, -⟩ := (hcalled id b).2 hb
      exact ⟨t, ht, hid⟩
  · rw [hbindings]
    exact find?_settleAll hfair hnodup hfind
  · intro id hid
    rw [hbindings]
    exact find?_settleAll_of_not_mem hid
  · obtain ⟨raised, hraised⟩ := exists_raised d.evaluator d.channel hfair
    have hqueue := (queue_of_chain hchain hraised).2
    refine ⟨raised, hraised, hqueue.trans ?_⟩
    simp [Store.drain, Store.channel_setChannel, Channel.drain, Channel.takeAll, Channel.unmark]

theorem Checkpointed.exists_turn {d d' : Scheduler σ} {s s' : Store} {received : List Signal}
    {report : Report} {turns : List (Turn σ)} (C : Checkpointed d s received report d' s' turns)
    {id : BindingId} {memory : σ} (hid : id ∈ report.evaluated)
    (hmemory : (d'.bindings.find? id).map (·.target.memory) = some memory) :
    ∃ t ∈ turns, t.id = id ∧ t.target.memory = memory := by
  rw [C.evaluated] at hid
  obtain ⟨t, ht, rfl⟩ := List.mem_map.1 hid
  have hturn := (List.mem_filter.1 ht).1
  rw [C.settled t hturn] at hmemory
  exact ⟨t, hturn, rfl, Option.some.inj hmemory⟩

/-- A checkpoint gives each binding that is new or has a changed watch one turn, in the order of
binding, and no other binding any; it leaves on the channel what the turns raised. -/
theorem checkpointWith_exactlyOnce (d : Scheduler σ) (s : Store) (received : List Signal) :
    ∃ turns, Checkpointed d s received (d.checkpointWith s received).1
      (d.checkpointWith s received).2.1 (d.checkpointWith s received).2.2 turns :=
  ⟨d.turnsWith s received, d.checkpointed s received⟩

/-- Shows a value and keeps it with those from before, and changes the name in the model. -/
def recorder (label : String) : BindingTarget (List Json) :=
  ⟨[], fun value shown => .render label value
    (.write (.put 1 "name" (.scalar (.string "b"))) (.done (shown ++ [value])))⟩

def recording : Session (List Json) :=
  let S : Session (List Json) := .start ⟨true, ""⟩ Evaluator.paths
  let model := Contents.object (Dict.ofList [("name", .scalar (.string "a"))])
  let S := S.perform (.act (.create model fun _ => .done ()))
  let S := S.perform (.bind (.single "name") 1 (recorder "first"))
  let S := S.perform (.bind (.single "title") 1 (recorder "second"))
  S.perform (.bind (.single "name") 1 (recorder "third"))

theorem checkpointWith_exactlyOnce_recording :
    let (report, d, s) := recording.scheduler.checkpointWith recording.store []
    (∃ turns, Checkpointed recording.scheduler recording.store [] report d s turns ∧
      (∃ t ∈ turns, t.id = 1 ∧ t.target.memory = [.string "a"]) ∧
      ∃ t ∈ turns, t.id = 3 ∧ t.target.memory = [.string "b"]) ∧
    report.evaluated = [1, 3] ∧ report.failures = [(2, .unresolved "title")] ∧
    s.rendered = [("first", .string "a"), ("third", .string "b")] ∧
    (s.channel recording.scheduler.channel).queue =
      [.change ⟨1, "name", .value (some (.string "a")) (some (.string "b"))⟩,
        .change ⟨1, "name", .value (some (.string "b")) (some (.string "b"))⟩] := by
  refine ⟨?_, by decide, by decide, rfl, rfl⟩
  obtain ⟨turns, C⟩ := checkpointWith_exactlyOnce recording.scheduler recording.store []
  exact ⟨turns, C, C.exists_turn (by decide) rfl, C.exists_turn (by decide) rfl⟩

end Scheduler

end ReactivePage
