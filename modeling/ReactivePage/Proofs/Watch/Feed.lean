import ReactivePage.Proofs.Checkpoint.Editing
import ReactivePage.Proofs.Watch.Changes
import ReactivePage.Proofs.Watch.Kinds
import ReactivePage.Proofs.Watch.Reports

namespace ReactivePage

def changesOf (w : WatchId) (signals : List Signal) : List Change :=
  ((signals.filterMap Signal.notification?).filter (·.watch = w)).map (·.change)

theorem changesOf_append (w : WatchId) (l m : List Signal) :
    changesOf w (l ++ m) = changesOf w l ++ changesOf w m := by
  rw [changesOf, List.filterMap_append, List.filter_append, List.map_append]
  rfl

namespace Store

theorem Tells.exists_changesOf {k : ChannelId} {w : WatchId} {s t : Store} {changes : List Change}
    (h : Tells k w s changes t) : ∃ added, Raises k s added t ∧ changesOf w added = changes := by
  obtain ⟨ns, hns, hchanges⟩ := h
  exact ⟨_, hns, by rw [changesOf, filterMap_notification?_changes, hchanges]⟩

def Feeds (k : ChannelId) (w : WatchId) (c : Handle) (s t : Store) : Prop :=
  ∃ added, Raises k s added t ∧
    Change.Replays (s.heap.toJson (.ref c)) (changesOf w added) (t.heap.toJson (.ref c))

variable {k : ChannelId} {w : WatchId} {c : Handle} {s t u : Store}

theorem Feeds.trans (h : Feeds k w c s t) (h' : Feeds k w c t u) : Feeds k w c s u := by
  obtain ⟨added, hadded, hreplays⟩ := h
  obtain ⟨more, hmore, hreplays'⟩ := h'
  refine ⟨added ++ more, hadded.trans hmore, ?_⟩
  rw [changesOf_append]
  exact hreplays.append hreplays'

theorem Tells.feeds (h : Tells k w s [] t) (S : s.heap.HoldsScalars c)
    (hc : t.heap.contents c = s.heap.contents c) : Feeds k w c s t := by
  obtain ⟨added, hadded, hnone⟩ := h.exists_changesOf
  refine ⟨added, hadded, ?_⟩
  rw [hnone, S.toJson_congr hc]
  exact .nil _

end Store

namespace Registry

variable {r : Registry} {s t : Store} {w : WatchId} {entry : RegistryEntry} {c : Handle}

theorem Tracks.exists_content (T : r.Tracks s) (hw : r.entries.find? w = some entry)
    (hkey : entry.key = .collection c) :
    ∃ o, s.observations.find? entry.observation = some o ∧ c < s.heap.next ∧
      ∀ d ob, (d, ob) ∈ o.hooks s.heap entry.observation ↔
        d = c ∧ ob = .content entry.observation := by
  obtain ⟨o, ho, -, -, hobs⟩ := T.observed w entry hw
  rw [hkey] at hobs
  obtain ⟨sub, hsub, rfl⟩ := hobs
  rw [Observation.subject] at hsub
  cases hp : o.holder with
  | some p =>
    rw [hp] at hsub
    cases hsub
  | none =>
    rw [hp] at hsub
    have hcontent : o.content = some sub := Sum.inr.inj hsub
    refine ⟨o, ho, T.sound.container_lt ho hcontent, fun d ob => ?_⟩
    simp [Observation.hooks, Observation.linkHooks, Observation.contentHooks, hp, hcontent]

theorem Tracks.feeds_write (T : r.Tracks s) (hw : r.entries.find? w = some entry)
    (hkey : entry.key = .collection c) (wr : Write) (S : s.heap.HoldsScalars c)
    (S' : (s.write wr).heap.HoldsScalars c) : Store.Feeds r.channel w c s (s.write wr) := by
  rw [Store.heap_write] at S'
  rcases hwr : s.heap.write wr with ⟨h, e | e⟩
  · rw [Store.write_eq_of_none hwr]
    exact Store.Tells.feeds (.quiet rfl) S rfl
  · rw [hwr] at S'
    obtain ⟨o, ho, -, hhooks⟩ := T.exists_content hw hkey
    have hheap : (s.write wr).heap = h := by rw [Store.heap_write, hwr]
    rcases T.sound.consistent.tells_write hwr (T.voices hw) ho
        (fun ob ob' hob hob' =>
          ((hhooks _ ob).1 hob).2.trans ((hhooks _ ob').1 hob').2.symm)
      with ⟨hnone, htells⟩ | ⟨ob, hob, htells⟩
    · have hne : c ≠ wr.target := fun heq => hnone _ ((hhooks _ _).2 ⟨heq.symm, rfl⟩)
      refine htells.feeds S ?_
      rw [hheap]
      exact (Heap.edit_of_write hwr).frame c hne
    · obtain ⟨rfl, rfl⟩ := (hhooks _ ob).1 hob
      obtain ⟨added, hadded, hchanges⟩ := htells.exists_changesOf
      refine ⟨added, hadded, ?_⟩
      rw [hchanges, hheap]
      exact .cons ((Heap.turns_write hwr S S').faithful (S.size ▸ S.counted)
        (S'.size ▸ S'.counted)) (.nil _)

theorem Tracks.feeds_step (T : r.Tracks s) (hw : r.entries.find? w = some entry)
    (hkey : entry.key = .collection c) (h : Store.Step s t) (S : s.heap.HoldsScalars c)
    (S' : t.heap.HoldsScalars c) : Store.Feeds r.channel w c s t := by
  cases h with
  | grow E =>
    obtain ⟨-, -, hlt, -⟩ := T.exists_content hw hkey
    exact Store.Tells.feeds (.quiet rfl) S (E.contents c hlt)
  | write wr => exact T.feeds_write hw hkey wr S S'
  | wake j =>
    by_cases hj : j = r.channel
    · subst hj
      refine ⟨[.wake], .send s .wake, ?_⟩
      exact .nil _
    · refine ⟨[], .elsewhere s .wake hj, ?_⟩
      exact .nil _
  | render rendered => exact Store.Tells.feeds (.quiet rfl) S rfl

theorem Tracks.feeds_run (T : r.Tracks s) (hw : r.entries.find? w = some entry)
    (hkey : entry.key = .collection c) (program : Action Unit)
    (hclosed : ∀ t ∈ program.moments s, t.heap.Closed) (S : s.heap.HoldsScalars c)
    (hscalars : ∀ t ∈ program.moments s, t.heap.HoldsScalars c) :
    Store.Feeds r.channel w c s (program.run s).2 ∧
      (program.run s).2.heap.HoldsScalars c := by
  have hstep : ∀ t t', Store.Step t t' → (t.heap.Closed ∧ t.heap.HoldsScalars c) →
      (t'.heap.Closed ∧ t'.heap.HoldsScalars c) →
      (r.Tracks t ∧ Store.Feeds r.channel w c s t) →
      r.Tracks t' ∧ Store.Feeds r.channel w c s t' := by
    rintro t t' h ⟨-, hs⟩ ⟨hc', hs'⟩ ⟨Tt, hfeeds⟩
    exact ⟨Tt.step h hc', hfeeds.trans (Tt.feeds_step hw hkey h hs hs')⟩
  have hrun := program.run_induction hstep s ⟨T.sound.closed, S⟩
    (fun t ht => ⟨hclosed t ht, hscalars t ht⟩) ⟨T, [], .quiet rfl, .nil _⟩
  exact ⟨hrun.1.2, hrun.2.2⟩

def Call.Within (P : Heap → Prop) (s : Store) : Call → Prop
  | .act program => ∀ t ∈ program.moments s, P t.heap
  | _ => True

namespace Log

variable {L M : Log}

inductive LeadsWithin (P : Heap → Prop) : Log → Log → Prop
  | refl {L : Log} : P L.store.heap → LeadsWithin P L L
  | perform {L M : Log} {call : Call} : LeadsWithin P L M → M.Admits call →
      call.Within P M.store → LeadsWithin P L (M.perform call)

theorem LeadsWithin.leads {P : Heap → Prop} (h : LeadsWithin P L M) : L.Leads M := by
  induction h with
  | refl => exact .refl _
  | perform _ ha _ ih => exact ih.perform ha

theorem LeadsWithin.first {P : Heap → Prop} (h : LeadsWithin P L M) : P L.store.heap := by
  induction h with
  | refl hp => exact hp
  | perform _ _ _ ih => exact ih

theorem perform_adjusted (T : L.registry.Tracks L.store) {call : Call} (ha : L.Admits call)
    (hcall : ∀ program, call ≠ .act program) :
    Adjusted L.registry L.store (L.perform call).registry (L.perform call).store := by
  cases call with
  | watch target =>
    rw [perform]
    cases hw : L.registry.watch L.store target with
    | error e => exact .refl T
    | ok x =>
      obtain ⟨v, r, s⟩ := x
      obtain ⟨key, -, W⟩ := T.watch ha hw
      exact W.toAdjusted
  | release v => exact T.release v
  | unwatch v => exact T.unwatch v
  | closeAll => exact T.unwatchAll _
  | act program => exact absurd rfl (hcall program)

theorem keyOf?_perform (T : L.registry.Tracks L.store) {call : Call} (ha : L.Admits call)
    (hbefore : L.registry.isActive w = true)
    (hafter : (L.perform call).registry.isActive w = true) :
    (L.perform call).registry.keyOf? w = L.registry.keyOf? w := by
  obtain ⟨entry, hw⟩ := Dict.contains_iff.1 hafter
  have hkey : (L.perform call).registry.keyOf? w = some entry.key := by
    rw [keyOf?, hw, Option.map_some]
  cases call with
  | watch target =>
    obtain ⟨entry', hw'⟩ := Dict.contains_iff.1 hbefore
    have hkey' : L.registry.keyOf? w = some entry'.key := by rw [keyOf?, hw', Option.map_some]
    rw [perform]
    cases hwatch : L.registry.watch L.store target with
    | error e => rfl
    | ok x =>
      obtain ⟨v, r, s⟩ := x
      obtain ⟨key, -, W⟩ := T.watch ha hwatch
      exact (W.grown.1.keys w _ hkey').trans hkey'.symm
  | release v => exact hkey.trans (keyOf?_of_release hkey).symm
  | unwatch v => exact hkey.trans (keyOf?_of_unwatch hkey).symm
  | closeAll => exact hkey.trans (keyOf?_of_closeAll hkey).symm
  | act program => rfl

theorem Performed.isActive_of_lt {a : Answer} (P : Performed L M a) (T : L.registry.Tracks L.store)
    (hlt : w < L.registry.nextId) (hactive : M.registry.isActive w = true) :
    L.registry.isActive w = true := by
  cases hwatch : a.isWatchOf w with
  | false => exact P.isActive T hwatch hactive
  | true =>
    obtain ⟨b, rfl⟩ := a.eq_watched_of_isWatchOf hwatch
    cases b with
    | true => exact absurd (P.activated w rfl).2.1 (Nat.not_le_of_lt hlt)
    | false => exact T.isActive_iff.2 (P.shared w rfl)

theorem Leads.isOpen (h : start.Leads L) :
    (L.store.channel L.registry.channel).isOpen = true := by
  induction h with
  | refl => rfl
  | perform hleads ha ih =>
    obtain ⟨a, P⟩ := performed (hleads.kept kept_start).tracks ha
    obtain ⟨added, hadded, -⟩ := P.raised
    rw [P.channel, hadded.isOpen]
    exact ih

theorem Leads.nextId_le (h : L.Leads M) (K : Kept L) : L.registry.nextId ≤ M.registry.nextId := by
  induction h with
  | refl => exact Nat.le_refl _
  | perform hleads ha ih =>
    obtain ⟨a, P⟩ := performed (hleads.kept K).tracks ha
    exact Nat.le_trans ih P.nextId

theorem LeadsWithin.feeds (h : LeadsWithin (·.HoldsScalars c) L M) (K : Kept L)
    (hw : L.registry.entries.find? w = some entry) (hkey : entry.key = .collection c)
    (hactive : M.registry.isActive w = true) :
    M.registry.channel = L.registry.channel ∧ M.registry.keyOf? w = some (.collection c) ∧
      M.store.heap.HoldsScalars c ∧ Store.Feeds L.registry.channel w c L.store M.store := by
  -- By induction on the run: as long as the watch is active it is one of the collection, and each
  -- call adds to the feed.
  induction h with
  | refl S => exact ⟨rfl, by rw [keyOf?, hw, Option.map_some, hkey], S, [], .quiet rfl, .nil _⟩
  | @perform M call hleads ha hwithin ih =>
    have KM := hleads.leads.kept K
    have hlt := Nat.lt_of_lt_of_le (K.tracks.below w entry hw) (hleads.leads.nextId_le K)
    obtain ⟨a, P⟩ := performed KM.tracks ha
    have hbefore := P.isActive_of_lt KM.tracks hlt hactive
    obtain ⟨hchannel, hkeyM, S, hfeeds⟩ := ih hbefore
    have hkeyM' := (keyOf?_perform KM.tracks ha hbefore hactive).trans hkeyM
    obtain ⟨entryM, hwM, hkeyEntry⟩ := Option.map_eq_some_iff.1 hkeyM
    by_cases hcall : ∃ program, call = .act program
    · obtain ⟨program, rfl⟩ := hcall
      obtain ⟨hmore, S'⟩ := KM.tracks.feeds_run hwM hkeyEntry program ha S hwithin
      exact ⟨hchannel, hkeyM', S', hfeeds.trans (hchannel ▸ hmore)⟩
    · have A := perform_adjusted KM.tracks ha (not_exists.1 hcall)
      have hcontents := congrArg (·.contents c) A.heap
      exact ⟨A.channel.trans hchannel, hkeyM', S.congr hcontents,
        hfeeds.trans (Store.Tells.feeds (.quiet A.channels) S hcontents)⟩

/-- What was queued for a watch since leads from what a collection held to what it holds, and the
sizes told add up to the difference. -/
def Fed (L : Log) (w : WatchId) (c : Handle) (M : Log) : Prop :=
  ∃ added, (M.store.channel M.registry.channel).queue
      = (L.store.channel L.registry.channel).queue ++ added ∧
    Change.Replays (L.store.heap.toJson (.ref c)) (changesOf w added)
      (M.store.heap.toJson (.ref c)) ∧
    ((changesOf w added).map Change.lengthDelta).sum
      = ((M.store.heap.contents c).values.length : Int) - (L.store.heap.contents c).values.length

/-- The operations on sequences do what those on lists do, each with one event if it does anything;
and what is queued for a collection of scalars that is watched itself tells the whole run. -/
theorem operations_and_feed :
    (∀ (s : Store) (c : Handle) (items : List Value), s.heap.contents c = .sequence items →
      Action.Operations s c items) ∧
    ∀ (L M : Log) (w : WatchId) (entry : RegistryEntry) (c : Handle), start.Leads L →
      L.registry.entries.find? w = some entry → entry.key = .collection c →
      LeadsWithin (·.HoldsScalars c) L M → M.registry.isActive w = true → L.Fed w c M := by
  refine ⟨fun s c items hc => Action.operations hc, fun L M w entry c hL hw hkey hM hactive => ?_⟩
  obtain ⟨hchannel, -, S', added, hadded, hreplays⟩ :=
    hM.feeds (hL.kept kept_start) hw hkey hactive
  refine ⟨added, ?_, hreplays, ?_⟩
  · rw [hchannel, hadded.queue hL.isOpen]
  · rw [hreplays.sum_lengthDelta, S'.size, hM.first.size]

def feedLog : Log :=
  (start.perform (.act (.create (.sequence [.scalar (.ofNat 1)]) fun _ => .done ()))).perform
    (.watch (.collection 1))

theorem leads_feedLog : start.Leads feedLog := by
  refine .perform (.perform (.refl _) ?_) ?_
  · simp only [Admits]
    decide
  · rintro key ⟨⟩
    decide

def fedLog : Log :=
  ((feedLog.perform (.act (.write (.splice 1 1 0 [.scalar (.ofNat 2)]) (.done ())))).perform
    (.watch (.collection 1))).perform
      (.act (.write (.splice 1 0 2 [.scalar (.ofNat 3), .scalar (.ofNat 4)]) (.done ())))

theorem leads_fedLog : feedLog.LeadsWithin (·.HoldsScalars 1) fedLog := by
  refine .perform (.perform (.perform (.refl ?_) ?_ ?_) ?_ trivial) ?_ ?_
  · decide
  · simp only [Admits]
    decide
  · simp only [Call.Within]
    decide
  · rintro key ⟨⟩
    decide
  · simp only [Admits]
    decide
  · simp only [Call.Within]
    decide

theorem operations_and_feed_sequence :
    Action.Operations feedLog.store 1 [.scalar (.ofNat 1)] ∧ start.Leads feedLog ∧
      feedLog.LeadsWithin (·.HoldsScalars 1) fedLog ∧ feedLog.Fed 1 1 fedLog :=
  ⟨operations_and_feed.1 _ 1 _ rfl, leads_feedLog, leads_fedLog,
    operations_and_feed.2 _ _ 1 ⟨.collection 1, handleLabel 1, 0, 1⟩ 1 leads_feedLog rfl rfl
      leads_fedLog rfl⟩

end Log

end Registry

end ReactivePage
