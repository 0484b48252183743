import ReactivePage.Proofs.Watch.History

namespace ReactivePage

namespace Registry

variable {r : Registry} {s : Store}

theorem Tracks.kind?_retains {t : Store} (T : r.Tracks s) (R : Store.Retains s t) (w : WatchId) :
    r.kind? t w = r.kind? s w := by
  cases hw : r.entries.find? w with
  | none => rw [kind?_of_none hw, kind?_of_none hw]
  | some entry =>
    obtain ⟨o, ho, -⟩ := T.observed w entry hw
    obtain ⟨o', ho', C⟩ := R.continues _ o ho
    rw [kind?_eq hw, kind?_eq hw, ho, ho', Option.map_some, Option.map_some, C.kind]

theorem Tracks.kind?_run (T : r.Tracks s) (program : Action Unit)
    (hm : ∀ t ∈ program.moments s, t.heap.Closed) (w : WatchId) :
    r.kind? (program.run s).2 w = r.kind? s w := by
  have hstep : ∀ t t', Store.Step t t' → t.heap.Closed → t'.heap.Closed →
      (r.Tracks t ∧ r.kind? t w = r.kind? s w) → r.Tracks t' ∧ r.kind? t' w = r.kind? s w := by
    rintro t t' h - hc ⟨Tt, hkind⟩
    exact ⟨Tt.step h hc, (Tt.kind?_retains (h.upkeep Tt.sound).retains w).trans hkind⟩
  exact (program.run_induction hstep s T.sound.closed hm ⟨T, rfl⟩).1.2

theorem Tracks.kind?_unwatch (T : r.Tracks s) {v w : WatchId} (hne : w ≠ v) :
    (r.unwatch s v).2.1.kind? (r.unwatch s v).2.2 w = r.kind? s w := by
  refine kind?_congr ((find?_unwatch r s v w).trans (if_neg hne)) fun entry hw => ?_
  rw [Registry.unwatch]
  cases hv : r.entries.find? v with
  | none => rfl
  | some entry' =>
    exact (Store.ended_closeObservation T.sound entry'.observation).others _
      (T.observation_ne hv hw hne)

theorem Tracks.kind?_release (T : r.Tracks s) {v w : WatchId}
    (hactive : (r.release s v).2.1.isActive w = true) :
    (r.release s v).2.1.kind? (r.release s v).2.2 w = r.kind? s w := by
  rw [isActive, Dict.contains_iff, find?_release] at hactive
  rw [Registry.release]
  cases hv : r.entries.find? v with
  | none => rfl
  | some entry =>
    by_cases hn : 1 < entry.holders
    · -- One holder less, and the observation goes on.
      simp only [if_pos hn]
      by_cases hw : w = v
      · subst hw
        rw [kind?_eq hv, kind?_eq (Dict.find?_insert_self _ _ _)]
      · exact kind?_congr (Dict.find?_insert_of_ne _ hw _) fun _ _ => rfl
    · have hne : w ≠ v := by
        rintro rfl
        simp [hv, hn] at hactive
      simp only [if_neg hn]
      exact T.kind?_unwatch hne

theorem Tracks.kind?_watch (T : r.Tracks s) {target : Target}
    (hkey : ∀ key, target.key = .ok key → key.Exists s.heap) {v : WatchId} {r' : Registry}
    {s' : Store} (h : r.watch s target = .ok (v, r', s')) :
    (∃ key, target.key = .ok key ∧ r'.kind? s' v = some (key.kind s.heap)) ∧
      ∀ w, w ≠ v → r'.kind? s' w = r.kind? s w := by
  obtain ⟨key, hok, W⟩ := T.watch hkey h
  exact ⟨⟨key, hok, W.kind⟩, fun w hw => (W.others w hw).2⟩

theorem Answer.eq_watched_of_isWatchOf {w : WatchId} {a : Answer} (h : a.isWatchOf w = true) :
    ∃ b, a = .watched w b := by
  cases a with
  | watched v b => exact ⟨b, by rw [of_decide_eq_true h]⟩
  | _ => cases h

namespace Log

variable {L M N : Log} {w : WatchId}

theorem kind?_perform_watched (T : L.registry.Tracks L.store) {call : Call} (ha : L.Admits call)
    {b : Bool} (hb : (L.perform call).answers = L.answers ++ [.watched w b]) :
    ∃ target key, call = .watch target ∧ target.key = .ok key ∧
      (L.perform call).registry.kind? (L.perform call).store w = some (key.kind L.store.heap) := by
  cases call with
  | watch target =>
    rw [perform] at hb ⊢
    cases hw : L.registry.watch L.store target with
    | error e =>
      rw [hw] at hb
      cases List.singleton_inj.1 (List.append_cancel_left hb)
    | ok x =>
      obtain ⟨v, r, s⟩ := x
      rw [hw] at hb
      cases List.singleton_inj.1 (List.append_cancel_left hb)
      obtain ⟨⟨key, hkey, hkind⟩, -⟩ := T.kind?_watch ha hw
      exact ⟨target, key, rfl, hkey, hkind⟩
  | _ => cases List.singleton_inj.1 (List.append_cancel_left hb)

theorem kind?_perform_of_other (T : L.registry.Tracks L.store) {call : Call} (ha : L.Admits call)
    {a : Answer} (hanswers : (L.perform call).answers = L.answers ++ [a])
    (hother : a.isWatchOf w = false) (hactive : (L.perform call).registry.isActive w = true) :
    (L.perform call).registry.kind? (L.perform call).store w = L.registry.kind? L.store w := by
  cases call with
  | watch target =>
    rw [perform] at hanswers ⊢
    cases hw : L.registry.watch L.store target with
    | error e => rfl
    | ok x =>
      obtain ⟨v, r, s⟩ := x
      rw [hw] at hanswers
      cases List.singleton_inj.1 (List.append_cancel_left hanswers)
      exact (T.kind?_watch ha hw).2 w (Ne.symm (of_decide_eq_false hother))
  | release v => exact T.kind?_release hactive
  | unwatch v =>
    have hne : w ≠ v := by
      rintro rfl
      have hnone : (L.registry.unwatch L.store w).2.1.isActive w = false := by
        rw [isActive, Dict.contains, find?_unwatch, if_pos rfl]
        rfl
      exact Bool.false_ne_true (hnone.symm.trans hactive)
    exact T.kind?_unwatch hne
  | closeAll =>
    have hnone : (L.registry.closeAll L.store).1.isActive w = false := by
      rw [isActive, entries_closeAll]
      rfl
    exact absurd (hnone.symm.trans hactive) Bool.false_ne_true
  | act program => exact T.kind?_run program ha w

theorem Performed.isActive {a : Answer} (P : Performed L M a) (T : L.registry.Tracks L.store)
    (hother : a.isWatchOf w = false) (hactive : M.registry.isActive w = true) :
    L.registry.isActive w = true := by
  rw [P.tracks.isActive_iff, P.holders, Answer.effect, hother] at hactive
  rw [T.isActive_iff]
  split at hactive
  · cases hactive
  · exact Nat.lt_of_lt_of_le hactive (Nat.sub_le _ _)

theorem Leads.answers_prefix (h : L.Leads M) (K : Kept L) :
    ∃ more, M.answers = L.answers ++ more := by
  induction h with
  | refl => exact ⟨[], (List.append_nil _).symm⟩
  | perform hleads ha ih =>
    obtain ⟨more, hmore⟩ := ih
    obtain ⟨a, P⟩ := performed (hleads.kept K).tracks ha
    exact ⟨more ++ [a], by rw [P.answers, hmore, List.append_assoc]⟩

structure LastWatch (w : WatchId) (N : Log) (target : Target) (L : Log) : Prop where
  reached : start.Leads N
  admits : N.Admits (.watch target)
  leads : (N.perform (.watch target)).Leads L
  answers : ∃ b more, L.answers = N.answers ++ .watched w b :: more ∧
    ∀ a ∈ more, a.isWatchOf w = false

theorem LastWatch.perform {target : Target} {call : Call} (H : LastWatch w N target L)
    (ha : L.Admits call) {a : Answer} (hanswers : (L.perform call).answers = L.answers ++ [a])
    (hother : a.isWatchOf w = false) : LastWatch w N target (L.perform call) where
  reached := H.reached
  admits := H.admits
  leads := .perform H.leads ha
  answers := by
    obtain ⟨b, more, hmore, hnone⟩ := H.answers
    refine ⟨b, more ++ [a], by rw [hanswers, hmore, List.append_assoc, List.cons_append], ?_⟩
    rw [List.forall_mem_append, List.forall_mem_singleton]
    exact ⟨hnone, hother⟩

theorem Leads.trans (h : L.Leads M) (h' : M.Leads N) : L.Leads N := by
  induction h' with
  | refl => exact h
  | perform _ ha ih => exact ih.perform ha

theorem Leads.exists_lastWatch (h : start.Leads L) (hactive : L.registry.isActive w = true) :
    ∃ N target, LastWatch w N target L := by
  induction h with
  | refl => cases hactive
  | @perform M call hleads ha ih =>
    have T := (hleads.kept kept_start).tracks
    obtain ⟨a, P⟩ := performed T ha
    cases hwatch : a.isWatchOf w with
    | false =>
      obtain ⟨N, target, H⟩ := ih (P.isActive T hwatch hactive)
      exact ⟨N, target, H.perform ha P.answers hwatch⟩
    | true =>
      obtain ⟨b, rfl⟩ := a.eq_watched_of_isWatchOf hwatch
      obtain ⟨target, _, rfl, -⟩ := kind?_perform_watched T ha P.answers
      exact ⟨M, target, hleads, ha, .refl _, b, [], P.answers, nofun⟩

theorem Leads.kind?_eq (h : L.Leads M) (K : Kept L) {more : List Answer}
    (hmore : M.answers = L.answers ++ more) (hnone : ∀ a ∈ more, a.isWatchOf w = false)
    (hactive : M.registry.isActive w = true) :
    M.registry.kind? M.store w = L.registry.kind? L.store w := by
  induction h generalizing more with
  | refl => rfl
  | @perform M call hleads ha ih =>
    have T := (hleads.kept K).tracks
    obtain ⟨before, hbefore⟩ := hleads.answers_prefix K
    obtain ⟨a, P⟩ := performed T ha
    obtain rfl : more = before ++ [a] := by
      refine (List.append_right_inj L.answers).1 ?_
      rw [← hmore, P.answers, hbefore, List.append_assoc]
    rw [List.forall_mem_append, List.forall_mem_singleton] at hnone
    rw [kind?_perform_of_other T ha P.answers hnone.2 hactive]
    exact ih hbefore hnone.1 (P.isActive T hnone.2 hactive)

/-- The kind of an active watch is what its target was when it was watched last. -/
theorem Leads.kind?_eq_last (h : start.Leads L) (hactive : L.registry.isActive w = true) :
    (∃ N target, LastWatch w N target L) ∧ ∀ N target, LastWatch w N target L →
      ∃ key, target.key = .ok key ∧
        L.registry.kind? L.store w = some (key.kind N.store.heap) := by
  refine ⟨h.exists_lastWatch hactive, fun N target H => ?_⟩
  have T := (H.reached.kept kept_start).tracks
  have K : Kept (N.perform (.watch target)) := (H.reached.perform H.admits).kept kept_start
  obtain ⟨a, P⟩ := performed T H.admits
  obtain ⟨rest, hrest⟩ := H.leads.answers_prefix K
  obtain ⟨b, more, hmore, hnone⟩ := H.answers
  have hsplit : a :: rest = .watched w b :: more := by
    refine (List.append_right_inj N.answers).1 ?_
    rw [← hmore, hrest, P.answers, List.append_assoc, List.singleton_append]
  obtain ⟨rfl, rfl⟩ := List.cons.inj hsplit
  obtain ⟨_, key, heq, hkey, hkind⟩ := kind?_perform_watched T H.admits P.answers
  cases heq
  exact ⟨key, hkey, (H.leads.kind?_eq K hrest hnone hactive).trans hkind⟩

def sequenceLog : Log :=
  (start.perform (.act (.create (.sequence []) fun c =>
      .create (.object (Dict.ofList [("a", .ref c)])) fun _ => .done ()))).perform
    (.watch (.field 2 "a"))

theorem leads_sequenceLog : start.Leads sequenceLog := by
  refine .perform (.perform (.refl _) ?_) ?_
  · simp only [Admits]
    decide
  · exact fun _ hkey => exists_of_field_key (by decide) hkey

def numberLog : Log :=
  sequenceLog.perform (.act (.write (.put 2 "a" (.scalar (.ofNat 1))) (.done ())))

theorem leads_numberLog : sequenceLog.Leads numberLog := by
  refine .perform (.refl _) ?_
  simp only [Admits]
  decide

def numberAgainLog : Log := numberLog.perform (.watch (.field 2 "a"))

theorem leads_numberAgainLog : numberLog.Leads numberAgainLog :=
  .perform (.refl _) fun _ hkey => exists_of_field_key (by decide) hkey

theorem kind?_eq_last_number :
    start.Leads numberAgainLog ∧ numberAgainLog.registry.isActive 1 = true ∧
      LastWatch 1 numberLog (.field 2 "a") numberAgainLog ∧
      ∃ key, Target.key (.field 2 "a") = .ok key ∧ key.kind numberLog.store.heap = .scalar ∧
        numberAgainLog.registry.kind? numberAgainLog.store 1
          = some (key.kind numberLog.store.heap) := by
  have hN : start.Leads numberLog := leads_sequenceLog.trans leads_numberLog
  have hL : start.Leads numberAgainLog := hN.trans leads_numberAgainLog
  have hlast : LastWatch 1 numberLog (.field 2 "a") numberAgainLog :=
    ⟨hN, fun _ hkey => exists_of_field_key (by decide) hkey, .refl _, false, [], rfl, nofun⟩
  obtain ⟨key, hkey, hkind⟩ := (hL.kind?_eq_last (w := 1) rfl).2 _ _ hlast
  refine ⟨hL, rfl, hlast, key, hkey, ?_, hkind⟩
  cases hkey
  rfl

/-- The kind of a watch that has been active all the time is another one when its path is watched
again. -/
theorem not_kind?_eq_first :
    start.Leads sequenceLog ∧ sequenceLog.answers = [.acted, .watched 1 true] ∧
      sequenceLog.Leads numberAgainLog ∧
      numberAgainLog.answers = sequenceLog.answers ++ [.acted, .watched 1 false] ∧
      numberLog.registry.isActive 1 = true ∧ numberAgainLog.registry.isActive 1 = true ∧
      sequenceLog.registry.kind? sequenceLog.store 1 = some .sequence ∧
      numberLog.registry.kind? numberLog.store 1 = some .sequence ∧
      numberAgainLog.registry.kind? numberAgainLog.store 1 = some .scalar :=
  ⟨leads_sequenceLog, rfl, leads_numberLog.trans leads_numberAgainLog, rfl, rfl, rfl, rfl, rfl, rfl⟩

end Log

end Registry

end ReactivePage
