import ReactivePage.Proofs.Checkpoint.Session

namespace ReactivePage

namespace Registry

variable {r : Registry} {s : Store}

theorem watch_eq (r : Registry) (s : Store) (target : Target) :
    r.watch s target = target.key.map fun key => r.watchKey s key target.label := by
  rw [watch]
  cases target.key <;> rfl

theorem Tracks.watch (T : r.Tracks s) {target : Target}
    (ht : ∀ key, target.key = .ok key → key.Exists s.heap) {w : WatchId} {r' : Registry}
    {s' : Store} (h : r.watch s target = .ok (w, r', s')) :
    ∃ key, target.key = .ok key ∧ Watched r s key w r' s' := by
  rw [watch_eq] at h
  cases hk : target.key with
  | error e =>
    rw [hk] at h
    cases h
  | ok key =>
    rw [hk] at h
    have W := T.watchKey (ht key hk) target.label
    have heq : r.watchKey s key target.label = (w, r', s') := Except.ok.inj h
    rw [heq] at W
    exact ⟨key, rfl, W⟩

theorem path_of_field_key {owner : Handle} {path : String} {key : TargetKey}
    (h : (Target.field owner path).key = .ok key) :
    ∃ p, Path.read path = .ok p ∧ TargetKey.field owner p = key := by
  simp only [Target.key] at h
  cases hp : Path.read path with
  | error e =>
    rw [hp] at h
    cases h
  | ok p =>
    rw [hp] at h
    cases h
    exact ⟨p, rfl, rfl⟩

theorem exists_of_field_key {owner : Handle} {path : String} {key : TargetKey} {h : Heap}
    (howner : owner < h.next) (hk : (Target.field owner path).key = .ok key) : key.Exists h := by
  obtain ⟨p, -, rfl⟩ := path_of_field_key hk
  exact howner

end Registry

namespace Scheduler

variable {σ : Type} {r : Registry} {s : Store}

open Registry (Adjusted Tracks)

theorem adjusted_watchPaths (T : r.Tracks s) {scope : Handle} (hscope : scope < s.heap.next)
    (taken : List WatchId) (paths : List String) :
    Adjusted r s (watchPaths r s scope taken paths).2.1 (watchPaths r s scope taken paths).2.2 := by
  induction paths generalizing r s taken with
  | nil => exact .refl T
  | cons path rest ih =>
    rw [watchPaths]
    split
    · next w r' s' h =>
      obtain ⟨key, -, W⟩ := T.watch (fun _ hk => Registry.exists_of_field_key hscope hk) h
      exact W.toAdjusted.trans (ih W.tracks (W.heap.symm ▸ hscope) _)
    · exact T.releaseAll taken

theorem tracks_refresh (T : r.Tracks s) (evaluator : Evaluator) (b : Binding σ)
    (hm : ∀ t ∈ turnMoments evaluator b s, t.heap.Closed) :
    r.Tracks (refresh evaluator b s).2 := by
  rw [turnMoments] at hm
  rw [refresh]
  cases hv : b.value.evaluate (evaluator.evaluate s.heap b.scope) with
  | error e => exact T
  | ok value =>
    rw [hv] at hm
    have hrun := (b.target.receive value b.target.memory).run_induction (P := r.Tracks)
      (Q := fun t => t.heap.Closed) (fun _ _ h _ hc T => T.step h hc) s T.sound.closed hm T
    exact hrun.1

theorem tracks_refreshAll (T : r.Tracks s) (evaluator : Evaluator)
    (bindings : List (BindingId × Binding σ))
    (hm : ∀ t ∈ turnsMoments evaluator bindings s, t.heap.Closed) :
    r.Tracks (refreshAll evaluator bindings s).2 := by
  induction bindings generalizing s with
  | nil => exact T
  | cons e rest ih =>
    simp only [turnsMoments, List.forall_mem_append] at hm
    exact ih (tracks_refresh T evaluator e.2 hm.1) hm.2

theorem tracks_checkpointWith {d : Scheduler σ} (T : d.registry.Tracks s) (received : List Signal)
    (hm : ∀ t ∈ d.moments s received, t.heap.Closed) :
    (d.checkpointWith s received).2.1.registry.Tracks (d.checkpointWith s received).2.2 := by
  have T₁ : d.registry.Tracks (s.drain d.channel).2 := T.aside rfl rfl rfl rfl
  exact tracks_refreshAll T₁ d.evaluator (d.affected s received) hm

theorem tracks_wakeTimes (T : r.Tracks s) (k : ChannelId) (n : Nat) :
    r.Tracks (wakeTimes s k n) := by
  induction n generalizing s with
  | zero => exact T
  | succ n ih => exact ih (T.aside rfl rfl rfl rfl)

end Scheduler

namespace Session

variable {σ : Type}

structure Ordered (S : Session σ) : Prop where
  tracks : S.scheduler.registry.Tracks S.store
  channel : S.scheduler.registry.channel = S.scheduler.channel

theorem ordered_start (settings : SchedulerSettings) (evaluator : Evaluator) :
    (start settings evaluator : Session σ).Ordered where
  tracks := by
    have S : Store.empty.openChannel.2.Sound := Store.sound_empty.aside rfl rfl rfl rfl
    exact .empty S (fun _ => rfl) 0
  channel := rfl

variable {S : Session σ}

theorem Ordered.adjusted (O : S.Ordered) {r : Registry} {s : Store}
    (A : Registry.Adjusted S.scheduler.registry S.store r s) :
    (⟨{ S.scheduler with registry := r }, s⟩ : Session σ).Ordered where
  tracks := A.tracks
  channel := A.channel.trans O.channel

theorem Ordered.bind (O : S.Ordered) {scope : Handle} (hscope : scope < S.store.heap.next)
    (value : Descriptor) (target : BindingTarget σ) :
    (S.perform (.bind value scope target)).Ordered := by
  have A := Scheduler.adjusted_watchPaths O.tracks hscope [] (S.scheduler.dependencies value)
  simp only [Session.perform, Scheduler.bind]
  split
  · next e r s h =>
    rw [h] at A
    exact O.adjusted A
  · next watches r s h =>
    rw [h] at A
    exact ⟨A.tracks.aside rfl rfl rfl rfl, A.channel.trans O.channel⟩

theorem Ordered.unbind (O : S.Ordered) (id : BindingId) : (S.perform (.unbind id)).Ordered := by
  simp only [Session.perform, Scheduler.unbind]
  split
  · exact O
  · next b _ =>
    have A := O.tracks.releaseAll b.watches
    exact ⟨A.tracks, A.channel.trans O.channel⟩

theorem Ordered.checkpoint (O : S.Ordered) (hm : ∀ t ∈ S.moments .checkpoint, t.heap.Closed) :
    (S.perform .checkpoint).Ordered where
  tracks := Scheduler.tracks_checkpointWith O.tracks [] hm
  channel := O.channel

theorem Ordered.wait (O : S.Ordered) (late : Nat)
    (hm : ∀ t ∈ S.moments (.wait late), t.heap.Closed) : (S.perform (.wait late)).Ordered := by
  simp only [moments] at hm
  simp only [Session.perform, Scheduler.wait]
  split
  · next hauto =>
    exact ⟨Scheduler.tracks_wakeTimes O.tracks _ late, O.channel⟩
  · next hauto =>
    rw [if_neg hauto] at hm
    split
    · next hdue =>
      rw [if_pos hdue] at hm
      have T := Scheduler.tracks_checkpointWith O.tracks [] hm
      exact ⟨Scheduler.tracks_wakeTimes T _ late, O.channel⟩
    · next hdue =>
      rw [if_neg hdue] at hm
      have T := Scheduler.tracks_wakeTimes O.tracks S.scheduler.channel late
      have T₁ : S.scheduler.registry.Tracks
          ((Scheduler.wakeTimes S.store S.scheduler.channel late).receive S.scheduler.channel).2 :=
        T.aside rfl rfl rfl rfl
      generalize (Scheduler.wakeTimes S.store S.scheduler.channel late).receive
        S.scheduler.channel = x at hm T₁ ⊢
      obtain ⟨first, s⟩ := x
      cases first with
      | none => exact ⟨T₁, O.channel⟩
      | some signal =>
        have hm₁ : ∀ t ∈ S.scheduler.moments s [signal], t.heap.Closed := by simpa using hm
        exact ⟨Scheduler.tracks_checkpointWith T₁ [signal] hm₁, O.channel⟩

theorem Ordered.perform (O : S.Ordered) {op : Operation σ} (h : S.Admits op) :
    (S.perform op).Ordered := by
  obtain ⟨hm, hexists⟩ := h
  cases op with
  | act program =>
    have hrun := program.run_induction (P := S.scheduler.registry.Tracks)
      (Q := fun t => t.heap.Closed) (fun _ _ h _ hc T => T.step h hc) S.store
      O.tracks.sound.closed hm O.tracks
    exact ⟨hrun.1, O.channel⟩
  | watch target =>
    simp only [Session.perform, Scheduler.watch]
    cases hw : S.scheduler.registry.watch S.store target with
    | error e => exact O
    | ok x =>
      obtain ⟨key, -, W⟩ := O.tracks.watch hexists hw
      exact O.adjusted W.toAdjusted
  | unwatch w => exact O.adjusted (O.tracks.unwatch w)
  | release w => exact O.adjusted (O.tracks.release w)
  | closeAll => exact O.adjusted (O.tracks.unwatchAll _)
  | bind value scope target => exact O.bind hexists value target
  | unbind id => exact O.unbind id
  | checkpoint => exact O.checkpoint hm
  | runScheduled =>
    simp only [moments] at hm
    simp only [Session.perform, Scheduler.runScheduled]
    split
    · next hdue =>
      rw [if_pos hdue] at hm
      exact O.checkpoint hm
    · exact O
  | wait late => exact O.wait late hm

theorem Reachable.ordered {settings : SchedulerSettings} {evaluator : Evaluator}
    (h : Reachable settings evaluator S) : S.Ordered := by
  induction h with
  | start => exact ordered_start settings evaluator
  | perform _ ha ih => exact ih.perform ha

theorem observersAt_of_entries_eq_empty {r : Registry} (h : r.entries = ∅) (s : Store)
    (c : Handle) : r.observersAt s c = 0 := by
  rw [Registry.observersAt, h]
  rfl

/-- In every reachable state the observers of a container are those that the active watches keep
there. So there are none where no watch reaches, watching again what is watched adds none, and
none are left when all watches have ended. -/
theorem Reachable.observerCount_accounted {settings : SchedulerSettings} {evaluator : Evaluator}
    (h : Reachable settings evaluator S) :
    (∀ c, S.store.observerCount c = S.scheduler.registry.observersAt S.store c) ∧
    (∀ c, (∀ w entry, S.scheduler.registry.entries.find? w = some entry →
        ¬ entry.key.Reaches S.store.heap c) → S.store.observerCount c = 0) ∧
    (∀ target key w entry, S.Admits (.watch target) → target.key = .ok key →
      S.scheduler.registry.entries.find? w = some entry → entry.key = key →
      S.scheduler.registry.kind? S.store w = some (key.kind S.store.heap) →
      ∀ c, (S.perform (.watch target)).store.observerCount c = S.store.observerCount c) ∧
    ∀ c, (S.perform .closeAll).store.observerCount c = 0 := by
  have T := h.ordered.tracks
  refine ⟨T.observerCount_eq, ?_, ?_, ?_⟩
  · intro c hc
    rw [T.observerCount_eq, Registry.observersAt, List.sum_eq_zero]
    intro n hn
    obtain ⟨e, he, rfl⟩ := List.mem_map.1 hn
    exact TargetKey.observersAt_of_not_reaches (hc e.1 e.2 (Dict.mem_toList.1 he)) _
  · intro target key w entry ha hkey hw hk hkind c
    have O := h.ordered.perform ha
    rw [O.tracks.observerCount_eq, T.observerCount_eq]
    simp only [Session.perform, Scheduler.watch]
    cases hwatch : S.scheduler.registry.watch S.store target with
    | error e => rfl
    | ok x =>
      obtain ⟨key', hkey', W⟩ := T.watch ha.2 hwatch
      cases hkey.symm.trans hkey'
      exact W.observersAt_again hw hk hkind c
  · intro c
    have O : (S.perform .closeAll).Ordered := h.ordered.perform ⟨by simp [moments], trivial⟩
    rw [O.tracks.observerCount_eq]
    exact observersAt_of_entries_eq_empty (Registry.entries_closeAll _ _) _ c

def loopProgram : Action Unit :=
  .create (.sequence []) fun c =>
    .create (.object (Dict.ofList [("items", .ref c)])) fun d =>
      .write (.splice c 0 0 [.ref d]) (.done ())

def loopSession : Session Unit :=
  (((start Settings.default.scheduler Evaluator.paths).perform (.act loopProgram)).perform
    (.watch (.field 2 "items.0.items"))).perform (.watch (.collection 1))

theorem reachable_loopSession :
    Reachable Settings.default.scheduler Evaluator.paths loopSession := by
  refine .perform (.perform (.perform .start ⟨by decide, trivial⟩) ⟨by simp [moments], ?_⟩)
    ⟨by simp [moments], ?_⟩
  · intro key hkey
    exact Registry.exists_of_field_key (by decide) hkey
  · intro key hkey
    cases hkey
    decide

theorem observerCount_accounted_loop :
    Reachable Settings.default.scheduler Evaluator.paths loopSession ∧
      loopSession.store.observerCount 1 = 3 ∧ loopSession.store.observerCount 2 = 2 ∧
      loopSession.store.observerCount 3 = 0 ∧
      (loopSession.perform (.watch (.collection 1))).store.observerCount 1
        = loopSession.store.observerCount 1 ∧
      (loopSession.perform .closeAll).store.observerCount 1 = 0 := by
  obtain ⟨hcount, hunreached, hagain, hclosed⟩ := reachable_loopSession.observerCount_accounted
  refine ⟨reachable_loopSession, (hcount 1).trans (by decide), (hcount 2).trans (by decide),
    (hcount 3).trans (by decide), ?_, hclosed 1⟩
  refine hagain (.collection 1) (.collection 1) 2 ⟨.collection 1, "#1", 1, 1⟩
    ⟨by simp [moments], ?_⟩ rfl rfl rfl rfl 1
  intro key hkey
  cases hkey
  decide

end Session

end ReactivePage
