import ReactivePage.Proofs.Checkpoint.Order

namespace ReactivePage

namespace Store

theorem channels_observeKey (s : Store) (k : ChannelId) (w : WatchId) (key : TargetKey) :
    (s.observeKey k w key).2.channels = s.channels := by
  cases key with
  | field owner path =>
    have R := Rewired.subscribeContent { s with nextObservation := s.nextObservation + 1 }
      s.nextObservation (((s.heap.lookup? owner path).map s.heap.kind).getD .scalar)
      (s.heap.lookup? owner path)
    exact (Rewired.linkAll _ _ _ _ _).channels.trans R.channels
  | collection c =>
    have R := Rewired.subscribeContent { s with nextObservation := s.nextObservation + 1 }
      s.nextObservation (s.heap.kind (.ref c)) (some (.ref c))
    exact R.channels

theorem channels_closeObservation (s : Store) (id : ObservationId) :
    (s.closeObservation id).channels = s.channels := by
  rw [closeObservation]
  cases s.observations.find? id with
  | none => rfl
  | some o =>
    exact (Rewired.unsubscribeAll _ _).channels.trans (Rewired.unsubscribeAll _ _).channels

end Store

namespace Registry

theorem channels_watchKey (r : Registry) (s : Store) (key : TargetKey) (label : String) :
    (r.watchKey s key label).2.2.channels = s.channels := by
  rw [watchKey]
  cases r.entryOf? key with
  | some e => exact (Store.channels_observeKey _ _ _ _).trans (s.channels_closeObservation _)
  | none => exact s.channels_observeKey _ _ _

theorem channels_watch {r r' : Registry} {s s' : Store} {target : Target} {w : WatchId}
    (h : r.watch s target = .ok (w, r', s')) : s'.channels = s.channels := by
  rw [watch_eq] at h
  cases hk : target.key with
  | error e =>
    rw [hk] at h
    cases h
  | ok key =>
    rw [hk] at h
    have heq : r.watchKey s key target.label = (w, r', s') := Except.ok.inj h
    rw [← r.channels_watchKey s key target.label, heq]

theorem channels_unwatch (r : Registry) (s : Store) (w : WatchId) :
    (r.unwatch s w).2.2.channels = s.channels := by
  rw [unwatch]
  cases r.entries.find? w with
  | none => rfl
  | some entry => exact s.channels_closeObservation _

theorem channels_release (r : Registry) (s : Store) (w : WatchId) :
    (r.release s w).2.2.channels = s.channels := by
  rw [release]
  cases r.entries.find? w with
  | none => rfl
  | some entry =>
    simp only
    split
    · rfl
    · exact r.channels_unwatch s w

theorem channels_releaseAll (r : Registry) (s : Store) (ws : List WatchId) :
    (r.releaseAll s ws).2.channels = s.channels := by
  induction ws generalizing r s with
  | nil => rfl
  | cons w rest ih => exact (ih _ _).trans (r.channels_release s w)

theorem channels_unwatchAll (r : Registry) (s : Store) (ws : List WatchId) :
    (r.unwatchAll s ws).2.channels = s.channels := by
  induction ws generalizing r s with
  | nil => rfl
  | cons w rest ih => exact (ih _ _).trans (r.channels_unwatch s w)

end Registry

theorem Scheduler.channels_watchPaths (r : Registry) (s : Store) (scope : Handle)
    (taken : List WatchId) (paths : List String) :
    (watchPaths r s scope taken paths).2.2.channels = s.channels := by
  induction paths generalizing r s taken with
  | nil => rfl
  | cons path rest ih =>
    rw [watchPaths]
    cases hw : r.watch s (.field scope path) with
    | error e => exact r.channels_releaseAll s taken
    | ok x => exact (ih _ _ _).trans (Registry.channels_watch hw)

def Operation.isManagement {σ : Type} : Operation σ → Bool
  | watch _ => true
  | unwatch _ => true
  | release _ => true
  | closeAll => true
  | bind _ _ _ => true
  | unbind _ => true
  | _ => false

theorem Session.managed {σ : Type} (S : Session σ) {op : Operation σ}
    (h : op.isManagement = true) :
    (S.perform op).scheduler.channel = S.scheduler.channel ∧
      (((S.perform op).store.channels = S.store.channels ∧
          ∀ id b, (S.perform op).scheduler.bindings.find? id = some b →
            S.scheduler.bindings.find? id = some b) ∨
        ∃ t : Store, t.channels = S.store.channels ∧
          (S.perform op).store = t.schedule S.scheduler.channel) := by
  cases op with
  | act program => cases h
  | checkpoint => cases h
  | runScheduled => cases h
  | wait late => cases h
  | watch target =>
    simp only [perform, Scheduler.watch]
    cases hw : S.scheduler.registry.watch S.store target with
    | error e => exact ⟨rfl, .inl ⟨rfl, fun _ _ hb => hb⟩⟩
    | ok x => exact ⟨rfl, .inl ⟨Registry.channels_watch hw, fun _ _ hb => hb⟩⟩
  | unwatch w => exact ⟨rfl, .inl ⟨Registry.channels_unwatch _ _ w, fun _ _ hb => hb⟩⟩
  | release w => exact ⟨rfl, .inl ⟨Registry.channels_release _ _ w, fun _ _ hb => hb⟩⟩
  | closeAll => exact ⟨rfl, .inl ⟨Registry.channels_unwatchAll _ _ _, fun _ _ hb => hb⟩⟩
  | unbind id =>
    simp only [perform, Scheduler.unbind]
    cases S.scheduler.bindings.find? id with
    | none => exact ⟨rfl, .inl ⟨rfl, fun _ _ hb => hb⟩⟩
    | some b =>
      refine ⟨rfl, .inl ⟨Registry.channels_releaseAll _ _ _, fun id' b' hb => ?_⟩⟩
      rw [Dict.find?_erase_eq_ite] at hb
      split at hb
      · cases hb
      · exact hb
  | bind value scope target =>
    have hchannels := Scheduler.channels_watchPaths S.scheduler.registry S.store scope []
      (S.scheduler.dependencies value)
    simp only [perform, Scheduler.bind]
    split
    · next e r s hrun =>
      rw [hrun] at hchannels
      exact ⟨rfl, .inl ⟨hchannels, fun _ _ hb => hb⟩⟩
    · next watches r s hrun =>
      rw [hrun] at hchannels
      exact ⟨rfl, .inr ⟨s, hchannels, rfl⟩⟩

theorem Session.queue_perform {σ : Type} (S : Session σ) {op : Operation σ}
    (h : op.isManagement = true) :
    (S.perform op).scheduler.channel = S.scheduler.channel ∧
      ∀ k, ((S.perform op).store.channel k).queue = (S.store.channel k).queue ∧
        ((S.perform op).store.channel k).isOpen = (S.store.channel k).isOpen := by
  obtain ⟨hchannel, ⟨hchannels, -⟩ | ⟨t, hchannels, hstore⟩⟩ := S.managed h
  · refine ⟨hchannel, fun k => ?_⟩
    rw [Store.channel_congr hchannels]
    exact ⟨rfl, rfl⟩
  · refine ⟨hchannel, fun k => ?_⟩
    rw [hstore, Store.schedule, Store.channel_setChannel, Store.channel_congr hchannels,
      Store.channel_congr hchannels]
    split
    · next heq =>
      subst heq
      exact ⟨rfl, rfl⟩
    · exact ⟨rfl, rfl⟩

end ReactivePage
