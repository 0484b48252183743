import ReactivePage.Proofs.Watch.Exactness
import ReactivePage.Proofs.Watch.History

namespace ReactivePage

theorem Store.detach_setChannel (s : Store) (k : ChannelId) (c : Channel) :
    (s.setChannel k c).detach k = s.detach k := by
  rw [detach, detach, setChannel, setChannel, setChannel]
  congr 1
  apply Dict.ext_find?
  intro j
  simp only [Dict.find?_insert_eq_ite]
  split <;> rfl

namespace Registry

theorem Tracks.voices {r : Registry} {s : Store} (T : r.Tracks s) {w : WatchId}
    {entry : RegistryEntry} (hw : r.entries.find? w = some entry) :
    s.Voices r.channel w entry.observation := by
  intro j o ho
  obtain ⟨entry', hw', rfl⟩ := T.owned j o ho
  obtain ⟨o', ho', hk, -⟩ := T.observed o.watch entry' hw'
  cases ho.symm.trans ho'
  refine ⟨hk, ?_, fun hj => ?_⟩
  · rintro rfl
    rw [Option.some.inj (hw.symm.trans hw')]
  · obtain ⟨o'', ho'', -, hwatch, -⟩ := T.observed w entry hw
    rw [← hj] at ho''
    cases ho.symm.trans ho''
    exact hwatch

theorem Tracks.exists_path {r : Registry} {s : Store} (T : r.Tracks s) {w : WatchId}
    {entry : RegistryEntry} (hw : r.entries.find? w = some entry) {owner : Handle} {path : Path}
    (hkey : entry.key = .field owner path) {kind : Kind} (hkind : r.kind? s w = some kind) :
    ∃ o p, s.observations.find? entry.observation = some o ∧ o.kind = kind ∧
      o.holder = some p ∧ p.root = owner ∧ p.path = path := by
  obtain ⟨o, ho, -, -, hobs⟩ := T.observed w entry hw
  rw [hkey] at hobs
  obtain ⟨p, hp, hroot, hpath⟩ := Observation.exists_holder_of_subject hobs
  rw [kind?_eq hw, ho] at hkind
  exact ⟨o, p, ho, Option.some.inj hkind, hp, hroot, hpath⟩

namespace Log

/-- What a write puts on the queue of a registry for a watch, whatever else is queued. -/
def Enqueues (L : Log) (wr : Write) (w : WatchId) (changes : List Change) : Prop :=
  ∃ sent : List Notification, (sent.filter (·.watch = w)).map (·.change) = changes ∧
    ∀ c : Channel, c.isOpen = true →
      (((L.store.setChannel L.registry.channel c).write wr).channel L.registry.channel).queue
        = c.queue ++ sent.map .change

variable {L : Log}

theorem enqueues_of_tells {wr : Write} {w : WatchId} {changes : List Change}
    (h : Store.Tells L.registry.channel w (L.store.detach L.registry.channel) changes
      ((L.store.detach L.registry.channel).write wr)) : L.Enqueues wr w changes := by
  obtain ⟨sent, hsent, hchanges⟩ := h
  refine ⟨sent, hchanges, fun c hopen => ?_⟩
  have hdetach : (L.store.setChannel L.registry.channel c).caused L.registry.channel wr = sent := by
    apply Store.caused_eq_of_raises
    rw [Store.detach_setChannel]
    exact hsent
  have hraises := (L.store.setChannel L.registry.channel c).raises_write L.registry.channel wr
  have hchannel : (L.store.setChannel L.registry.channel c).channel L.registry.channel = c := by
    rw [Store.channel_setChannel, if_pos rfl]
  rw [hdetach] at hraises
  rw [hraises.queue (by rw [hchannel]; exact hopen), hchannel]

/-- A write makes an active watch of the value at a path report once if the path leads to another
value afterwards or its last slot was written, and not at all otherwise. The values reported are
the new one, and one that is the same as the old. -/
theorem Leads.reports_value (hL : start.Leads L) {w : WatchId} {entry : RegistryEntry}
    (hw : L.registry.entries.find? w = some entry) {owner : Handle} {path : Path}
    (hkey : entry.key = .field owner path) (hkind : L.registry.kind? L.store w = some .scalar)
    (wr : Write) (hacyclic : L.store.heap.Acyclic owner)
    (hacyclic' : (L.store.write wr).heap.Acyclic owner) :
    let before := L.store.heap.lookup? owner path
    let after := (L.store.write wr).heap.lookup? owner path
    (¬ Value.sameOption before after = true ∨ L.store.heap.WritesLeaf owner path wr →
      ∃ v old new, Value.sameOption v before = true ∧ L.store.heap.Shows v old ∧
        (L.store.write wr).heap.Shows after new ∧ L.Enqueues wr w [.value old new]) ∧
    (Value.sameOption before after = true → ¬ L.store.heap.WritesLeaf owner path wr →
      L.Enqueues wr w []) := by
  have T := (hL.kept kept_start).tracks
  have hheap := (T.sound.consistent.write wr).2
  have T' : L.registry.Tracks (L.store.detach L.registry.channel) := T.aside rfl rfl rfl rfl
  obtain ⟨o, p, ho, hkind', hp, rfl, rfl⟩ := T'.exists_path hw hkey hkind
  simp only [hheap] at hacyclic' ⊢
  obtain ⟨hnews, hquiet⟩ := T'.sound.consistent.tells_scalar hacyclic (T'.voices hw) ho hp hkind'
    wr hacyclic'
  refine ⟨fun h => ?_, fun hs hleaf => enqueues_of_tells (hquiet hs hleaf)⟩
  obtain ⟨v, old, new, hv, hold, hnew, htells⟩ := hnews h
  exact ⟨v, old, new, hv, hold, hnew, enqueues_of_tells htells⟩

def zero (negative : Bool) : Json := .number (.double (.zero negative))

def zeroLog : Log :=
  ((start.perform (.act (.create (.object (Dict.ofList [("b", .scalar (zero false))])) fun c =>
      .create (.object (Dict.ofList [("b", .scalar (zero true))])) fun _ =>
        .create (.object (Dict.ofList [("a", .ref c)])) fun _ => .done ()))).perform
    (.watch (.field 3 "a.b"))).perform (.act (.write (.put 3 "a" (.ref 2)) (.done ())))

theorem leads_zeroLog : start.Leads zeroLog := by
  refine .perform (.perform (.perform (.refl _) ?_) ?_) ?_
  · simp only [Admits]
    decide
  · exact fun _ hkey => exists_of_field_key (by decide) hkey
  · simp only [Admits]
    decide

theorem not_shows_zero {h : Heap} : ¬ h.Shows (some (.scalar (zero true))) (some (zero false)) := by
  rintro ⟨hzero⟩
  cases hzero

def nestedPath : Path := ⟨[.key "a", .key "b"], List.cons_ne_nil _ _⟩

def oneWrite : Write := .put 2 "b" (.scalar (.ofNat 1))

theorem reports_value_zero :
    start.Leads zeroLog ∧ zeroLog.store.heap.WritesLeaf 3 nestedPath oneWrite ∧
      (∃ v old new, Value.sameOption v (zeroLog.store.heap.lookup? 3 nestedPath) = true ∧
        zeroLog.store.heap.Shows v old ∧
        (zeroLog.store.write oneWrite).heap.Shows (some (.scalar (.ofNat 1))) new ∧
        zeroLog.Enqueues oneWrite 1 [.value old new]) ∧
      zeroLog.Enqueues (.put 3 "a" (.ref 1)) 1 [] := by
  have hw : zeroLog.registry.entries.find? 1 = some ⟨.field 3 nestedPath, "a.b", 0, 1⟩ := rfl
  have hacyclic : zeroLog.store.heap.Acyclic 3 := Heap.acyclic_of_within (by decide) 3
  have hleaf : zeroLog.store.heap.WritesLeaf 3 nestedPath oneWrite := ⟨rfl, _, rfl, rfl⟩
  refine ⟨leads_zeroLog, hleaf, ?_, ?_⟩
  · exact (leads_zeroLog.reports_value hw rfl rfl oneWrite hacyclic
      (Heap.acyclic_of_within (by decide) _)).1 (.inr hleaf)
  · refine (leads_zeroLog.reports_value hw rfl rfl (.put 3 "a" (.ref 1)) hacyclic
      (Heap.acyclic_of_within (by decide) _)).2 (by decide) ?_
    rintro ⟨htarget, -⟩
    cases htarget

/-- The value that is reported as the old one may be the other zero. -/
theorem not_reports_value_zero :
    start.Leads zeroLog ∧
      (zeroLog.registry.entries.find? 1).map (·.key) = some (.field 3 nestedPath) ∧
      zeroLog.registry.kind? zeroLog.store 1 = some .scalar ∧ zeroLog.store.heap.Acyclic 3 ∧
      (zeroLog.store.write oneWrite).heap.Acyclic 3 ∧
      zeroLog.store.heap.WritesLeaf 3 nestedPath oneWrite ∧
      ¬ ∃ old new, zeroLog.store.heap.Shows (zeroLog.store.heap.lookup? 3 nestedPath) old ∧
        (zeroLog.store.write oneWrite).heap.Shows
          ((zeroLog.store.write oneWrite).heap.lookup? 3 nestedPath) new ∧
        zeroLog.Enqueues oneWrite 1 [.value old new] := by
  refine ⟨leads_zeroLog, rfl, rfl, Heap.acyclic_of_within (by decide) _,
    Heap.acyclic_of_within (by decide) _, ⟨rfl, _, rfl, rfl⟩, ?_⟩
  rintro ⟨old, new, hold, -, sent, hsent, hqueue⟩
  have hqueue : [Signal.change ⟨1, "a.b", .value (some (zero false)) (some (.ofNat 1))⟩]
      = sent.map .change := hqueue .empty rfl
  obtain rfl : [_] = sent := List.map_injective_iff.2 (fun _ _ => Signal.change.inj) hqueue
  obtain ⟨rfl, -⟩ := Change.value.inj (List.singleton_inj.1 hsent)
  exact not_shows_zero hold

/-- A write makes an active watch of the collection at a path report its data if it is an
effective write to the collection, a replacement if the path leads to another value afterwards,
and nothing otherwise. Then the watch observes what the path leads to, if that is a collection of
its kind, and no other. -/
theorem Leads.reports_collection (hL : start.Leads L) {w : WatchId} {entry : RegistryEntry}
    (hw : L.registry.entries.find? w = some entry) {owner : Handle} {path : Path}
    (hkey : entry.key = .field owner path) {kind : Kind}
    (hkind : L.registry.kind? L.store w = some kind) (hcollection : kind ≠ .scalar)
    (wr : Write) (hacyclic : L.store.heap.Acyclic owner)
    (hacyclic' : (L.store.write wr).heap.Acyclic owner) :
    let before := L.store.heap.lookup? owner path
    let after := (L.store.write wr).heap.lookup? owner path
    (∀ e, (L.store.heap.write wr).2 = some e →
      L.store.heap.contentOf? kind before = some wr.target →
      ∃ change, e.Carries L.store.heap (L.store.write wr).heap change ∧
        L.Enqueues wr w [change]) ∧
    (¬ Value.sameOption before after = true →
      ∃ v old new, Value.sameOption v before = true ∧ L.store.heap.Shows v old ∧
        (L.store.write wr).heap.Shows after new ∧ L.Enqueues wr w [.replaced old new]) ∧
    (Value.sameOption before after = true →
      ((L.store.heap.write wr).2 = none ∨
        L.store.heap.contentOf? kind before ≠ some wr.target) → L.Enqueues wr w []) ∧
    ∀ c, (∃ n, (L.store.write wr).observer? ⟨c, n⟩ = some (.content entry.observation)) ↔
      (L.store.write wr).heap.contentOf? kind after = some c := by
  have T := (hL.kept kept_start).tracks
  obtain ⟨U, hheap⟩ := T.sound.consistent.write wr
  have T' : L.registry.Tracks (L.store.detach L.registry.channel) := T.aside rfl rfl rfl rfl
  obtain ⟨o, p, ho, rfl, hp, rfl, rfl⟩ := T'.exists_path hw hkey hkind
  rw [hheap] at hacyclic'
  obtain ⟨hdata, hnews, hquiet⟩ := T'.sound.consistent.tells_collection hacyclic (T'.voices hw) ho
    hp hcollection wr hacyclic'
  obtain ⟨o', ho', hcont⟩ := U.retains.continues _ o ho
  have hsubject : o'.subject = .inl (p.root, p.path) := by
    rw [hcont.subject, Observation.subject, hp]
  obtain ⟨p', hp', hroot, hpath⟩ := Observation.exists_holder_of_subject hsubject
  refine ⟨fun e he hc => ?_, fun h => ?_, fun hs h => ?_, fun c => ?_⟩
  · obtain ⟨change, hcarries, htells⟩ := hdata e he hc
    rw [hheap]
    exact ⟨change, hcarries, enqueues_of_tells htells⟩
  · rw [hheap] at h ⊢
    obtain ⟨v, old, new, hv, hold, hnew, htells⟩ := hnews h
    exact ⟨v, old, new, hv, hold, hnew, enqueues_of_tells htells⟩
  · rw [hheap] at hs
    exact enqueues_of_tells (hquiet hs h)
  · rw [U.consistent.exists_content_iff ho' hp', hcont.kind, hroot, hpath]

def heldLog : Log :=
  (start.perform (.act (.create (.sequence []) fun c =>
      .create (.object (Dict.ofList [("b", .ref c)])) fun d =>
        .create (.object (Dict.ofList [("b", .scalar (zero true))])) fun _ =>
          .create (.object (Dict.ofList [("a", .ref d)])) fun _ => .done ()))).perform
    (.watch (.field 4 "a.b"))

theorem leads_heldLog : start.Leads heldLog := by
  refine .perform (.perform (.refl _) ?_) ?_
  · simp only [Admits]
    decide
  · exact fun _ hkey => exists_of_field_key (by decide) hkey

def pushWrite : Write := .splice 1 0 0 [.scalar .null]

def dropWrite : Write := .put 2 "b" (.scalar (zero false))

theorem reports_collection_held :
    start.Leads heldLog ∧ heldLog.registry.kind? heldLog.store 1 = some .sequence ∧
      (∃ change, (Event.splice 0 [] 1).Carries heldLog.store.heap
          (heldLog.store.write pushWrite).heap change ∧ heldLog.Enqueues pushWrite 1 [change]) ∧
      (∃ v old new, Value.sameOption v (some (.ref 1)) = true ∧ heldLog.store.heap.Shows v old ∧
        (heldLog.store.write dropWrite).heap.Shows (some (.scalar (zero false))) new ∧
        heldLog.Enqueues dropWrite 1 [.replaced old new]) ∧
      ¬ ∃ n, (heldLog.store.write dropWrite).observer? ⟨1, n⟩ = some (.content 0) := by
  have hw : heldLog.registry.entries.find? 1 = some ⟨.field 4 nestedPath, "a.b", 0, 1⟩ := rfl
  have hkind : heldLog.registry.kind? heldLog.store 1 = some .sequence := rfl
  have hacyclic : heldLog.store.heap.Acyclic 4 := Heap.acyclic_of_within (by decide) 4
  obtain ⟨hdata, -⟩ := leads_heldLog.reports_collection hw rfl hkind nofun pushWrite hacyclic
    (Heap.acyclic_of_within (by decide) _)
  obtain ⟨-, hnews, -, hplace⟩ := leads_heldLog.reports_collection hw rfl hkind nofun dropWrite
    hacyclic (Heap.acyclic_of_within (by decide) _)
  refine ⟨leads_heldLog, hkind, hdata _ rfl rfl, hnews (by decide), ?_⟩
  exact fun h => nomatch (hplace 1).1 h

def zeroHeldLog : Log :=
  (heldLog.perform (.act (.write dropWrite (.done ())))).perform
    (.act (.write (.put 4 "a" (.ref 3)) (.done ())))

theorem leads_zeroHeldLog : start.Leads zeroHeldLog := by
  refine .perform (.perform leads_heldLog ?_) ?_
  · simp only [Admits]
    decide
  · simp only [Admits]
    decide

def backWrite : Write := .put 3 "b" (.ref 1)

theorem not_reports_collection_zero :
    start.Leads zeroHeldLog ∧
      (zeroHeldLog.registry.entries.find? 1).map (·.key) = some (.field 4 nestedPath) ∧
      zeroHeldLog.registry.kind? zeroHeldLog.store 1 = some .sequence ∧
      zeroHeldLog.store.heap.Acyclic 4 ∧ (zeroHeldLog.store.write backWrite).heap.Acyclic 4 ∧
      ¬ Value.sameOption (zeroHeldLog.store.heap.lookup? 4 nestedPath)
          ((zeroHeldLog.store.write backWrite).heap.lookup? 4 nestedPath) = true ∧
      ¬ ∃ old new, zeroHeldLog.store.heap.Shows (zeroHeldLog.store.heap.lookup? 4 nestedPath) old ∧
        (zeroHeldLog.store.write backWrite).heap.Shows
          ((zeroHeldLog.store.write backWrite).heap.lookup? 4 nestedPath) new ∧
        zeroHeldLog.Enqueues backWrite 1 [.replaced old new] := by
  refine ⟨leads_zeroHeldLog, rfl, rfl, Heap.acyclic_of_within (by decide) _,
    Heap.acyclic_of_within (by decide) _, by decide, ?_⟩
  rintro ⟨old, new, hold, -, sent, hsent, hqueue⟩
  have hqueue : [Signal.change ⟨1, "a.b", .replaced (some (zero false)) (some (.array []))⟩]
      = sent.map .change := hqueue .empty rfl
  obtain rfl : [_] = sent := List.map_injective_iff.2 (fun _ _ => Signal.change.inj) hqueue
  obtain ⟨rfl, -⟩ := Change.replaced.inj (List.singleton_inj.1 hsent)
  exact not_shows_zero hold

end Log

end Registry

end ReactivePage
