import ReactivePage.Checkpoint.Evaluator
import ReactivePage.Proofs.Model.PathText
import ReactivePage.Proofs.Watch.Changes
import ReactivePage.Proofs.Watch.Slots

namespace ReactivePage

def Path.keyNamed (name : String) : String := (Step.ofHead name.toList).asKey

namespace Path

variable {name : String}

theorem keyNamed_of_numeral {n : Nat} (h : Digits.Numeral name.toList n) :
    keyNamed name = String.ofList (Digits.write n) := by
  rw [keyNamed, names_iff.1 (.number h), Step.asKey]

theorem keyNamed_of_not_numeral (h : ∀ n, ¬ Digits.Numeral name.toList n) :
    keyNamed name = name := by
  rw [keyNamed, names_iff.1 (.key h), Step.asKey, String.ofList_toList]

theorem keyNamed_eq_iff : keyNamed name = name ↔
    ∀ n, Digits.Numeral name.toList n → name.toList = Digits.write n := by
  constructor
  · intro h n hn
    rw [← h, keyNamed_of_numeral hn, String.toList_ofList]
  · intro h
    by_cases hnumeral : ∃ n, Digits.Numeral name.toList n
    · obtain ⟨n, hn⟩ := hnumeral
      rw [keyNamed_of_numeral hn, ← h n hn, String.ofList_toList]
    · exact keyNamed_of_not_numeral (not_exists.1 hnumeral)

theorem parse_name (h : Head name.toList) :
    parse name = .ok ⟨[Step.ofHead name.toList], List.cons_ne_nil _ _⟩ := by
  rw [parse_eq_ok_iff]
  refine spells_heads (List.cons_ne_nil name.toList []) ?_ (List.intercalate_singleton).symm
  simpa using h

theorem parse_names {holder : String} (hholder : Head holder.toList) (h : Head name.toList) :
    parse (holder ++ "." ++ name)
      = .ok ⟨[Step.ofHead holder.toList, Step.ofHead name.toList], List.cons_ne_nil _ _⟩ := by
  rw [parse_eq_ok_iff]
  refine spells_heads (List.cons_ne_nil holder.toList [name.toList]) ?_ ?_
  · simpa using ⟨hholder, h⟩
  · rw [String.toList_append, String.toList_append, List.intercalate_cons_cons,
      List.intercalate_singleton]
    rfl

end Path

namespace Heap

variable {h h' : Heap} {root c : Handle} {path : Path} {key : String}

def WritesEntry (h : Heap) (wr : Write) (key : String) : Prop :=
  ∃ old new, (h.write wr).2 = some (.entry key old new)

structure LeafEntry (h : Heap) (root : Handle) (path : Path) (c : Handle) (key : String) :
    Prop extends AtLeaf h root path c where
  keyed : h.isKeyed c = true
  key : path.leaf.asKey = key

theorem child?_of_isKeyed (hk : h.isKeyed c = true) (step : Step) :
    h.child? (.ref c) step = h.valueAt? c step.asKey := by
  obtain ⟨entries, hc | hc, hvalue⟩ := exists_hasEntries hk
  · rw [hvalue, child?, hc]
  · rw [hvalue, child?, hc]

theorem exists_entry_of_isKeyed (hk : h.isKeyed c = true) {wr : Write} (ht : wr.target = c)
    {e : Event} (hw : (h.write wr).2 = some e) : ∃ key old new, e = .entry key old new := by
  subst ht
  cases wr with
  | put c key value =>
    rw [write] at hw
    split at hw
    · cases hw
      exact ⟨_, _, _, rfl⟩
    · cases hw
  | erase c key =>
    rw [write] at hw
    split at hw
    · cases hw
      exact ⟨_, _, _, rfl⟩
    · cases hw
  | splice c index remove insert =>
    rw [write] at hw
    rw [isKeyed] at hk
    split at hw
    · next hc =>
      rw [Write.target, hc] at hk
      cases hk
    · cases hw

namespace LeafEntry

theorem lookup?_eq (S : h.LeafEntry root path c key) : h.lookup? root path = h.valueAt? c key := by
  rw [lookup?_of_holder S.toAtLeaf.holder, child?_of_isKeyed S.keyed, S.key]

theorem lookup?_edit (S : h.LeafEntry root path c key) {e : Event} (E : h.Edit h' c e) :
    h'.lookup? root path = h'.valueAt? c key := by
  have hk : h'.isKeyed c = true := (E.isKeyed c).trans S.keyed
  rw [S.toAtLeaf.lookup?_edit E, child?_of_isKeyed hk, S.key]

end LeafEntry

end Heap

namespace Store

variable {s : Store} {ch : ChannelId} {w : WatchId} {id : ObservationId} {o : Observation}
  {p : PathWatch} {wr : Write} {key : String}

theorem Consistent.tells_entry (C : s.Consistent) (V : s.Voices ch w id)
    (ho : s.observations.find? id = some o) (hp : o.holder = some p) (hkind : o.kind = .scalar)
    (S : s.heap.LeafEntry p.root p.path wr.target key) :
    (s.heap.WritesEntry wr key → Tells ch w s
      [.value ((s.write wr).heap.snapshot p.last)
        ((s.write wr).heap.snapshot ((s.write wr).heap.valueAt? wr.target key))] (s.write wr)) ∧
    (¬ s.heap.WritesEntry wr key → Tells ch w s [] (s.write wr)) := by
  rcases hw : s.heap.write wr with ⟨h, e | e⟩
  · refine ⟨?_, fun _ => ?_⟩
    · rintro ⟨_, _, he⟩
      rw [hw] at he
      cases he
    · rw [write_eq_of_none hw]
      exact .quiet rfl
  · have E := Heap.edit_of_write hw
    have hheap : (s.write wr).heap = h := by rw [(C.write wr).2, hw]
    have htells := C.tells_leaf V ho hp hkind S.toAtLeaf (Heap.accepts_of_isKeyed S.keyed _) hw
    rw [S.lookup?_edit E] at htells
    obtain ⟨written, old, new, rfl⟩ :=
      Heap.exists_entry_of_isKeyed S.keyed rfl (congrArg Prod.snd hw)
    simp only [Event.touches, Event.writesSlot, S.key, decide_eq_true_eq] at htells
    rw [hheap]
    constructor
    · rintro ⟨_, _, he⟩
      rw [hw] at he
      cases he
      rwa [if_pos rfl, decide_eq_true rfl, Kind.news_scalar (.inl rfl)] at htells
    · intro hother
      rwa [if_neg] at htells
      rintro rfl
      exact hother ⟨old, new, congrArg Prod.snd hw⟩

end Store

/-- What a text names as a path, seen from a container, is an entry of a container: it resolves and
evaluates to what is there, and a watch of a value there reports every write to the entry, and no
write to another entry of the container. -/
structure Heap.Names (h : Heap) (root : Handle) (text : String) (c : Handle) (key : String) :
    Prop where
  resolved : ∃ p, Path.parse text = .ok p ∧ h.lookup? root p = h.valueAt? c key
  evaluated : ∀ v, h.valueAt? c key = some v →
    Evaluator.evaluatePath h root text = .ok (h.toJson v)
  missing : h.valueAt? c key = none →
    Evaluator.evaluatePath h root text = .error (.unresolved (Text.trim text))
  observed : ∀ (L : Registry.Log) (w : WatchId) (p : Path), Registry.Log.start.Leads L →
    L.store.heap = h → Path.parse text = .ok p → L.registry.keyOf? w = some (.field root p) →
    L.registry.kind? L.store w = some .scalar → ∀ wr : Write, wr.target = c →
      (h.WritesEntry wr key → ∃ v, Value.sameOption v (h.valueAt? c key) = true ∧
        L.Enqueues wr w [.value ((L.store.write wr).heap.snapshot v)
          ((L.store.write wr).heap.snapshot ((L.store.write wr).heap.valueAt? c key))]) ∧
      (¬ h.WritesEntry wr key → L.Enqueues wr w [])

namespace Heap

variable {h : Heap} {root c d : Handle} {key : String}

theorem LeafEntry.names {text : String} {p : Path} (hp : Path.parse text = .ok p)
    (S : h.LeafEntry root p c key) : h.Names root text c key where
  resolved := ⟨p, hp, S.lookup?_eq⟩
  evaluated := by
    intro v hv
    rw [← S.lookup?_eq] at hv
    simp only [Evaluator.evaluatePath, Path.read_of_parse hp, hv]
  missing := by
    intro hv
    rw [← S.lookup?_eq] at hv
    simp only [Evaluator.evaluatePath, Path.read_of_parse hp, hv]
  observed := by
    rintro L w q hL rfl hparse hkey hkind wr rfl
    cases hp.symm.trans hparse
    obtain ⟨entry, hw, hkey⟩ := Option.map_eq_some_iff.1 hkey
    have T := (hL.kept Registry.Log.kept_start).tracks
    have T' : L.registry.Tracks (L.store.detach L.registry.channel) := T.aside rfl rfl rfl rfl
    obtain ⟨o, q, ho, hkind', hq, rfl, rfl⟩ := T'.exists_path hw hkey hkind
    have hheap := (T.sound.consistent.write wr).2
    have hheap' := (T'.sound.consistent.write wr).2
    have hlast := (T'.sound.consistent.upToDate _ o q ho hq).last
    obtain ⟨hwrites, hquiet⟩ := T'.sound.consistent.tells_entry (T'.voices hw) ho hq hkind' S
    rw [hheap'] at hwrites
    rw [hheap]
    refine ⟨fun h => ⟨q.last, ?_, Registry.Log.enqueues_of_tells (hwrites h)⟩,
      fun h => Registry.Log.enqueues_of_tells (hquiet h)⟩
    rw [← S.lookup?_eq]
    exact hlast

theorem names_name {name : String} (hc : h.isKeyed c = true) (hname : Path.Head name.toList) :
    h.Names c name c (Path.keyNamed name) := by
  refine LeafEntry.names (Path.parse_name hname) ⟨⟨rfl, ?_⟩, hc, rfl⟩
  intro i hi
  obtain ⟨hlt, -⟩ := List.getElem?_eq_some_iff.1 hi
  exact Nat.le_antisymm hlt (Nat.succ_pos i)

theorem names_names {holder name : String} (hc : h.isKeyed c = true) (hd : h.isKeyed d = true)
    (hne : c ≠ d) (hholder : Path.Head holder.toList) (hname : Path.Head name.toList)
    (hvalue : h.valueAt? c (Path.keyNamed holder) = some (.ref d)) :
    h.Names c (holder ++ "." ++ name) d (Path.keyNamed name) := by
  have hchild : h.child? (.ref c) (Step.ofHead holder.toList) = some (.ref d) := by
    rw [child?_of_isKeyed hc]
    exact hvalue
  refine LeafEntry.names (Path.parse_names hholder hname) ⟨⟨?_, ?_⟩, hd, rfl⟩
  · simp only [List.dropLast_cons_cons, List.dropLast_singleton, resolve?, hchild, Option.bind_some]
  · intro i hi
    simp only [chain, chainFrom, hchild] at hi
    cases i with
    | zero => exact absurd (Option.some.inj hi) hne
    | succ i =>
      cases i with
      | zero => rfl
      | succ i => cases hi

/-- On an object, and on a map in a field of it, a name leads to the entry whose key is the name as
a decimal number, or the name itself where it is none; so to its own entry unless it is a numeral in
another spelling. -/
theorem names_entries (h : Heap) {name : String} (hname : Path.Head name.toList) :
    (∀ (c : Handle) (fields : Dict String Value), h.contents c = .object fields →
      h.Names c name c (Path.keyNamed name)) ∧
    (∀ (c d : Handle) (fields entries : Dict String Value) (holder : String),
      h.contents c = .object fields → h.contents d = .map entries → Path.Head holder.toList →
      (∀ n, ¬ Digits.Numeral holder.toList n) → h.valueAt? c holder = some (.ref d) →
      h.Names c (holder ++ "." ++ name) d (Path.keyNamed name)) ∧
    (∀ n, Digits.Numeral name.toList n →
      Path.keyNamed name = String.ofList (Digits.write n)) ∧
    (Path.keyNamed name = name ↔
      ∀ n, Digits.Numeral name.toList n → name.toList = Digits.write n) := by
  refine ⟨?_, ?_, fun n => Path.keyNamed_of_numeral, Path.keyNamed_eq_iff⟩
  · intro c fields hc
    exact names_name (by rw [isKeyed, hc]) hname
  · intro c d fields entries holder hc hd hholder hnumeral hvalue
    have hne : c ≠ d := by
      rintro rfl
      cases hc.symm.trans hd
    rw [← Path.keyNamed_of_not_numeral hnumeral] at hvalue
    exact names_names (by rw [isKeyed, hc]) (by rw [isKeyed, hd]) hne hholder hname hvalue

def numeralsHeap : Heap :=
  let numerals := Dict.ofList [("007", .scalar (.ofNat 1)), ("7", .scalar (.ofNat 2))]
  let (d, h) := empty.create (.map numerals)
  (h.create (.object (numerals.insert "m" (.ref d)))).2

theorem head_numeral : Path.Head "007".toList where
  noPoint := by decide
  noBracket := by decide
  ne_nil := by decide
  trimmed := by decide

theorem names_numerals :
    numeralsHeap.Names 2 "007" 2 "7" ∧ numeralsHeap.Names 2 "m.007" 1 "7" := by
  have hm : ∀ n, ¬ Digits.Numeral "m".toList n := by
    intro n hn
    rw [← Digits.word?_eq_some_iff] at hn
    cases hn
  have hhead : Path.Head "m".toList := ⟨by decide, by decide, by decide, by decide⟩
  obtain ⟨hfield, hinner, -, -⟩ := names_entries numeralsHeap head_numeral
  exact ⟨hfield 2 _ rfl, hinner 2 1 _ _ "m" rfl rfl hhead hm rfl⟩

theorem not_names_own_entry :
    ¬ ∀ (h : Heap) (c : Handle) (fields : Dict String Value) (name : String),
      h.contents c = .object fields → Path.Head name.toList →
      ∃ p, Path.parse name = .ok p ∧ h.lookup? c p = h.valueAt? c name := by
  intro hall
  obtain ⟨p, hp, hlookup⟩ := hall numeralsHeap 2 _ "007" rfl head_numeral
  have hpath : Path.parse "007" = .ok ⟨[.index 7], List.cons_ne_nil _ _⟩ := rfl
  cases hpath.symm.trans hp
  have hown : numeralsHeap.valueAt? 2 "007" = some (.scalar (.ofNat 1)) := rfl
  have hother : numeralsHeap.lookup? 2 ⟨[.index 7], List.cons_ne_nil _ _⟩
      = some (.scalar (.ofNat 2)) := rfl
  rw [hown, hother] at hlookup
  cases hlookup

end Heap

end ReactivePage
