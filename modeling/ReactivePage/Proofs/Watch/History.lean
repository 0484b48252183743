import ReactivePage.Proofs.Model.Spelling
import ReactivePage.Proofs.Trace
import ReactivePage.Proofs.Watch.Causes
import ReactivePage.Proofs.Watch.Holding

namespace ReactivePage

def TargetKey.print : TargetKey → (Handle × String) ⊕ Handle
  | field owner path => .inl (owner, path.display)
  | collection c => .inr c

theorem TargetKey.eq_of_print_eq {t t' : Target} {key key' : TargetKey} (h : t.key = .ok key)
    (h' : t'.key = .ok key') (hp : key.print = key'.print) : key = key' := by
  cases t with
  | collection c =>
    cases h
    cases t' with
    | collection c' =>
      cases h'
      cases hp
      rfl
    | field owner' path' =>
      obtain ⟨q, -, rfl⟩ := Registry.path_of_field_key h'
      cases hp
  | field owner path =>
    obtain ⟨p, hread, rfl⟩ := Registry.path_of_field_key h
    cases t' with
    | collection c' =>
      cases h'
      cases hp
    | field owner' path' =>
      obtain ⟨q, hread', rfl⟩ := Registry.path_of_field_key h'
      simp only [print, Sum.inl.injEq, Prod.mk.injEq] at hp
      rw [hp.1, Path.eq_of_display_eq hread hread' hp.2]

namespace Store

theorem Step.raises {s t : Store} (h : Step s t) (k : ChannelId) :
    ∃ l, Raises k s l t ∧ ∀ n, .change n ∈ l → s.Serves k n.watch := by
  cases h with
  | grow E => exact ⟨[], .quiet rfl, by simp⟩
  | write w =>
    refine ⟨_, s.raises_write k w, fun n hn => ?_⟩
    obtain ⟨n', hn', heq⟩ := List.mem_map.1 hn
    cases heq
    exact serves_of_mem_caused hn'
  | wake j =>
    by_cases hj : j = k
    · subst hj
      exact ⟨[.wake], .send s .wake, by simp⟩
    · exact ⟨[], .elsewhere s .wake hj, by simp⟩
  | render rendered => exact ⟨[], .quiet rfl, by simp⟩

end Store

namespace Registry

inductive Call
  | watch (target : Target)
  | release (w : WatchId)
  | unwatch (w : WatchId)
  | closeAll
  | act (program : Action Unit)

inductive Answer
  | watched (w : WatchId) (activated : Bool)
  | refused (e : InvalidPath)
  | released (w : WatchId) (ended : Bool)
  | unwatched (w : WatchId) (ended : Bool)
  | closedAll
  | acted

namespace Answer

def isWatchOf (w : WatchId) : Answer → Bool
  | watched v _ => v = w
  | _ => false

def isReleaseOf (w : WatchId) : Answer → Bool
  | released v _ => v = w
  | _ => false

def ends (w : WatchId) : Answer → Bool
  | unwatched v _ => v = w
  | closedAll => true
  | _ => false

def effect (a : Answer) (w : WatchId) (n : Nat) : Nat :=
  if a.ends w then 0 else n + (a.isWatchOf w).toNat - (a.isReleaseOf w).toNat

theorem effect_watched (w v : WatchId) (activated : Bool) (n : Nat) :
    (watched w activated).effect v n = n + [w].count v := by
  by_cases h : w = v <;> simp [effect, ends, isWatchOf, isReleaseOf, h]

theorem effect_released (w v : WatchId) (ended : Bool) (n : Nat) :
    (released w ended).effect v n = n - [w].count v := by
  by_cases h : w = v <;> simp [effect, ends, isWatchOf, isReleaseOf, h]

theorem effect_unwatched (w v : WatchId) (ended : Bool) (n : Nat) :
    (unwatched w ended).effect v n = if v = w then 0 else n := by
  by_cases h : v = w
  · simp [effect, ends, h]
  · simp [effect, ends, isWatchOf, isReleaseOf, h, Ne.symm h]

end Answer

/-- The holders of a watch by what happened since it was activated. -/
def standing (w : WatchId) (after : List Answer) : Nat :=
  if after.any (·.ends w) then 0
  else 1 + after.countP (·.isWatchOf w) - after.countP (·.isReleaseOf w)

theorem standing_pos {w : WatchId} {after : List Answer} :
    0 < standing w after ↔ (∀ a ∈ after, a.ends w = false) ∧
      after.countP (·.isReleaseOf w) < 1 + after.countP (·.isWatchOf w) := by
  rw [standing]
  by_cases hends : after.any (·.ends w) = true
  · rw [if_pos hends]
    obtain ⟨a, ha, hend⟩ := List.any_eq_true.1 hends
    refine iff_of_false (Nat.lt_irrefl 0) fun h => ?_
    rw [h.1 a ha] at hend
    cases hend
  · rw [if_neg hends, Nat.sub_pos_iff_lt]
    have hnone : ∀ a ∈ after, a.ends w = false := by simpa using hends
    exact (and_iff_right hnone).symm

/-- Answers change what is standing as they change the holders, as long as a watch is given again
only while somebody holds it. -/
theorem standing_concat {w : WatchId} {after : List Answer} {a : Answer}
    (h : a.isWatchOf w = true → 0 < standing w after) :
    standing w (after ++ [a]) = a.effect w (standing w after) := by
  have hone : ∀ b : Bool, (if b then 1 else 0) = b.toNat := fun b => by cases b <;> rfl
  rw [standing] at h
  rw [standing, standing, Answer.effect, List.any_append, List.countP_append, List.countP_append,
    List.countP_singleton, List.countP_singleton, List.any_cons, List.any_nil, Bool.or_false, hone,
    hone]
  cases hends : a.ends w with
  | true => simp
  | false =>
    cases hafter : after.any (·.ends w) with
    | true =>
      have hwatch : a.isWatchOf w = false := by simpa [hafter] using h
      simp [hwatch]
    | false =>
      simp only [hafter, Bool.or_self, Bool.false_eq_true, if_false] at h ⊢
      cases hwatch : a.isWatchOf w with
      | true =>
        have hpos := h hwatch
        simp only [Bool.toNat_true]
        omega
      | false =>
        simp only [Bool.toNat_false]
        omega

/-- A registry at work on a store, with the answers that it has given. -/
structure Log where
  registry : Registry
  store : Store
  answers : List Answer

namespace Log

def start : Log := ⟨.empty Store.empty.openChannel.1, Store.empty.openChannel.2, []⟩

def perform (L : Log) : Call → Log
  | .watch target =>
    match L.registry.watch L.store target with
    | .ok (w, registry, store) =>
      ⟨registry, store, L.answers ++ [.watched w (!L.registry.isActive w)]⟩
    | .error e => { L with answers := L.answers ++ [.refused e] }
  | .release w =>
    let (ended, registry, store) := L.registry.release L.store w
    ⟨registry, store, L.answers ++ [.released w ended]⟩
  | .unwatch w =>
    let (ended, registry, store) := L.registry.unwatch L.store w
    ⟨registry, store, L.answers ++ [.unwatched w ended]⟩
  | .closeAll =>
    let (registry, store) := L.registry.closeAll L.store
    ⟨registry, store, L.answers ++ [.closedAll]⟩
  | .act program =>
    { L with store := (program.run L.store).2, answers := L.answers ++ [.acted] }

def Admits (L : Log) : Call → Prop
  | .watch target => ∀ key, target.key = .ok key → key.Exists L.store.heap
  | .act program => ∀ t ∈ program.moments L.store, t.heap.Closed
  | _ => True

inductive Leads : Log → Log → Prop
  | refl (L : Log) : Leads L L
  | perform {L M : Log} {call : Call} : Leads L M → M.Admits call → Leads L (M.perform call)

structure Performed (L M : Log) (a : Answer) : Prop where
  answers : M.answers = L.answers ++ [a]
  tracks : M.registry.Tracks M.store
  channel : M.registry.channel = L.registry.channel
  nextId : L.registry.nextId ≤ M.registry.nextId
  keys : ∀ w key, M.registry.keyOf? w = some key →
    L.registry.keyOf? w = some key ∨ ∃ target : Target, target.key = .ok key
  holders : ∀ w, M.registry.holders w = a.effect w (L.registry.holders w)
  activated : ∀ w, a = .watched w true →
    L.registry.holders w = 0 ∧ L.registry.nextId ≤ w ∧ w < M.registry.nextId
  shared : ∀ w, a = .watched w false → 0 < L.registry.holders w
  raised : ∃ added, Store.Raises L.registry.channel L.store added M.store ∧
    ∀ n, .change n ∈ added → L.registry.isActive n.watch = true

end Log

variable {r : Registry} {s : Store}

theorem Tracks.raises_run (T : r.Tracks s) (program : Action Unit)
    (hm : ∀ t ∈ program.moments s, t.heap.Closed) (k : ChannelId) :
    r.Tracks (program.run s).2 ∧ ∃ added, Store.Raises k s added (program.run s).2 ∧
      ∀ n, .change n ∈ added → r.isActive n.watch = true := by
  have hstep : ∀ t t', Store.Step t t' → t.heap.Closed → t'.heap.Closed →
      (r.Tracks t ∧ ∃ added, Store.Raises k s added t ∧
        ∀ n, .change n ∈ added → r.isActive n.watch = true) →
      r.Tracks t' ∧ ∃ added, Store.Raises k s added t' ∧
        ∀ n, .change n ∈ added → r.isActive n.watch = true := by
    rintro t t' h - hc ⟨T', added, hadded, hactive⟩
    obtain ⟨more, hmore, hserves⟩ := h.raises k
    refine ⟨T'.step h hc, added ++ more, hadded.trans hmore, fun n hn => ?_⟩
    rcases List.mem_append.1 hn with hn | hn
    · exact hactive n hn
    · obtain ⟨id, o, ho, -, hw⟩ := hserves n hn
      obtain ⟨entry, hentry, -⟩ := T'.owned id o ho
      exact Dict.contains_iff.2 ⟨entry, hw ▸ hentry⟩
  exact (program.run_induction hstep s T.sound.closed hm
    ⟨T, [], .quiet rfl, by simp⟩).1

theorem Adjusted.raised {r' : Registry} {s' : Store} (A : Adjusted r s r' s') :
    ∃ added, Store.Raises r.channel s added s' ∧
      ∀ n, .change n ∈ added → r.isActive n.watch = true :=
  ⟨[], .quiet A.channels, by simp⟩

namespace Log

variable {L M : Log}

theorem performed_watch (T : L.registry.Tracks L.store) {target : Target}
    (ha : L.Admits (.watch target)) :
    ∃ a, Performed L (L.perform (.watch target)) a := by
  rw [perform]
  cases hw : L.registry.watch L.store target with
  | error e =>
    refine ⟨.refused e, ⟨rfl, T, rfl, Nat.le_refl _, fun _ _ h => .inl h, fun _ => rfl, ?_, ?_,
      (Adjusted.refl T).raised⟩⟩
    · rintro w ⟨⟩
    · rintro w ⟨⟩
  | ok x =>
    obtain ⟨w, r, s⟩ := x
    obtain ⟨key, hkey, W⟩ := T.watch ha hw
    obtain ⟨G, hnew⟩ := W.grown
    refine ⟨.watched w (!L.registry.isActive w), ?_⟩
    constructor
    case answers => rfl
    case tracks => exact W.tracks
    case channel => exact W.channel
    case nextId =>
      obtain ⟨_, -, ⟨_, _, -, rfl⟩ | ⟨_, -, rfl, rfl⟩⟩ := watch_cases hw
      · exact Nat.le_refl _
      · exact Nat.le_succ _
    case keys =>
      intro v key' h
      by_cases hv : v = w
      · subst hv
        cases hnew.symm.trans h
        exact .inr ⟨target, hkey⟩
      · simp only [keyOf?, (W.others v hv).1] at h
        exact .inl h
    case holders =>
      intro v
      rw [Answer.effect_watched]
      exact G.holders v
    case activated =>
      intro v hv
      simp only [Answer.watched.injEq, Bool.not_eq_true'] at hv
      obtain ⟨rfl, hinactive⟩ := hv
      have hzero : L.registry.holders w = 0 :=
        Nat.eq_zero_of_not_pos fun h => by simp [T.isActive_iff.2 h] at hinactive
      obtain ⟨_, -, ⟨entry, _, hfind, -⟩ | ⟨_, -, rfl, rfl⟩⟩ := watch_cases hw
      · simp [isActive, Dict.contains, (find?_of_entryOf? hfind).2] at hinactive
      · exact ⟨hzero, Nat.le_refl _, Nat.lt_succ_self _⟩
    case shared =>
      intro v hv
      simp only [Answer.watched.injEq, Bool.not_eq_false'] at hv
      obtain ⟨rfl, hactive⟩ := hv
      exact T.isActive_iff.1 hactive
    case raised => exact W.toAdjusted.raised

theorem performed_of_adjusted {r : Registry} {s : Store} {a : Answer}
    (A : Adjusted L.registry L.store r s) (hnext : r.nextId = L.registry.nextId)
    (hkeys : ∀ w key, r.keyOf? w = some key → L.registry.keyOf? w = some key)
    (hholders : ∀ w, r.holders w = a.effect w (L.registry.holders w))
    (ha : ∀ w b, a ≠ .watched w b) : Performed L ⟨r, s, L.answers ++ [a]⟩ a where
  answers := rfl
  tracks := A.tracks
  channel := A.channel
  nextId := Nat.le_of_eq hnext.symm
  keys := fun w key h => .inl (hkeys w key h)
  holders := hholders
  activated := fun w h => absurd h (ha w true)
  shared := fun w h => absurd h (ha w false)
  raised := A.raised

theorem performed (T : L.registry.Tracks L.store) {call : Call} (ha : L.Admits call) :
    ∃ a, Performed L (L.perform call) a := by
  cases call with
  | watch target => exact performed_watch T ha
  | release w =>
    exact ⟨_, performed_of_adjusted (T.release w) (nextId_release _ _ w)
      (fun _ _ => keyOf?_of_release)
      (fun v => (holders_release _ _ w v).trans (Answer.effect_released w v _ _).symm) nofun⟩
  | unwatch w =>
    exact ⟨_, performed_of_adjusted (T.unwatch w) (nextId_unwatch _ _ w)
      (fun _ _ => keyOf?_of_unwatch)
      (fun v => (holders_unwatch _ _ w v).trans (Answer.effect_unwatched w v _ _).symm) nofun⟩
  | closeAll =>
    exact ⟨_, performed_of_adjusted (T.unwatchAll _) (nextId_unwatchAll _ _ _)
      (fun _ _ => keyOf?_of_closeAll) (fun v => holders_closeAll _ _ v) nofun⟩
  | act program =>
    obtain ⟨T', hraised⟩ := T.raises_run program ha L.registry.channel
    refine ⟨.acted, ⟨rfl, T', rfl, Nat.le_refl _, fun _ _ h => .inl h, fun _ => rfl, ?_, ?_,
      hraised⟩⟩
    · rintro w ⟨⟩
    · rintro w ⟨⟩

structure Kept (L : Log) : Prop where
  tracks : L.registry.Tracks L.store
  named : ∀ w key, L.registry.keyOf? w = some key → ∃ target : Target, target.key = .ok key
  returned : ∀ w b, .watched w b ∈ L.answers → w < L.registry.nextId
  standing : ∀ w before after, L.answers = before ++ .watched w true :: after →
    L.registry.holders w = Registry.standing w after
  activated : ∀ w, 0 < L.registry.holders w →
    ∃ before after, L.answers = before ++ .watched w true :: after

theorem kept_start : Kept start where
  tracks := by
    have S : Store.empty.openChannel.2.Sound := Store.sound_empty.aside rfl rfl rfl rfl
    exact .empty S (fun _ => rfl) _
  named := by
    intro w key h
    cases h
  returned := by
    intro w b h
    cases h
  standing := by
    intro w before after h
    simp [start] at h
  activated := by
    intro w h
    cases h

theorem Kept.perform (K : Kept L) {a : Answer} (P : Performed L M a) : Kept M := by
  constructor
  case tracks => exact P.tracks
  case named =>
    intro w key h
    rcases P.keys w key h with h | h
    · exact K.named w key h
    · exact h
  case returned =>
    intro w b h
    rw [P.answers, List.mem_append, List.mem_singleton] at h
    rcases h with h | rfl
    · exact Nat.lt_of_lt_of_le (K.returned w b h) P.nextId
    · cases b with
      | true => exact (P.activated w rfl).2.2
      | false =>
        obtain ⟨before, after, h⟩ := K.activated w (P.shared w rfl)
        exact Nat.lt_of_lt_of_le (K.returned w true (by simp [h])) P.nextId
  case standing =>
    intro w before after h
    rw [P.answers] at h
    rw [P.holders]
    rcases Trace.split_concat h with ⟨rfl, rfl, -⟩ | ⟨rest, rfl, hrest⟩
    · rw [(P.activated w rfl).1]
      simp [Answer.effect, Answer.ends, Answer.isWatchOf, Answer.isReleaseOf, Registry.standing]
    · rw [K.standing w before rest hrest, standing_concat]
      intro hwatch
      rw [← K.standing w before rest hrest]
      cases a with
      | watched v activated =>
        have hv : v = w := by simpa [Answer.isWatchOf] using hwatch
        subst hv
        cases activated with
        | false => exact P.shared v rfl
        | true =>
          have hlt := K.returned v true (by simp [hrest])
          exact absurd (P.activated v rfl).2.1 (Nat.not_le_of_lt hlt)
      | _ => cases hwatch
  case activated =>
    intro w hw
    rw [P.answers]
    by_cases hold : 0 < L.registry.holders w
    · obtain ⟨before, after, h⟩ := K.activated w hold
      exact ⟨before, after ++ [a], by rw [h, List.append_assoc, List.cons_append]⟩
    · rw [P.holders, Nat.eq_zero_of_not_pos hold] at hw
      cases a with
      | watched v activated =>
        have hv : v = w := by
          by_contra hne
          simp [Answer.effect, Answer.ends, Answer.isWatchOf, Answer.isReleaseOf, hne] at hw
        subst hv
        cases activated with
        | true => exact ⟨L.answers, [], rfl⟩
        | false => exact absurd (P.shared v rfl) hold
      | _ => simp [Answer.effect, Answer.isWatchOf] at hw

theorem Leads.kept (h : L.Leads M) (K : Kept L) : Kept M := by
  induction h with
  | refl => exact K
  | perform _ ha ih =>
    obtain ⟨a, P⟩ := performed ih.tracks ha
    exact ih.perform P

theorem Leads.silent (h : L.Leads M) (K : Kept L) {w : WatchId} (hw : w < L.registry.nextId)
    (hinactive : L.registry.isActive w = false) :
    M.registry.channel = L.registry.channel ∧ w < M.registry.nextId ∧
      M.registry.isActive w = false ∧
      ∃ added, Store.Raises L.registry.channel L.store added M.store ∧
        ∀ n, .change n ∈ added → n.watch ≠ w := by
  induction h with
  | refl => exact ⟨rfl, hw, hinactive, [], .quiet rfl, by simp⟩
  | @perform M call hleads ha ih =>
    obtain ⟨hchannel, hlt, hended, added, hadded, hsilent⟩ := ih
    have KM := hleads.kept K
    obtain ⟨a, P⟩ := performed KM.tracks ha
    have hzero : M.registry.holders w = 0 :=
      Nat.eq_zero_of_not_pos fun h => by simp [KM.tracks.isActive_iff.2 h] at hended
    obtain ⟨more, hmore, hactive⟩ := P.raised
    refine ⟨P.channel.trans hchannel, Nat.lt_of_lt_of_le hlt P.nextId, ?_, added ++ more,
      hadded.trans (hchannel ▸ hmore), fun n hn => ?_⟩
    · rw [← Bool.not_eq_true, P.tracks.isActive_iff, P.holders, hzero]
      cases a with
      | watched v activated =>
        have hv : v ≠ w := by
          rintro rfl
          cases activated with
          | true => exact Nat.not_le_of_lt hlt (P.activated v rfl).2.1
          | false => exact Nat.lt_irrefl 0 (hzero ▸ P.shared v rfl)
        simp [Answer.effect, Answer.ends, Answer.isWatchOf, Answer.isReleaseOf, hv]
      | _ => simp [Answer.effect, Answer.isWatchOf]
    · rcases List.mem_append.1 hn with hn | hn
      · exact hsilent n hn
      · rintro rfl
        rw [hactive n hn] at hended
        cases hended

/-- A registry is a map from targets to numbers that counts references. -/
structure ReferenceCounted (L : Log) : Prop where
  distinct : ∀ w w' entry entry', L.registry.entries.find? w = some entry →
    L.registry.entries.find? w' = some entry' → entry.key.print = entry'.key.print → w = w'
  indexed : ∀ key w, L.registry.idOf? key = some w ↔
    ∃ entry, L.registry.entries.find? w = some entry ∧ entry.key = key
  refused : ∀ target e, target.key = .error e →
    L.registry.watch L.store target = .error e ∧
      (L.perform (.watch target)).registry = L.registry ∧
      (L.perform (.watch target)).store = L.store
  again : ∀ target w entry, target.key = .ok entry.key →
    L.registry.entries.find? w = some entry →
    ∃ x, L.registry.watch L.store target = .ok (w, x)
  /-- A target that is not watched gets a number above all that were ever given. -/
  fresh : ∀ target key, target.key = .ok key →
    (∀ w entry, L.registry.entries.find? w = some entry → entry.key ≠ key) →
    ∃ w x, L.registry.watch L.store target = .ok (w, x) ∧
      ∀ v b, .watched v b ∈ L.answers → v < w
  active : ∀ w, L.registry.isActive w = true ↔
    ∃ before after, L.answers = before ++ .watched w true :: after ∧
      (∀ a ∈ after, a.ends w = false) ∧
      after.countP (·.isReleaseOf w) < 1 + after.countP (·.isWatchOf w)
  released : ∀ w, (L.registry.release L.store w).1 = true ↔
    L.registry.isActive w = true ∧ (L.registry.release L.store w).2.1.isActive w = false
  unwatched : ∀ w, (L.registry.unwatch L.store w).1 = true ↔
    L.registry.isActive w = true ∧ (L.registry.unwatch L.store w).2.1.isActive w = false
  silent : ∀ w b, .watched w b ∈ L.answers → L.registry.isActive w = false →
    ∀ M, L.Leads M → M.registry.isActive w = false ∧
      ∃ added, Store.Raises L.registry.channel L.store added M.store ∧
        ∀ n, .change n ∈ added → n.watch ≠ w

theorem Kept.active_iff (K : Kept L) (w : WatchId) : L.registry.isActive w = true ↔
    ∃ before after, L.answers = before ++ .watched w true :: after ∧
      (∀ a ∈ after, a.ends w = false) ∧
      after.countP (·.isReleaseOf w) < 1 + after.countP (·.isWatchOf w) := by
  rw [K.tracks.isActive_iff]
  constructor
  · intro h
    obtain ⟨before, after, hsplit⟩ := K.activated w h
    rw [K.standing w before after hsplit, standing_pos] at h
    exact ⟨before, after, hsplit, h⟩
  · rintro ⟨before, after, hsplit, h⟩
    rw [K.standing w before after hsplit, standing_pos]
    exact h

theorem Kept.fresh (K : Kept L) {target : Target} {key : TargetKey} (hkey : target.key = .ok key)
    (hnew : ∀ w entry, L.registry.entries.find? w = some entry → entry.key ≠ key) :
    ∃ w x, L.registry.watch L.store target = .ok (w, x) ∧
      ∀ v b, .watched v b ∈ L.answers → v < w := by
  cases hw : L.registry.watch L.store target with
  | error e =>
    rw [watch_eq, hkey] at hw
    cases hw
  | ok x =>
    obtain ⟨w, x⟩ := x
    refine ⟨w, x, rfl, ?_⟩
    obtain ⟨key', hkey', ⟨entry, _, hfind, -⟩ | ⟨_, -, rfl, -⟩⟩ := watch_cases hw
    · cases hkey.symm.trans hkey'
      obtain ⟨hentry, hk⟩ := K.tracks.key_of_entryOf? hfind
      exact absurd hk (hnew w entry hentry)
    · exact K.returned

theorem Kept.again (K : Kept L) {target : Target} {w : WatchId} {entry : RegistryEntry}
    (hkey : target.key = .ok entry.key) (hentry : L.registry.entries.find? w = some entry) :
    ∃ x, L.registry.watch L.store target = .ok (w, x) := by
  cases hw : L.registry.watch L.store target with
  | error e =>
    rw [watch_eq, hkey] at hw
    cases hw
  | ok x =>
    obtain ⟨w', x⟩ := x
    obtain ⟨key, hkey', ⟨entry', _, hfind, -⟩ | ⟨_, hnone, -⟩⟩ := watch_cases hw
    · cases hkey.symm.trans hkey'
      obtain ⟨hentry', hk⟩ := K.tracks.key_of_entryOf? hfind
      exact ⟨x, by rw [K.tracks.distinct w w' entry entry' hentry hentry' hk.symm]⟩
    · cases hkey.symm.trans hkey'
      exact absurd rfl (K.tracks.key_ne_of_entryOf? hnone hentry)

/-- However an empty registry is used, it counts references. -/
theorem Leads.referenceCounted (h : start.Leads L) : L.ReferenceCounted where
  distinct := by
    intro w w' entry entry' hw hw' hprint
    have K := h.kept kept_start
    obtain ⟨target, hkey⟩ := K.named w entry.key (by rw [keyOf?, hw, Option.map_some])
    obtain ⟨target', hkey'⟩ := K.named w' entry'.key (by rw [keyOf?, hw', Option.map_some])
    exact K.tracks.distinct w w' entry entry' hw hw' (TargetKey.eq_of_print_eq hkey hkey' hprint)
  indexed := (h.kept kept_start).tracks.indexed
  refused := by
    intro target e he
    have hwatch : L.registry.watch L.store target = .error e := by rw [watch_eq, he]; rfl
    exact ⟨hwatch, by rw [Log.perform, hwatch], by rw [Log.perform, hwatch]⟩
  again := fun _ _ _ => (h.kept kept_start).again
  fresh := fun _ _ => (h.kept kept_start).fresh
  active := (h.kept kept_start).active_iff
  released := release_fst_iff L.registry L.store
  unwatched := unwatch_fst_iff L.registry L.store
  silent := by
    intro w b hw hinactive M hM
    have K := h.kept kept_start
    obtain ⟨-, -, hended, hraised⟩ := hM.silent K (K.returned w b hw) hinactive
    exact ⟨hended, hraised⟩

def spellingLog : Log :=
  ((((start.perform (.act (.create (.object ∅) fun _ => .done ()))).perform
    (.watch (.field 1 "todos[0]"))).perform (.watch (.field 1 " todos.0"))).perform
      (.watch (.field 1 "done"))).perform (.unwatch 2)

theorem leads_spellingLog : start.Leads spellingLog := by
  refine .perform (.perform (.perform (.perform (.perform (.refl _) ?_) ?_) ?_) ?_) ?_
  · simp only [Admits]
    decide
  · exact fun _ hkey => exists_of_field_key (by decide) hkey
  · exact fun _ hkey => exists_of_field_key (by decide) hkey
  · exact fun _ hkey => exists_of_field_key (by decide) hkey
  · trivial

theorem referenceCounted_spelling :
    start.Leads spellingLog ∧ spellingLog.registry.isActive 1 = true ∧
      (∃ x, spellingLog.registry.watch spellingLog.store (.field 1 "todos.0") = .ok (1, x)) ∧
      ∀ M, spellingLog.Leads M → M.registry.isActive 2 = false := by
  have R := leads_spellingLog.referenceCounted
  have hanswers : spellingLog.answers = [.acted] ++ .watched 1 true ::
      [.watched 1 false, .watched 2 true, .unwatched 2 true] := rfl
  refine ⟨leads_spellingLog, ?_, R.again _ 1 _ rfl rfl, fun M hM => ?_⟩
  · exact (R.active 1).2 ⟨_, _, hanswers, by simp [Answer.ends], by decide⟩
  · exact (R.silent 2 true (by simp [hanswers]) (by decide) M hM).1

end Log

end Registry

end ReactivePage
