import ReactivePage.Proofs.Checkpoint.Bookkeeping
import ReactivePage.Proofs.Checkpoint.Outcomes

namespace ReactivePage

/-- Nothing, JSON, or a collection of JSON under its own kind. -/
def Heap.Plain (h : Heap) (kind : Option Kind) : Option Value → Prop
  | some (.ref c) => h.kind (.ref c) ≠ .scalar ∧ kind = some (h.kind (.ref c)) ∧
    ∀ v ∈ (h.contents c).values, v.handle? = none
  | some (.scalar _) => True
  | none => True

instance (h : Heap) (kind : Option Kind) : (v : Option Value) → Decidable (h.Plain kind v)
  | some (.ref c) => inferInstanceAs (Decidable (h.kind (.ref c) ≠ .scalar ∧
      kind = some (h.kind (.ref c)) ∧ ∀ v ∈ (h.contents c).values, v.handle? = none))
  | some (.scalar _) => inferInstanceAs (Decidable True)
  | none => inferInstanceAs (Decidable True)

namespace Binding

variable {σ : Type}

def Current (b : Binding σ) (h h' : Heap) : Prop :=
  ∀ body ∈ b.value.expressions, Evaluator.sameOutcome (Evaluator.evaluatePath h b.scope body)
    (Evaluator.evaluatePath h' b.scope body) = true

def Announced (b : Binding σ) (s : Store) (k : ChannelId) : Prop :=
  ∃ n : Notification, .change n ∈ (s.channel k).queue ∧ n.watch ∈ b.watches

theorem Announced.mono {b : Binding σ} {s t : Store} {k : ChannelId} (h : b.Announced s k)
    (hs : Store.Sends k s t) (hopen : (t.channel k).isOpen = true) : b.Announced t k := by
  obtain ⟨n, hn, hw⟩ := h
  exact ⟨n, hs.mem_queue hn hopen, hw⟩

theorem current_self (b : Binding σ) (h : Heap)
    (hread : ∀ body ∈ b.value.expressions, ∃ path, Path.read body = .ok path) :
    b.Current h h := by
  intro body hbody
  obtain ⟨path, hpath⟩ := hread body hbody
  exact Evaluator.sameOutcome_evaluatePath hpath (Value.sameOption_refl _) fun _ _ => rfl

end Binding

namespace Registry

variable {r : Registry} {s : Store}

theorem Tracks.idOf?_eq (T : r.Tracks s) {w : WatchId} {key : TargetKey}
    (h : r.keyOf? w = some key) : r.idOf? key = some w :=
  (T.indexed key w).2 (Option.map_eq_some_iff.1 h)

theorem Tracks.exists_observation (T : r.Tracks s) {w : WatchId} {owner : Handle} {path : Path}
    (h : r.keyOf? w = some (.field owner path)) :
    ∃ id o p, s.observations.find? id = some o ∧ o.channel = r.channel ∧ o.watch = w ∧
      o.holder = some p ∧ p.root = owner ∧ p.path = path ∧ r.kind? s w = some o.kind := by
  obtain ⟨entry, hw, hkey⟩ := Option.map_eq_some_iff.1 h
  obtain ⟨o, ho, hk, hwatch, hobs⟩ := T.observed w entry hw
  have hkind : r.kind? s w = some o.kind := by rw [kind?_eq hw, ho, Option.map_some]
  rw [hkey] at hobs
  obtain ⟨p, hp, hroot, hpath⟩ := Observation.exists_holder_of_subject hobs
  exact ⟨entry.observation, o, p, ho, hk, hwatch, hp, hroot, hpath, hkind⟩

end Registry

namespace Store

theorem Sound.toJson_of_unmoved {s : Store} {h' : Heap} (S : s.Sound) {id : ObservationId}
    {o : Observation} {p : PathWatch} (ho : s.observations.find? id = some o)
    (hp : o.holder = some p) (U : o.Unmoved s.heap h') {c : Handle}
    (hl : s.heap.lookup? p.root p.path = some (.ref c))
    (hplain : s.heap.Plain (some o.kind) (some (.ref c))) :
    h'.toJson (.ref c) = s.heap.toJson (.ref c) := by
  obtain ⟨hscalar, hkind, hflat⟩ := hplain
  have hkind : o.kind = s.heap.kind (.ref c) := Option.some.inj hkind
  have hanchored := S.consistent.anchored id o ho p hp
  rw [Heap.contentOf?_congr _ _ (S.consistent.upToDate id o p ho hp).last, hl,
    Heap.contentOf?_ref, if_pos ⟨hkind ▸ hscalar, hkind.symm⟩] at hanchored
  obtain ⟨sub, hsub, hc⟩ := Option.map_eq_some_iff.1 hanchored
  have hsame := U.content sub hsub
  rw [hc] at hsame
  exact Heap.toJson_congr hsame hflat

end Store

namespace Scheduler

variable {σ : Type}

/-- Every bound path leads to something plain, under the kind that the registry has for it. -/
def Tame (d : Scheduler σ) (s : Store) : Prop :=
  ∀ id b, d.bindings.find? id = some b → ∀ body ∈ b.value.expressions, ∀ path,
    Path.read body = .ok path →
      s.heap.Plain ((d.registry.idOf? (.field b.scope path)).bind (d.registry.kind? s))
        (s.heap.lookup? b.scope path)

def leadsPlain (d : Scheduler σ) (s : Store) (scope : Handle) (body : String) : Bool :=
  match Path.read body with
  | .ok path => decide (s.heap.Plain ((d.registry.idOf? (.field scope path)).bind
      (d.registry.kind? s)) (s.heap.lookup? scope path))
  | .error _ => true

theorem tame_iff {d : Scheduler σ} {s : Store} : d.Tame s ↔ ∀ e ∈ d.bindings.toList,
    ∀ body ∈ e.2.value.expressions, d.leadsPlain s e.2.scope body = true := by
  constructor
  · intro htame e he body hbody
    rw [leadsPlain]
    cases hp : Path.read body with
    | error e => rfl
    | ok path =>
      exact decide_eq_true (htame e.1 e.2 (Dict.mem_toList.1 he) body hbody path hp)
  · intro hall id b hb body hbody path hp
    have hplain := hall (id, b) (Dict.mem_toList.2 hb) body hbody
    rw [leadsPlain, hp] at hplain
    exact of_decide_eq_true hplain

instance (d : Scheduler σ) (s : Store) : Decidable (d.Tame s) := decidable_of_iff' _ tame_iff

structure Listening (d : Scheduler σ) (s : Store) : Prop where
  tracks : d.registry.Tracks s
  booked : d.Booked
  evaluator : d.evaluator = Evaluator.paths
  channel : d.registry.channel = d.channel
  isOpen : (s.channel d.channel).isOpen = true

variable {d : Scheduler σ} {s t : Store}

theorem Listening.step (L : d.Listening s) (h : Store.Step s t) (hc : t.heap.Closed) :
    d.Listening t where
  tracks := L.tracks.step h hc
  booked := L.booked
  evaluator := L.evaluator
  channel := L.channel
  isOpen := (h.sends d.channel).isOpen.trans L.isOpen

theorem Listening.exists_watch (L : d.Listening s) {id : BindingId} {b : Binding σ}
    (hb : d.bindings.find? id = some b) {body : String} (hbody : body ∈ b.value.expressions) :
    ∃ w ∈ b.watches, ∃ path, Path.read body = .ok path ∧
      d.registry.keyOf? w = some (.field b.scope path) := by
  have hnamed := L.booked.named id b hb
  have hdep : Text.trim body ∈ d.dependencies b.value := by
    rw [dependencies, L.evaluator]
    exact List.mem_flatMap.2 ⟨body, hbody, List.mem_singleton.2 rfl⟩
  obtain ⟨w, hw, path, hread, hkey⟩ := exists_left_of_forall₂ hnamed hdep
  exact ⟨w, hw, path, Path.read_trim.1 hread, hkey⟩

theorem Listening.current_step (L : d.Listening s) (htame : d.Tame s) (h : Store.Step s t)
    {id : BindingId} {b : Binding σ} (hb : d.bindings.find? id = some b) {seen : Heap}
    (hcur : b.Announced s d.channel ∨ b.Current seen s.heap) :
    b.Announced t d.channel ∨ b.Current seen t.heap := by
  have hsends := h.sends d.channel
  have hopen : (t.channel d.channel).isOpen = true := hsends.isOpen.trans L.isOpen
  by_cases hann : b.Announced t d.channel
  · exact .inl hann
  right
  rcases hcur with hcur | hcur
  · exact absurd (hcur.mono hsends hopen) hann
  intro body hbody
  refine Evaluator.sameOutcome_trans (hcur body hbody) ?_
  obtain ⟨w, hw, path, hread, hkey⟩ := L.exists_watch hb hbody
  obtain ⟨j, o, p, ho, hk, hwatch, hp, hroot, hpath, hkind⟩ := L.tracks.exists_observation hkey
  have S := L.tracks.sound
  have U : o.Unmoved s.heap t.heap := by
    refine ((h.upkeep S).unmoved j o ho).resolve_right fun hsaid => hann ?_
    rw [hk, L.channel] at hsaid
    obtain ⟨n, hn, hm⟩ := hsaid hopen
    exact ⟨n, hm, by rwa [hn, hwatch]⟩
  have hvalue := U.value p hp
  have hplain := htame id b hb body hbody path hread
  rw [L.tracks.idOf?_eq hkey, Option.bind_some, hkind] at hplain
  rw [← hroot, ← hpath] at hplain
  rw [hroot, hpath] at hvalue
  refine Evaluator.sameOutcome_evaluatePath hread hvalue fun c hl => ?_
  rw [← hroot, ← hpath] at hl
  rw [hl] at hplain
  exact S.toJson_of_unmoved ho hp U hl hplain

theorem Listening.run {α : Type} (L : d.Listening s) (htame : d.Tame s) (a : Action α)
    (hm : ∀ t ∈ a.moments s, t.heap.Closed ∧ d.Tame t) :
    (d.Listening (a.run s).2 ∧ d.Tame (a.run s).2) ∧
      ∀ id b seen, d.bindings.find? id = some b →
        b.Announced s d.channel ∨ b.Current seen s.heap →
        b.Announced (a.run s).2 d.channel ∨ b.Current seen (a.run s).2.heap := by
  have hrun := a.run_induction
    (P := fun t => d.Listening t ∧ ∀ id b seen, d.bindings.find? id = some b →
      b.Announced s d.channel ∨ b.Current seen s.heap →
      b.Announced t d.channel ∨ b.Current seen t.heap)
    (Q := fun t => t.heap.Closed ∧ d.Tame t) ?_ s ⟨L.tracks.sound.closed, htame⟩ hm
    ⟨L, fun _ _ _ _ h => h⟩
  · exact ⟨⟨hrun.1.1, hrun.2.2⟩, hrun.1.2⟩
  · rintro t u hstep ⟨-, ht⟩ ⟨hc, -⟩ ⟨Lt, hcur⟩
    exact ⟨Lt.step hstep hc, fun id b seen hb h =>
      Lt.current_step ht hstep hb (hcur id b seen hb h)⟩

theorem Listening.refresh (L : d.Listening s) (htame : d.Tame s) {b : Binding σ}
    (hm : ∀ t ∈ turnMoments d.evaluator b s, t.heap.Closed ∧ d.Tame t) :
    (d.Listening (refresh d.evaluator b s).2 ∧ d.Tame (refresh d.evaluator b s).2) ∧
      ∀ id b' seen, d.bindings.find? id = some b' →
        b'.Announced s d.channel ∨ b'.Current seen s.heap →
        b'.Announced (refresh d.evaluator b s).2 d.channel ∨
          b'.Current seen (refresh d.evaluator b s).2.heap := by
  rw [turnMoments] at hm
  rw [Scheduler.refresh]
  cases hv : b.value.evaluate (d.evaluator.evaluate s.heap b.scope) with
  | error e => exact ⟨⟨L, htame⟩, fun _ _ _ _ h => h⟩
  | ok value =>
    rw [hv] at hm
    exact L.run htame (b.target.receive value b.target.memory) hm

theorem Listening.refreshAll (L : d.Listening s) (htame : d.Tame s)
    {bindings : List (BindingId × Binding σ)}
    (hbound : ∀ e ∈ bindings, d.bindings.find? e.1 = some e.2)
    (hm : ∀ t ∈ turnsMoments d.evaluator bindings s, t.heap.Closed ∧ d.Tame t) :
    d.Listening (refreshAll d.evaluator bindings s).2 ∧
      (∀ id b seen, d.bindings.find? id = some b →
        b.Announced s d.channel ∨ b.Current seen s.heap →
        b.Announced (refreshAll d.evaluator bindings s).2 d.channel ∨
          b.Current seen (refreshAll d.evaluator bindings s).2.heap) ∧
      ∀ t ∈ turns d.evaluator bindings s,
        t.binding.Announced (refreshAll d.evaluator bindings s).2 d.channel ∨
          t.binding.Current t.before.heap (refreshAll d.evaluator bindings s).2.heap := by
  induction bindings generalizing s with
  | nil => exact ⟨L, fun _ _ _ _ h => h, fun _ ht => nomatch ht⟩
  | cons e rest ih =>
    obtain ⟨id, b⟩ := e
    simp only [turnsMoments, List.forall_mem_append] at hm
    rw [List.forall_mem_cons] at hbound
    obtain ⟨⟨L₁, htame₁⟩, hstay⟩ := L.refresh htame hm.1
    obtain ⟨L₂, hrest, hturns⟩ := ih L₁ htame₁ hbound.2 hm.2
    obtain ⟨t, -, htb, hts, hta, hcons⟩ := turns_cons d.evaluator id b rest s
    refine ⟨L₂, fun id b seen hb h => hrest id b seen hb (hstay id b seen hb h), ?_⟩
    rw [hcons, hta, List.forall_mem_cons]
    refine ⟨?_, hturns⟩
    rw [htb, hts]
    refine hrest id b s.heap hbound.1 (hstay id b s.heap hbound.1 (.inr (b.current_self s.heap ?_)))
    intro body hbody
    obtain ⟨-, -, path, hread, -⟩ := L.exists_watch hbound.1 hbody
    exact ⟨path, hread⟩

end Scheduler

end ReactivePage
