import ReactivePage.Proofs.Watch.Writing

namespace ReactivePage

namespace Observation

def Rooted (o : Observation) (n : Handle) : Prop :=
  match o.subject with
  | .inl (root, _) => root < n
  | .inr content => ∀ sub, content = some sub → sub.container < n

theorem Rooted.congr {o o' : Observation} {n : Handle} (h : o.Rooted n)
    (hs : o'.subject = o.subject) : o'.Rooted n := by
  rw [Rooted, hs]
  exact h

theorem Rooted.mono {o : Observation} {m n : Handle} (h : o.Rooted m) (hle : m ≤ n) :
    o.Rooted n := by
  rw [Rooted] at h ⊢
  split at h
  · exact Nat.lt_of_lt_of_le h hle
  · intro sub hsub
    exact Nat.lt_of_lt_of_le (h sub hsub) hle

theorem Rooted.root_lt {o : Observation} {n : Handle} (h : o.Rooted n) {p : PathWatch}
    (hp : o.holder = some p) : p.root < n := by
  simpa only [Rooted, subject, hp] using h

end Observation

namespace Store

structure Sound (s : Store) : Prop where
  consistent : s.Consistent
  closed : s.heap.Closed
  rooted : ∀ id o, s.observations.find? id = some o → o.Rooted s.heap.next

theorem sound_empty : empty.Sound where
  consistent := consistent_empty
  closed := Heap.closed_empty
  rooted := by
    intro id o ho
    cases ho

namespace Sound

variable {s : Store} {id : ObservationId} {o : Observation}

theorem chain_lt (S : s.Sound) (ho : s.observations.find? id = some o) {p : PathWatch}
    (hp : o.holder = some p) : ∀ c ∈ p.chain, c < s.heap.next := by
  rw [(S.consistent.upToDate id o p ho hp).chain]
  exact S.closed.lt_of_mem_chain ((S.rooted id o ho).root_lt hp) p.path

theorem last_within (S : s.Sound) (ho : s.observations.find? id = some o) {p : PathWatch}
    (hp : o.holder = some p) {c : Handle} (hl : p.last = some (.ref c)) : c < s.heap.next := by
  have hs := Value.sameOption_symm (S.consistent.upToDate id o p ho hp).last
  rw [hl] at hs
  exact S.closed.within_lookup? ((S.rooted id o ho).root_lt hp) (Value.eq_of_sameOption_ref hs)

theorem container_lt (S : s.Sound) (ho : s.observations.find? id = some o) {sub : Subscription}
    (hs : o.content = some sub) : sub.container < s.heap.next := by
  cases hp : o.holder with
  | none =>
    have hr := S.rooted id o ho
    simp only [Observation.Rooted, Observation.subject, hp] at hr
    exact hr sub hs
  | some p =>
    have ha := S.consistent.anchored id o ho p hp
    rw [hs] at ha
    exact S.last_within ho hp (Heap.eq_ref_of_contentOf? ha.symm)

end Sound

theorem Sound.grow {s : Store} {h : Heap} (S : s.Sound) (E : Heap.Extends s.heap h) :
    Upkeep s { s with heap := h } where
  consistent := by
    refine ⟨⟨?_, S.consistent.wired.served⟩, ?_, ?_⟩
    · intro id o ho
      have hhooks : o.hooks h id = o.hooks s.heap id := by
        rw [Observation.hooks, Observation.hooks, Observation.linkHooks, Observation.linkHooks]
        cases hp : o.holder with
        | none => rfl
        | some p =>
          have haccepts : ∀ c ∈ p.chain, ∀ step, h.accepts c step = s.heap.accepts c step := by
            intro c hc step
            simp only [Heap.accepts, E.isKeyed (S.chain_lt ho hp c hc)]
          simp only [Option.map_some, Option.getD_some, Heap.linkPlan_congr haccepts]
      rw [hhooks]
      exact S.consistent.wired.attached id o ho
    · intro id o p ho hp
      have U := S.consistent.upToDate id o p ho hp
      have hroot := (S.rooted id o ho).root_lt hp
      constructor
      · exact U.chain.trans (S.closed.chain_extends E hroot p.path).symm
      · rw [S.closed.lookup?_extends E hroot]
        exact U.last
    · intro id o ho p hp
      refine (S.consistent.anchored id o ho p hp).trans ?_
      cases hl : p.last with
      | none => rfl
      | some v =>
        cases v with
        | scalar j => rfl
        | ref c =>
          have hwithin : (Value.ref c).Within s.heap.next := S.last_within ho hp hl
          rw [Heap.contentOf?_ref, Heap.contentOf?_ref, E.kind_value hwithin]
  retains := ⟨rfl, fun _ o ho => ⟨o, ho⟩, fun _ o ho => ⟨o, ho, .refl o⟩⟩
  unmoved := by
    intro id o ho
    left
    constructor
    · intro p hp
      rw [S.closed.lookup?_extends E ((S.rooted id o ho).root_lt hp)]
      exact Value.sameOption_refl _
    · intro sub hs
      exact E.contents sub.container (S.container_lt ho hs)

theorem Consistent.aside {s t : Store} (C : s.Consistent) (hheap : t.heap = s.heap)
    (hobs : t.observers = s.observers) (hrec : t.observations = s.observations)
    (hnext : t.nextObservation = s.nextObservation) : Upkeep s t where
  consistent := by
    refine ⟨C.wired.congr hheap hobs hrec, ?_, ?_⟩
    · rw [hheap, hrec]
      exact C.upToDate
    · rw [hheap, hrec]
      exact C.anchored
  retains := by
    refine ⟨hnext, ?_, ?_⟩
    · intro id o ho
      rw [hrec] at ho
      exact ⟨o, ho⟩
    · intro id o ho
      rw [hrec]
      exact ⟨o, ho, .refl o⟩
  unmoved := by
    intro id o _
    rw [hheap]
    exact .inl (.refl o s.heap)

theorem Sound.aside {s t : Store} (S : s.Sound) (hheap : t.heap = s.heap)
    (hobs : t.observers = s.observers) (hrec : t.observations = s.observations)
    (hnext : t.nextObservation = s.nextObservation) : t.Sound where
  consistent := (S.consistent.aside hheap hobs hrec hnext).consistent
  closed := by
    rw [hheap]
    exact S.closed
  rooted := by
    rw [hheap, hrec]
    exact S.rooted

inductive Step : Store → Store → Prop
  | grow {s : Store} {h : Heap} : Heap.Extends s.heap h → Step s { s with heap := h }
  | write (s : Store) (w : Write) : Step s (s.write w)
  | wake (s : Store) (k : ChannelId) : Step s (s.send k .wake).2
  | render (s : Store) (rendered : List (String × Json)) : Step s { s with rendered }

namespace Step

variable {s t : Store}

theorem sends (h : Step s t) (k : ChannelId) : Sends k s t := by
  cases h with
  | grow E => exact .quiet rfl
  | write w => exact .write s w
  | wake j => exact .send s j .wake
  | render rendered => exact .quiet rfl

theorem upkeep (S : s.Sound) (h : Step s t) : Upkeep s t := by
  cases h with
  | grow E => exact S.grow E
  | write w => exact (S.consistent.write w).1
  | wake k => exact S.consistent.aside rfl rfl rfl rfl
  | render rendered => exact S.consistent.aside rfl rfl rfl rfl

theorem next_le (S : s.Sound) (h : Step s t) : s.heap.next ≤ t.heap.next := by
  cases h with
  | grow E => exact E.next
  | write w =>
    have hnext : (s.write w).heap.next = s.heap.next := by
      rw [(S.consistent.write w).2, Heap.next_write]
    exact Nat.le_of_eq hnext.symm
  | wake k => exact Nat.le_refl _
  | render rendered => exact Nat.le_refl _

theorem sound (S : s.Sound) (h : Step s t) (hc : t.heap.Closed) : t.Sound where
  consistent := (h.upkeep S).consistent
  closed := hc
  rooted := by
    intro id o ho
    have R := (h.upkeep S).retains
    obtain ⟨o₀, ho₀⟩ := R.known id o ho
    obtain ⟨o', ho', hcont⟩ := R.continues id o₀ ho₀
    cases ho.symm.trans ho'
    exact ((S.rooted id o₀ ho₀).congr hcont.subject).mono (h.next_le S)

end Step

end Store

end ReactivePage
