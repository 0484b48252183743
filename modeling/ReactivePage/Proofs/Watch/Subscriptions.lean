import ReactivePage.Watch.Dispatch
import ReactivePage.Proofs.Model.Closed

namespace ReactivePage

section Forall₂

variable {α β : Type} {R : α → β → Prop} {as : List α} {bs : List β}

theorem exists_right_of_forall₂ (h : List.Forall₂ R as bs) {a : α} (ha : a ∈ as) :
    ∃ b ∈ bs, R a b := by
  induction h with
  | nil => cases ha
  | cons hab _ ih =>
    cases ha with
    | head => exact ⟨_, List.mem_cons_self, hab⟩
    | tail _ ha =>
      obtain ⟨b, hb, hr⟩ := ih ha
      exact ⟨b, List.mem_cons_of_mem _ hb, hr⟩

theorem exists_left_of_forall₂ (h : List.Forall₂ R as bs) {b : β} (hb : b ∈ bs) :
    ∃ a ∈ as, R a b :=
  exists_right_of_forall₂ h.flip hb

theorem forall₂_comp {γ : Type} {S : β → γ → Prop} {cs : List γ} (h : List.Forall₂ R as bs)
    (h' : List.Forall₂ S bs cs) : List.Forall₂ (Relation.Comp R S) as cs := by
  induction h generalizing cs with
  | nil =>
    cases h'
    exact .nil
  | @cons a b _ _ hab _ ih =>
    cases h' with
    | cons hbc hrest => exact .cons ⟨b, hab, hbc⟩ (ih hrest)

end Forall₂

def Observer.observation : Observer → ObservationId
  | link o _ => o
  | content o => o

namespace Store

def observer? (s : Store) (sub : Subscription) : Option Observer :=
  (s.observersOf sub.container).entries.find? sub.id

def nextSubscription (s : Store) (c : Handle) : Nat := (s.observersOf c).nextId

theorem observersOf_setObservers (s : Store) (c d : Handle) (l : ObserverList Observer) :
    (s.setObservers c l).observersOf d = if d = c then l else s.observersOf d := by
  rw [observersOf, setObservers, Dict.find?_insert_eq_ite]
  by_cases hd : d = c
  · rw [if_pos hd, if_pos hd, Option.getD_some]
  · rw [if_neg hd, if_neg hd, observersOf]

theorem lt_of_observer? {s : Store} {sub : Subscription} {o : Observer}
    (h : s.observer? sub = some o) : sub.id < s.nextSubscription sub.container :=
  (s.observersOf sub.container).bound (sub.id, o) (Dict.mem_toList.2 h)

theorem observer?_subscribe (s : Store) (c : Handle) (o : Observer) (sub : Subscription) :
    (s.subscribe c o).2.observer? sub
      = if sub = (s.subscribe c o).1 then some o else s.observer? sub := by
  obtain ⟨d, n⟩ := sub
  simp only [observer?, subscribe, observersOf_setObservers, ObserverList.subscribe,
    Subscription.mk.injEq]
  by_cases hd : d = c
  · subst hd
    simp only [if_true, true_and, Dict.find?_insert_eq_ite]
  · simp only [hd, if_false, false_and]

theorem nextSubscription_subscribe (s : Store) (c d : Handle) (o : Observer) :
    (s.subscribe c o).2.nextSubscription d
      = if d = c then s.nextSubscription c + 1 else s.nextSubscription d := by
  simp only [nextSubscription, subscribe, observersOf_setObservers, ObserverList.subscribe]
  by_cases hd : d = c <;> simp [hd]

theorem observer?_unsubscribe (s : Store) (old sub : Subscription) :
    (s.unsubscribe old).observer? sub = if sub = old then none else s.observer? sub := by
  obtain ⟨d, n⟩ := sub
  obtain ⟨c, m⟩ := old
  simp only [observer?, unsubscribe, observersOf_setObservers, ObserverList.close,
    Subscription.mk.injEq]
  by_cases hd : d = c
  · subst hd
    simp only [if_true, true_and, Dict.find?_erase_eq_ite]
  · simp only [hd, if_false, false_and]

theorem nextSubscription_unsubscribe (s : Store) (old : Subscription) (d : Handle) :
    (s.unsubscribe old).nextSubscription d = s.nextSubscription d := by
  simp only [nextSubscription, unsubscribe, observersOf_setObservers, ObserverList.close]
  by_cases hd : d = old.container <;> simp [hd]

def Attached (s : Store) (subs : List Subscription) (hooks : List (Handle × Observer)) : Prop :=
  List.Forall₂ (fun sub hook => sub.container = hook.1 ∧ s.observer? sub = some hook.2) subs hooks

namespace Attached

variable {s s' : Store} {subs : List Subscription} {hooks : List (Handle × Observer)}

theorem congr (A : s.Attached subs hooks)
    (h : ∀ sub ∈ subs, s'.observer? sub = s.observer? sub) : s'.Attached subs hooks := by
  induction A with
  | nil => exact .nil
  | cons hsub _ ih =>
    rw [List.forall_mem_cons] at h
    exact .cons ⟨hsub.1, h.1.trans hsub.2⟩ (ih h.2)

theorem append {subs' : List Subscription} {hooks' : List (Handle × Observer)}
    (A : s.Attached subs hooks) (B : s.Attached subs' hooks') :
    s.Attached (subs ++ subs') (hooks ++ hooks') := by
  induction A with
  | nil => exact B
  | cons hsub _ ih => exact .cons hsub ih

theorem exists_hook (A : s.Attached subs hooks) {sub : Subscription} (h : sub ∈ subs) :
    ∃ hook ∈ hooks, sub.container = hook.1 ∧ s.observer? sub = some hook.2 :=
  exists_right_of_forall₂ A h

theorem exists_subscription (A : s.Attached subs hooks) {hook : Handle × Observer}
    (h : hook ∈ hooks) : ∃ sub ∈ subs, sub.container = hook.1 ∧ s.observer? sub = some hook.2 :=
  exists_left_of_forall₂ A h

theorem map_container (A : s.Attached subs hooks) :
    subs.map (·.container) = hooks.map (·.1) := by
  induction A with
  | nil => rfl
  | cons hsub _ ih => rw [List.map_cons, List.map_cons, hsub.1, ih]

theorem nodup (A : s.Attached subs hooks) (h : (hooks.map (·.2)).Nodup) : subs.Nodup := by
  induction A with
  | nil => exact List.nodup_nil
  | cons hsub A ih =>
    rw [List.map_cons, List.nodup_cons] at h
    refine List.nodup_cons.2 ⟨fun hm => h.1 ?_, ih h.2⟩
    obtain ⟨hook, hmem, hs⟩ := exists_hook A hm
    rw [Option.some.inj (hsub.2.symm.trans hs.2)]
    exact List.mem_map_of_mem hmem

end Attached

/-- The subscriptions `old` have ended, `new` have begun and serve as `hooks` say, and nothing but
observers has changed. -/
structure Rewired (s s' : Store) (old new : List Subscription)
    (hooks : List (Handle × Observer)) : Prop where
  only : s' = { s with observers := s'.observers }
  later : ∀ c, s.nextSubscription c ≤ s'.nextSubscription c
  fresh : ∀ sub ∈ new, s.nextSubscription sub.container ≤ sub.id
  attached : s'.Attached new hooks
  kept : ∀ sub, sub ∉ new → s'.observer? sub = if sub ∈ old then none else s.observer? sub

namespace Rewired

variable {s s₁ s₂ : Store} {old old₁ old₂ new new₁ new₂ : List Subscription}
  {hooks hooks₁ hooks₂ : List (Handle × Observer)}

theorem heap (R : Rewired s s₁ old new hooks) : s₁.heap = s.heap := by rw [R.only]

theorem observations (R : Rewired s s₁ old new hooks) : s₁.observations = s.observations := by
  rw [R.only]

theorem nextObservation (R : Rewired s s₁ old new hooks) :
    s₁.nextObservation = s.nextObservation := by
  rw [R.only]

theorem channels (R : Rewired s s₁ old new hooks) : s₁.channels = s.channels := by rw [R.only]

theorem refl (s : Store) : Rewired s s [] [] [] where
  only := rfl
  later := fun _ => Nat.le_refl _
  fresh := by simp
  attached := .nil
  kept := by simp

theorem trans (R : Rewired s s₁ old₁ new₁ hooks₁) (T : Rewired s₁ s₂ old₂ new₂ hooks₂)
    (hdis : ∀ sub ∈ old₂, sub ∉ new₁) :
    Rewired s s₂ (old₁ ++ old₂) (new₁ ++ new₂) (hooks₁ ++ hooks₂) where
  only := by rw [T.only, R.only]
  later := fun c => Nat.le_trans (R.later c) (T.later c)
  fresh := by
    intro sub hm
    rcases List.mem_append.1 hm with hm | hm
    · exact R.fresh sub hm
    · exact Nat.le_trans (R.later _) (T.fresh sub hm)
  attached := by
    refine (R.attached.congr fun sub hm => ?_).append T.attached
    have hnew : sub ∉ new₂ := by
      intro hm₂
      obtain ⟨hook, -, -, ho⟩ := R.attached.exists_hook hm
      exact Nat.not_le_of_lt (lt_of_observer? ho) (T.fresh sub hm₂)
    rw [T.kept sub hnew, if_neg fun h => hdis sub h hm]
  kept := by
    intro sub hn
    simp only [List.mem_append, not_or] at hn ⊢
    rw [T.kept sub hn.2, R.kept sub hn.1]
    by_cases h₂ : sub ∈ old₂ <;> by_cases h₁ : sub ∈ old₁ <;> simp [h₁, h₂]

theorem subscribe (s : Store) (c : Handle) (o : Observer) :
    Rewired s (s.subscribe c o).2 [] [(s.subscribe c o).1] [(c, o)] where
  only := rfl
  later := by
    intro d
    rw [nextSubscription_subscribe]
    split
    · next hd => exact hd ▸ Nat.le_succ _
    · exact Nat.le_refl _
  fresh := by
    intro sub hm
    cases List.mem_singleton.1 hm
    exact Nat.le_refl _
  attached := by
    refine .cons ⟨rfl, ?_⟩ .nil
    rw [observer?_subscribe, if_pos rfl]
  kept := by
    intro sub hn
    rw [observer?_subscribe, if_neg (List.ne_of_not_mem_cons hn)]
    simp

theorem unsubscribe (s : Store) (sub : Subscription) :
    Rewired s (s.unsubscribe sub) [sub] [] [] where
  only := rfl
  later := fun d => Nat.le_of_eq (nextSubscription_unsubscribe s sub d).symm
  fresh := by simp
  attached := .nil
  kept := by
    intro old _
    rw [observer?_unsubscribe]
    simp

theorem unsubscribeAll (s : Store) (subs : List Subscription) :
    Rewired s (s.unsubscribeAll subs) subs [] [] := by
  induction subs generalizing s with
  | nil => exact refl s
  | cons sub rest ih => exact (unsubscribe s sub).trans (ih _) (by simp)

end Rewired

end Store

def Heap.linkPlan (h : Heap) (id : ObservationId) : Nat → List Handle → List Step →
    List (Handle × Observer)
  | i, c :: chain, step :: steps =>
    if h.accepts c step then (c, .link id i) :: h.linkPlan id (i + 1) chain steps
    else h.linkPlan id (i + 1) chain steps
  | _, _, _ => []

def Heap.contentOf? (h : Heap) (kind : Kind) (v : Option Value) : Option Handle :=
  match v with
  | some (.ref c) => if kind ≠ .scalar ∧ h.kind (.ref c) = kind then some c else none
  | _ => none

theorem Heap.mem_linkPlan {h : Heap} {id : ObservationId} {i : Nat} {chain : List Handle}
    {steps : List Step} {hook : Handle × Observer} :
    hook ∈ h.linkPlan id i chain steps ↔
      ∃ k c step, chain[k]? = some c ∧ steps[k]? = some step ∧ h.accepts c step = true ∧
        hook = (c, .link id (i + k)) := by
  induction chain generalizing i steps with
  | nil => simp [linkPlan]
  | cons c chain ih =>
    cases steps with
    | nil => simp [linkPlan]
    | cons step steps =>
      have hrest : hook ∈ h.linkPlan id (i + 1) chain steps ↔
          ∃ k d t, (c :: chain)[k + 1]? = some d ∧ (step :: steps)[k + 1]? = some t ∧
            h.accepts d t = true ∧ hook = (d, .link id (i + (k + 1))) := by
        simp only [ih, List.getElem?_cons_succ, Nat.add_assoc, Nat.add_comm 1]
      have hhead : (∃ k d t, (c :: chain)[k]? = some d ∧ (step :: steps)[k]? = some t ∧
            h.accepts d t = true ∧ hook = (d, .link id (i + k))) ↔
          (h.accepts c step = true ∧ hook = (c, .link id i)) ∨
            hook ∈ h.linkPlan id (i + 1) chain steps := by
        rw [hrest]
        constructor
        · rintro ⟨k, d, t, hd, ht, ha, rfl⟩
          cases k with
          | zero =>
            cases hd
            cases ht
            exact .inl ⟨ha, rfl⟩
          | succ k => exact .inr ⟨k, d, t, hd, ht, ha, rfl⟩
        · rintro (⟨ha, rfl⟩ | ⟨k, d, t, hd, ht, ha, rfl⟩)
          · exact ⟨0, c, step, rfl, rfl, ha, rfl⟩
          · exact ⟨k + 1, d, t, hd, ht, ha, rfl⟩
      rw [hhead, linkPlan]
      split
      · next ha => simp [ha]
      · next ha => simp [ha]

theorem Heap.nodup_linkPlan (h : Heap) (id : ObservationId) (i : Nat) (chain : List Handle)
    (steps : List Step) : ((h.linkPlan id i chain steps).map (·.2)).Nodup := by
  induction chain generalizing i steps with
  | nil => simp [linkPlan]
  | cons c chain ih =>
    cases steps with
    | nil => simp [linkPlan]
    | cons step steps =>
      rw [linkPlan]
      split
      · refine List.nodup_cons.2 ⟨fun hm => ?_, ih (i + 1) steps⟩
        obtain ⟨hook, hmem, heq⟩ := List.mem_map.1 hm
        obtain ⟨k, d, t, -, -, -, rfl⟩ := mem_linkPlan.1 hmem
        simp only [Observer.link.injEq, true_and] at heq
        omega
      · exact ih (i + 1) steps

namespace Store

theorem Rewired.linkAll (s : Store) (id : ObservationId) (i : Nat) (chain : List Handle)
    (steps : List Step) :
    Rewired s (s.linkAll id i chain steps).2 [] (s.linkAll id i chain steps).1
      (s.heap.linkPlan id i chain steps) := by
  induction chain generalizing s i steps with
  | nil => exact refl s
  | cons c chain ih =>
    cases steps with
    | nil => exact refl s
    | cons step steps =>
      simp only [Store.linkAll, Heap.linkPlan]
      by_cases ha : s.accepts c step = true
      · rw [if_pos ha, if_pos (show s.heap.accepts c step = true from ha)]
        exact (Rewired.subscribe s c (.link id i)).trans (ih _ _ _) (by simp)
      · rw [if_neg ha, if_neg (show ¬ s.heap.accepts c step = true from ha)]
        exact ih s (i + 1) steps

theorem Rewired.subscribeContent (s : Store) (id : ObservationId) (kind : Kind)
    (v : Option Value) :
    Rewired s (s.subscribeContent id kind v).2 [] (s.subscribeContent id kind v).1.toList
      ((s.heap.contentOf? kind v).toList.map (·, .content id)) := by
  cases v with
  | none => exact refl s
  | some v =>
    cases v with
    | scalar j => exact refl s
    | ref c =>
      simp only [Store.subscribeContent, Heap.contentOf?]
      split
      · exact Rewired.subscribe s c (.content id)
      · exact refl s

theorem container_subscribeContent (s : Store) (id : ObservationId) (kind : Kind)
    (v : Option Value) :
    (s.subscribeContent id kind v).1.map (·.container) = s.heap.contentOf? kind v := by
  cases v with
  | none => rfl
  | some v =>
    cases v with
    | scalar j => rfl
    | ref c =>
      simp only [Store.subscribeContent, Heap.contentOf?]
      split <;> rfl

end Store

end ReactivePage
