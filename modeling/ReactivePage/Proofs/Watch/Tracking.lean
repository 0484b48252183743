import ReactivePage.Proofs.Watch.Observing

namespace ReactivePage

theorem Dict.insert_erase {κ : Type} {α : Type} [Ord κ] [Std.TransOrd κ] [Std.LawfulEqOrd κ]
    [DecidableEq κ] (d : Dict κ α) (k : κ) (a : α) : (d.erase k).insert k a = d.insert k a := by
  apply Dict.ext_find?
  intro j
  simp only [Dict.find?_insert_eq_ite, Dict.find?_erase_eq_ite]
  split <;> rfl

namespace Registry

@[simp] theorem entries_insert (r : Registry) (w : WatchId) (entry : RegistryEntry) :
    (r.insert w entry).entries = r.entries.insert w entry := rfl

@[simp] theorem entries_erase (r : Registry) (w : WatchId) (key : TargetKey) :
    (r.erase w key).entries = r.entries.erase w := rfl

theorem find?_filter_ne (index : List (TargetKey × WatchId)) (key key' : TargetKey) :
    (index.filter (·.1 ≠ key)).find? (·.1 = key')
      = if key' = key then none else index.find? (·.1 = key') := by
  induction index with
  | nil => simp
  | cons e rest ih =>
    by_cases hk : e.1 = key
    · rw [List.filter_cons_of_neg (by simp [hk]), ih, List.find?_cons]
      by_cases h : key' = key
      · rw [if_pos h, if_pos h]
      · simp [h, hk, Ne.symm h]
    · rw [List.filter_cons_of_pos (by simp [hk]), List.find?_cons, List.find?_cons, ih]
      by_cases h : key' = key
      · subst h
        simp [hk]
      · simp [h]

theorem idOf?_insert (r : Registry) (w : WatchId) (entry : RegistryEntry) (key : TargetKey) :
    (r.insert w entry).idOf? key = if key = entry.key then some w else r.idOf? key := by
  rw [idOf?, insert, List.find?_cons, find?_filter_ne]
  by_cases h : key = entry.key
  · simp [h]
  · simp [h, Ne.symm h, idOf?]

theorem idOf?_erase (r : Registry) (w : WatchId) (key key' : TargetKey) :
    (r.erase w key).idOf? key' = if key' = key then none else r.idOf? key' := by
  rw [idOf?, erase, find?_filter_ne]
  split <;> rfl

structure Tracks (r : Registry) (s : Store) : Prop where
  sound : s.Sound
  below : ∀ w entry, r.entries.find? w = some entry → w < r.nextId
  held : ∀ w entry, r.entries.find? w = some entry → 0 < entry.holders
  distinct : ∀ w w' entry entry', r.entries.find? w = some entry →
    r.entries.find? w' = some entry' → entry.key = entry'.key → w = w'
  indexed : ∀ key w, r.idOf? key = some w ↔
    ∃ entry, r.entries.find? w = some entry ∧ entry.key = key
  observed : ∀ w entry, r.entries.find? w = some entry →
    ∃ o, s.observations.find? entry.observation = some o ∧ o.channel = r.channel ∧ o.watch = w ∧
      o.Observes entry.key
  owned : ∀ id o, s.observations.find? id = some o →
    ∃ entry, r.entries.find? o.watch = some entry ∧ entry.observation = id
  numbered : ∀ id o, s.observations.find? id = some o → id < s.nextObservation

namespace Tracks

variable {r : Registry} {s t : Store}

theorem empty {s : Store} (S : s.Sound) (h : ∀ id, s.observations.find? id = none)
    (k : ChannelId) : (Registry.empty k).Tracks s where
  sound := S
  below := by
    intro w entry hw
    cases hw
  held := by
    intro w entry hw
    cases hw
  distinct := by
    intro w w' entry entry' hw
    cases hw
  indexed := by
    intro key w
    constructor
    · rintro ⟨⟩
    · rintro ⟨entry, hw, -⟩
      cases hw
  observed := by
    intro w entry hw
    cases hw
  owned := by
    intro id o ho
    cases (h id).symm.trans ho
  numbered := by
    intro id o ho
    cases (h id).symm.trans ho

theorem unused (T : r.Tracks s) : s.observations.find? s.nextObservation = none := by
  cases ho : s.observations.find? s.nextObservation with
  | none => rfl
  | some o => exact absurd (T.numbered _ o ho) (Nat.lt_irrefl _)

theorem retains (T : r.Tracks s) (S : t.Sound) (R : Store.Retains s t) : r.Tracks t where
  sound := S
  below := T.below
  held := T.held
  distinct := T.distinct
  indexed := T.indexed
  observed := by
    intro w entry hw
    obtain ⟨o, ho, hk, hwatch, hobs⟩ := T.observed w entry hw
    obtain ⟨o', ho', hc⟩ := R.continues _ o ho
    exact ⟨o', ho', hc.channel.trans hk, hc.watch.trans hwatch, hobs.congr hc.subject⟩
  owned := by
    intro id o ho
    obtain ⟨o₀, ho₀⟩ := R.known id o ho
    obtain ⟨o', ho', hc⟩ := R.continues id o₀ ho₀
    cases ho.symm.trans ho'
    rw [hc.watch]
    exact T.owned id o₀ ho₀
  numbered := by
    intro id o ho
    obtain ⟨o₀, ho₀⟩ := R.known id o ho
    rw [R.nextObservation]
    exact T.numbered id o₀ ho₀

theorem close (T : r.Tracks s) {w : WatchId} {entry : RegistryEntry}
    (hw : r.entries.find? w = some entry) (E : Store.Ended s t entry.observation) :
    (r.erase w entry.key).Tracks t := by
  have hfind : ∀ w' entry', (r.entries.erase w).find? w' = some entry' →
      w' ≠ w ∧ r.entries.find? w' = some entry' := by
    intro w' entry' h
    rw [Dict.find?_erase_eq_ite] at h
    split at h
    · cases h
    · next hne => exact ⟨hne, h⟩
  have hrest : ∀ id o, t.observations.find? id = some o →
      id ≠ entry.observation ∧ s.observations.find? id = some o := by
    intro id o ho
    by_cases hid : id = entry.observation
    · rw [hid, E.gone] at ho
      cases ho
    · exact ⟨hid, (E.others id hid).symm.trans ho⟩
  constructor
  case sound => exact E.sound
  case below =>
    intro w' entry' h
    exact T.below w' entry' (hfind w' entry' h).2
  case held =>
    intro w' entry' h
    exact T.held w' entry' (hfind w' entry' h).2
  case distinct =>
    intro w₁ w₂ e₁ e₂ h₁ h₂
    exact T.distinct w₁ w₂ e₁ e₂ (hfind w₁ e₁ h₁).2 (hfind w₂ e₂ h₂).2
  case indexed =>
    intro key w'
    rw [idOf?_erase]
    by_cases hk : key = entry.key
    · rw [if_pos hk]
      constructor
      · rintro ⟨⟩
      · rintro ⟨entry', h, hk'⟩
        obtain ⟨hne, h⟩ := hfind w' entry' h
        exact absurd (T.distinct w' w entry' entry h hw (hk'.trans hk)) hne
    · rw [if_neg hk, T.indexed]
      constructor
      · rintro ⟨entry', h, rfl⟩
        refine ⟨entry', ?_, rfl⟩
        have hne : w' ≠ w := by
          rintro rfl
          cases hw.symm.trans h
          exact hk rfl
        exact (Dict.find?_erase_of_ne _ hne).trans h
      · rintro ⟨entry', h, hk'⟩
        exact ⟨entry', (hfind w' entry' h).2, hk'⟩
  case observed =>
    intro w' entry' h
    obtain ⟨hne, h⟩ := hfind w' entry' h
    obtain ⟨o, ho, hk, hwatch, hobs⟩ := T.observed w' entry' h
    refine ⟨o, (E.others _ fun heq => hne ?_).trans ho, hk, hwatch, hobs⟩
    obtain ⟨o', ho', -, hwatch', -⟩ := T.observed w entry hw
    rw [heq] at ho
    cases ho.symm.trans ho'
    exact hwatch.symm.trans hwatch'
  case owned =>
    intro id o ho
    obtain ⟨hne, ho⟩ := hrest id o ho
    obtain ⟨entry', h, hid⟩ := T.owned id o ho
    refine ⟨entry', ?_, hid⟩
    rw [entries_erase, Dict.find?_erase_of_ne _ fun heq => hne ?_]
    · exact h
    · rw [heq, hw] at h
      cases h
      exact hid.symm
  case numbered =>
    intro id o ho
    obtain ⟨-, ho⟩ := hrest id o ho
    rw [E.nextObservation]
    exact T.numbered id o ho

theorem begin (T : r.Tracks s) {w : WatchId} (entry : RegistryEntry) (nextId : WatchId)
    (hw : r.entries.find? w = none) (hlt : w < nextId) (hle : r.nextId ≤ nextId)
    (hkey : ∀ w' entry', r.entries.find? w' = some entry' → entry'.key ≠ entry.key)
    (hobservation : entry.observation = s.nextObservation) (hheld : 0 < entry.holders)
    (O : Store.Observed s t r.channel w entry.key) :
    ({ r.insert w entry with nextId } : Registry).Tracks t := by
  obtain ⟨o, ho, hk, hwatch, -, hobs⟩ := O.found
  have hfind : ∀ w', ({ r.insert w entry with nextId } : Registry).entries.find? w'
      = if w' = w then some entry else r.entries.find? w' :=
    fun w' => Dict.find?_insert_eq_ite r.entries w w' entry
  have hother : ∀ w' entry', r.entries.find? w' = some entry' → w' ≠ w := by
    rintro w' entry' h rfl
    cases hw.symm.trans h
  constructor
  case sound => exact O.sound
  case below =>
    intro w' entry' h
    rw [hfind] at h
    split at h
    · next heq => exact heq ▸ hlt
    · exact Nat.lt_of_lt_of_le (T.below w' entry' h) hle
  case held =>
    intro w' entry' h
    rw [hfind] at h
    split at h
    · cases h
      exact hheld
    · exact T.held w' entry' h
  case distinct =>
    intro w₁ w₂ e₁ e₂ h₁ h₂ heq
    rw [hfind] at h₁ h₂
    split at h₁ <;> split at h₂
    · next hw₁ hw₂ => exact hw₁.trans hw₂.symm
    · cases h₁
      exact absurd heq.symm (hkey w₂ e₂ h₂)
    · cases h₂
      exact absurd heq (hkey w₁ e₁ h₁)
    · exact T.distinct w₁ w₂ e₁ e₂ h₁ h₂ heq
  case indexed =>
    intro key w'
    have hid : ({ r.insert w entry with nextId } : Registry).idOf? key
        = if key = entry.key then some w else r.idOf? key := r.idOf?_insert w entry key
    rw [hid, hfind]
    by_cases hk : key = entry.key
    · subst hk
      by_cases hw' : w' = w
      · simp [hw']
      · simpa [hw', Ne.symm hw'] using hkey w'
    · by_cases hw' : w' = w
      · subst hw'
        simp [hk, Ne.symm hk, T.indexed, hw]
      · simp [hk, hw', T.indexed]
  case observed =>
    intro w' entry' h
    rw [hfind] at h
    split at h
    · next heq =>
      cases h
      rw [hobservation, heq]
      exact ⟨o, ho, hk, hwatch, hobs⟩
    · obtain ⟨o', ho', hk', hwatch', hobs'⟩ := T.observed w' entry' h
      have hne : entry'.observation ≠ s.nextObservation :=
        Nat.ne_of_lt (T.numbered _ o' ho')
      exact ⟨o', (O.others _ hne).trans ho', hk', hwatch', hobs'⟩
  case owned =>
    intro id o' ho'
    by_cases hid : id = s.nextObservation
    · rw [hid] at ho' ⊢
      cases ho.symm.trans ho'
      refine ⟨entry, ?_, hobservation⟩
      rw [hwatch, hfind, if_pos rfl]
    · rw [O.others id hid] at ho'
      obtain ⟨entry', h, hid'⟩ := T.owned id o' ho'
      refine ⟨entry', ?_, hid'⟩
      rw [hfind, if_neg (hother _ entry' h)]
      exact h
  case numbered =>
    intro id o' ho'
    rw [O.nextObservation]
    by_cases hid : id = s.nextObservation
    · exact hid ▸ Nat.lt_succ_self _
    · rw [O.others id hid] at ho'
      exact Nat.lt_succ_of_lt (T.numbered id o' ho')

theorem congr {r' : Registry} (T : r.Tracks s) (hchannel : r'.channel = r.channel)
    (hentries : r'.entries = r.entries) (hnext : r'.nextId = r.nextId)
    (hindex : ∀ key, r'.idOf? key = r.idOf? key) : r'.Tracks s where
  sound := T.sound
  below := by
    rw [hentries, hnext]
    exact T.below
  held := by
    rw [hentries]
    exact T.held
  distinct := by
    rw [hentries]
    exact T.distinct
  indexed := by
    simp only [hentries, hindex]
    exact T.indexed
  observed := by
    rw [hentries, hchannel]
    exact T.observed
  owned := by
    rw [hentries]
    exact T.owned
  numbered := T.numbered

theorem reholder (T : r.Tracks s) {w : WatchId} {entry : RegistryEntry}
    (hw : r.entries.find? w = some entry) {n : Nat} (hn : 0 < n) :
    ({ r with entries := r.entries.insert w { entry with holders := n } } : Registry).Tracks s := by
  have hfind : ∀ w' entry',
      (r.entries.insert w { entry with holders := n }).find? w' = some entry' →
      0 < entry'.holders ∧ ∃ entry₀, r.entries.find? w' = some entry₀ ∧ entry'.key = entry₀.key ∧
        entry'.observation = entry₀.observation := by
    intro w' entry' h
    rw [Dict.find?_insert_eq_ite] at h
    split at h
    · next heq =>
      cases h
      exact ⟨hn, entry, heq ▸ hw, rfl, rfl⟩
    · exact ⟨T.held w' entry' h, entry', h, rfl, rfl⟩
  constructor
  case sound => exact T.sound
  case below =>
    intro w' entry' h
    obtain ⟨-, entry₀, h₀, -⟩ := hfind w' entry' h
    exact T.below w' entry₀ h₀
  case held =>
    intro w' entry' h
    exact (hfind w' entry' h).1
  case distinct =>
    intro w₁ w₂ e₁ e₂ h₁ h₂ heq
    obtain ⟨-, e₁', h₁', hk₁, -⟩ := hfind w₁ e₁ h₁
    obtain ⟨-, e₂', h₂', hk₂, -⟩ := hfind w₂ e₂ h₂
    exact T.distinct w₁ w₂ e₁' e₂' h₁' h₂' (hk₁.symm.trans (heq.trans hk₂))
  case indexed =>
    intro key w'
    refine (T.indexed key w').trans ?_
    simp only [Dict.find?_insert_eq_ite]
    by_cases heq : w' = w
    · simp [heq, hw]
    · simp [heq]
  case observed =>
    intro w' entry' h
    obtain ⟨-, entry₀, h₀, hkey, hobs⟩ := hfind w' entry' h
    rw [hkey, hobs]
    exact T.observed w' entry₀ h₀
  case owned =>
    intro id o ho
    obtain ⟨entry', h, hid⟩ := T.owned id o ho
    by_cases heq : o.watch = w
    · rw [heq, hw] at h
      cases h
      refine ⟨{ entry with holders := n }, ?_, hid⟩
      rw [heq]
      exact Dict.find?_insert_self _ _ _
    · refine ⟨entry', ?_, hid⟩
      rw [Dict.find?_insert_of_ne _ heq]
      exact h
  case numbered => exact T.numbered

end Tracks

def holders (r : Registry) (w : WatchId) : Nat := ((r.entries.find? w).map (·.holders)).getD 0

theorem kind?_eq {r : Registry} {s : Store} {w : WatchId} {entry : RegistryEntry}
    (hw : r.entries.find? w = some entry) :
    r.kind? s w = (s.observations.find? entry.observation).map (·.kind) := by
  rw [kind?, hw]
  cases h : s.observations.find? entry.observation <;> simp [h]

theorem kind?_of_none {r : Registry} {s : Store} {w : WatchId} (hw : r.entries.find? w = none) :
    r.kind? s w = none := by
  rw [kind?, hw]
  rfl

structure Adjusted (r : Registry) (s : Store) (r' : Registry) (s' : Store) : Prop where
  tracks : r'.Tracks s'
  channel : r'.channel = r.channel
  heap : s'.heap = s.heap
  channels : s'.channels = s.channels

structure Watched (r : Registry) (s : Store) (key : TargetKey) (w : WatchId) (r' : Registry)
    (s' : Store) : Prop extends Adjusted r s r' s' where
  was : ∀ entry, r.entries.find? w = some entry → entry.key = key
  found : ∃ entry, r'.entries.find? w = some entry ∧ entry.key = key ∧
    entry.holders = r.holders w + 1
  kind : r'.kind? s' w = some (key.kind s.heap)
  others : ∀ w', w' ≠ w → r'.entries.find? w' = r.entries.find? w' ∧ r'.kind? s' w' = r.kind? s w'

theorem kind?_congr {r r' : Registry} {s s' : Store} {w : WatchId}
    (h : r'.entries.find? w = r.entries.find? w)
    (hobs : ∀ entry, r.entries.find? w = some entry →
      s'.observations.find? entry.observation = s.observations.find? entry.observation) :
    r'.kind? s' w = r.kind? s w := by
  cases hw : r.entries.find? w with
  | none => rw [kind?_of_none hw, kind?_of_none (h.trans hw)]
  | some entry => rw [kind?_eq hw, kind?_eq (h.trans hw), hobs entry hw]

variable {r : Registry} {s : Store}

theorem find?_of_entryOf? {key : TargetKey} {w : WatchId} {entry : RegistryEntry}
    (h : r.entryOf? key = some (w, entry)) :
    r.idOf? key = some w ∧ r.entries.find? w = some entry := by
  simpa [entryOf?, Option.bind_eq_some_iff] using h

theorem Tracks.key_of_entryOf? (T : r.Tracks s) {key : TargetKey} {w : WatchId}
    {entry : RegistryEntry} (h : r.entryOf? key = some (w, entry)) :
    r.entries.find? w = some entry ∧ entry.key = key := by
  obtain ⟨hid, hw⟩ := find?_of_entryOf? h
  obtain ⟨entry', hw', hk⟩ := (T.indexed key w).1 hid
  cases hw.symm.trans hw'
  exact ⟨hw, hk⟩

theorem Tracks.key_ne_of_entryOf? (T : r.Tracks s) {key : TargetKey}
    (h : r.entryOf? key = none) {w : WatchId} {entry : RegistryEntry}
    (hw : r.entries.find? w = some entry) : entry.key ≠ key := by
  intro hk
  have hid := (T.indexed key w).2 ⟨entry, hw, hk⟩
  simp [entryOf?, hid, hw] at h

theorem Tracks.observation_ne (T : r.Tracks s) {w w' : WatchId} {entry entry' : RegistryEntry}
    (hw : r.entries.find? w = some entry) (hw' : r.entries.find? w' = some entry') (hne : w' ≠ w) :
    entry'.observation ≠ entry.observation := by
  intro heq
  obtain ⟨o, ho, -, hwatch, -⟩ := T.observed w entry hw
  obtain ⟨o', ho', -, hwatch', -⟩ := T.observed w' entry' hw'
  rw [heq] at ho'
  cases ho.symm.trans ho'
  exact hne (hwatch'.symm.trans hwatch)

theorem Tracks.rewatch (T : r.Tracks s) {w : WatchId} {entry : RegistryEntry}
    (hw : r.entries.find? w = some entry) (hkey : entry.key.Exists s.heap) :
    let x := (s.closeObservation entry.observation).observeKey r.channel w entry.key
    let entries := r.entries.insert w
      { entry with observation := x.1, holders := entry.holders + 1 }
    Watched r s entry.key w { r with entries } x.2 := by
  have E := Store.ended_closeObservation T.sound entry.observation
  have T₁ := T.close hw E
  generalize s.closeObservation entry.observation = s₁ at E T₁ ⊢
  have O := Store.observed_observeKey T₁.sound T₁.unused r.channel w (E.heap.symm ▸ hkey)
  simp only [s₁.observeKey_fst r.channel w entry.key]
  generalize (s₁.observeKey r.channel w entry.key).2 = t at O ⊢
  have hdistinct : ∀ w' entry', (r.entries.erase w).find? w' = some entry' →
      entry'.key ≠ entry.key := by
    intro w' entry' h heq
    rw [Dict.find?_erase_eq_ite] at h
    split at h
    · cases h
    · next hne => exact hne (T.distinct w' w entry' entry h hw heq)
  let renewed : RegistryEntry :=
    { entry with observation := s₁.nextObservation, holders := entry.holders + 1 }
  have T₂ := T₁.begin renewed r.nextId (Dict.find?_erase_self _ _) (T.below w entry hw)
    (Nat.le_refl _) hdistinct rfl (Nat.succ_pos _) O
  have hid : ∀ key, r.idOf? key = ((r.erase w entry.key).insert w renewed).idOf? key := by
    intro key
    rw [idOf?_insert, idOf?_erase]
    by_cases hk : key = entry.key
    · rw [if_pos hk, hk]
      exact (T.indexed entry.key w).2 ⟨entry, hw, rfl⟩
    · rw [if_neg hk, if_neg hk]
  have T₃ : ({ r with entries := r.entries.insert w renewed } : Registry).Tracks t :=
    T₂.congr rfl (Dict.insert_erase r.entries w renewed).symm rfl hid
  refine ⟨⟨T₃, rfl, O.heap.trans E.heap, O.channels.trans E.channels⟩, ?_, ?_, ?_, ?_⟩
  · intro entry' h'
    cases hw.symm.trans h'
    rfl
  · refine ⟨_, Dict.find?_insert_self _ _ _, rfl, ?_⟩
    rw [holders, hw]
    rfl
  · obtain ⟨o, ho, -, -, hkind, -⟩ := O.found
    rw [kind?_eq (Dict.find?_insert_self _ _ _), ho, ← E.heap, ← hkind]
    rfl
  · intro w' hne
    have hsame := Dict.find?_insert_of_ne r.entries hne
      { entry with observation := s₁.nextObservation, holders := entry.holders + 1 }
    refine ⟨hsame, kind?_congr hsame fun entry' hw' => ?_⟩
    obtain ⟨o, ho, -⟩ := T.observed w' entry' hw'
    rw [O.others, E.others _ (T.observation_ne hw hw' hne)]
    rw [E.nextObservation]
    exact Nat.ne_of_lt (T.numbered _ o ho)

theorem Tracks.watchNew (T : r.Tracks s) {key : TargetKey} (hkey : key.Exists s.heap)
    (hnew : ∀ w entry, r.entries.find? w = some entry → entry.key ≠ key) (label : String) :
    let x := s.observeKey r.channel r.nextId key
    Watched r s key r.nextId { r.insert r.nextId ⟨key, label, x.1, 1⟩ with
      nextId := r.nextId + 1 } x.2 := by
  have O := Store.observed_observeKey T.sound T.unused r.channel r.nextId hkey
  simp only [s.observeKey_fst r.channel r.nextId key]
  generalize (s.observeKey r.channel r.nextId key).2 = t at O ⊢
  have hnone : r.entries.find? r.nextId = none := by
    cases h : r.entries.find? r.nextId with
    | none => rfl
    | some entry => exact absurd (T.below _ entry h) (Nat.lt_irrefl _)
  have T₂ := T.begin ⟨key, label, s.nextObservation, 1⟩ (r.nextId + 1) hnone (Nat.lt_succ_self _)
    (Nat.le_succ _) hnew rfl Nat.one_pos O
  refine ⟨⟨T₂, rfl, O.heap, O.channels⟩, ?_, ?_, ?_, ?_⟩
  · intro entry h
    cases hnone.symm.trans h
  · refine ⟨_, Dict.find?_insert_self _ _ _, rfl, ?_⟩
    rw [holders, hnone]
    rfl
  · obtain ⟨o, ho, -, -, hkind, -⟩ := O.found
    rw [kind?_eq (Dict.find?_insert_self _ _ _), ho, ← hkind]
    rfl
  · intro w' hne
    have hsame := Dict.find?_insert_of_ne r.entries hne
      (⟨key, label, s.nextObservation, 1⟩ : RegistryEntry)
    refine ⟨hsame, kind?_congr hsame fun entry' hw' => ?_⟩
    obtain ⟨o, ho, -⟩ := T.observed w' entry' hw'
    exact O.others _ (Nat.ne_of_lt (T.numbered _ o ho))

theorem Tracks.watchKey (T : r.Tracks s) {key : TargetKey} (hkey : key.Exists s.heap)
    (label : String) :
    Watched r s key (r.watchKey s key label).1 (r.watchKey s key label).2.1
      (r.watchKey s key label).2.2 := by
  rw [Registry.watchKey]
  cases hfind : r.entryOf? key with
  | some e =>
    obtain ⟨w, entry⟩ := e
    obtain ⟨hw, rfl⟩ := T.key_of_entryOf? hfind
    exact T.rewatch hw hkey
  | none => exact T.watchNew hkey (fun w entry hw => T.key_ne_of_entryOf? hfind hw) label

theorem Adjusted.refl (T : r.Tracks s) : Adjusted r s r s := ⟨T, rfl, rfl, rfl⟩

theorem Adjusted.trans {r₁ r₂ : Registry} {s₁ s₂ : Store} (L : Adjusted r s r₁ s₁)
    (M : Adjusted r₁ s₁ r₂ s₂) : Adjusted r s r₂ s₂ where
  tracks := M.tracks
  channel := M.channel.trans L.channel
  heap := M.heap.trans L.heap
  channels := M.channels.trans L.channels

theorem Tracks.unwatch (T : r.Tracks s) (w : WatchId) :
    Adjusted r s (r.unwatch s w).2.1 (r.unwatch s w).2.2 := by
  rw [Registry.unwatch]
  cases hw : r.entries.find? w with
  | none => exact .refl T
  | some entry =>
    have E := Store.ended_closeObservation T.sound entry.observation
    exact ⟨T.close hw E, rfl, E.heap, E.channels⟩

theorem Tracks.release (T : r.Tracks s) (w : WatchId) :
    Adjusted r s (r.release s w).2.1 (r.release s w).2.2 := by
  rw [Registry.release]
  cases hw : r.entries.find? w with
  | none => exact .refl T
  | some entry =>
    simp only
    split
    · next h => exact ⟨T.reholder hw (Nat.sub_pos_of_lt h), rfl, rfl, rfl⟩
    · exact T.unwatch w

theorem Tracks.releaseAll (T : r.Tracks s) (ws : List WatchId) :
    Adjusted r s (r.releaseAll s ws).1 (r.releaseAll s ws).2 := by
  induction ws generalizing r s with
  | nil => exact .refl T
  | cons w rest ih =>
    have L := T.release w
    exact L.trans (ih L.tracks)

theorem Tracks.unwatchAll (T : r.Tracks s) (ws : List WatchId) :
    Adjusted r s (r.unwatchAll s ws).1 (r.unwatchAll s ws).2 := by
  induction ws generalizing r s with
  | nil => exact .refl T
  | cons w rest ih =>
    have L := T.unwatch w
    exact L.trans (ih L.tracks)

theorem find?_unwatch (r : Registry) (s : Store) (w w' : WatchId) :
    (r.unwatch s w).2.1.entries.find? w' = if w' = w then none else r.entries.find? w' := by
  rw [Registry.unwatch]
  cases hw : r.entries.find? w with
  | none =>
    by_cases h : w' = w
    · rw [if_pos h, h, hw]
    · rw [if_neg h]
  | some entry => exact Dict.find?_erase_eq_ite r.entries w w'

theorem find?_unwatchAll (r : Registry) (s : Store) (ws : List WatchId) (w : WatchId) :
    (r.unwatchAll s ws).1.entries.find? w = if w ∈ ws then none else r.entries.find? w := by
  induction ws generalizing r s with
  | nil => rfl
  | cons w' rest ih =>
    simp only [unwatchAll, ih, find?_unwatch, List.mem_cons]
    by_cases h : w = w'
    · simp [h]
    · simp [h]

theorem entries_closeAll (r : Registry) (s : Store) : (r.closeAll s).1.entries = ∅ := by
  apply Dict.ext_find?
  intro w
  rw [closeAll, find?_unwatchAll]
  split
  · rfl
  · next hw =>
    cases h : r.entries.find? w with
    | none => rfl
    | some entry => exact absurd (Dict.mem_keys.2 ⟨entry, h⟩) hw

theorem Tracks.aside {t : Store} (T : r.Tracks s) (hheap : t.heap = s.heap)
    (hobs : t.observers = s.observers) (hrec : t.observations = s.observations)
    (hnext : t.nextObservation = s.nextObservation) : r.Tracks t := by
  apply T.retains (T.sound.aside hheap hobs hrec hnext)
  exact (T.sound.consistent.aside hheap hobs hrec hnext).retains

theorem Tracks.step {t : Store} (T : r.Tracks s) (h : Store.Step s t) (hc : t.heap.Closed) :
    r.Tracks t :=
  T.retains (h.sound T.sound hc) (h.upkeep T.sound).retains

end Registry

end ReactivePage
