import ReactivePage.Proofs.Checkpoint.Order

namespace ReactivePage

namespace Registry

variable {r r₁ r₂ : Registry} {s s₁ s₂ : Store}

theorem watch_cases {target : Target} {w : WatchId} (h : r.watch s target = .ok (w, r₁, s₁)) :
    ∃ key, target.key = .ok key ∧
      ((∃ entry observation, r.entryOf? key = some (w, entry) ∧
          r₁ = { r with
            entries := r.entries.insert w
              { entry with observation, holders := entry.holders + 1 } }) ∨
        ∃ observation, r.entryOf? key = none ∧ w = r.nextId ∧
          r₁ = { r.insert w ⟨key, target.label, observation, 1⟩ with nextId := w + 1 }) := by
  rw [watch_eq] at h
  cases hk : target.key with
  | error e =>
    rw [hk] at h
    cases h
  | ok key =>
    rw [hk] at h
    have heq : r.watchKey s key target.label = (w, r₁, s₁) := Except.ok.inj h
    rw [watchKey] at heq
    refine ⟨key, rfl, ?_⟩
    cases hfind : r.entryOf? key with
    | some e =>
      obtain ⟨w', entry⟩ := e
      rw [hfind] at heq
      cases heq
      exact .inl ⟨entry, _, rfl, rfl⟩
    | none =>
      rw [hfind] at heq
      cases heq
      exact .inr ⟨_, rfl, rfl, rfl⟩

theorem find?_release (r : Registry) (s : Store) (w v : WatchId) :
    (r.release s w).2.1.entries.find? v =
      if v = w then (r.entries.find? w).bind fun entry =>
        if 1 < entry.holders then some { entry with holders := entry.holders - 1 } else none
      else r.entries.find? v := by
  rw [release]
  cases hw : r.entries.find? w with
  | none =>
    by_cases h : v = w
    · rw [if_pos h, h, hw, Option.bind_none]
    · rw [if_neg h]
  | some entry =>
    simp only [Option.bind_some]
    by_cases hn : 1 < entry.holders
    · rw [if_pos hn, if_pos hn, Dict.find?_insert_eq_ite]
    · rw [if_neg hn, if_neg hn, find?_unwatch]

theorem holders_release (r : Registry) (s : Store) (w v : WatchId) :
    (r.release s w).2.1.holders v = r.holders v - [w].count v := by
  rw [holders, find?_release, List.count_singleton]
  by_cases h : v = w
  · subst h
    rw [if_pos rfl, holders]
    cases r.entries.find? v with
    | none => simp
    | some entry =>
      by_cases hn : 1 < entry.holders
      · simp [hn]
      · simp [hn, Nat.sub_eq_zero_of_le (Nat.le_of_not_lt hn)]
  · simp [h, Ne.symm h, holders]

theorem holders_unwatch (r : Registry) (s : Store) (w v : WatchId) :
    (r.unwatch s w).2.1.holders v = if v = w then 0 else r.holders v := by
  rw [holders, find?_unwatch]
  split <;> rfl

theorem holders_closeAll (r : Registry) (s : Store) (v : WatchId) :
    (r.closeAll s).1.holders v = 0 := by
  rw [holders, entries_closeAll]
  rfl

theorem Tracks.isActive_iff (T : r.Tracks s) {w : WatchId} :
    r.isActive w = true ↔ 0 < r.holders w := by
  rw [isActive, Dict.contains_iff, holders]
  cases hw : r.entries.find? w with
  | none => simp
  | some entry => simpa using T.held w entry hw

theorem unwatch_fst_iff (r : Registry) (s : Store) (w : WatchId) :
    (r.unwatch s w).1 = true ↔
      r.isActive w = true ∧ (r.unwatch s w).2.1.isActive w = false := by
  have hgone : (r.unwatch s w).2.1.isActive w = false := by
    rw [isActive, Dict.contains, find?_unwatch, if_pos rfl]
    rfl
  rw [hgone, isActive, Dict.contains, unwatch]
  cases r.entries.find? w <;> simp

theorem release_fst_iff (r : Registry) (s : Store) (w : WatchId) :
    (r.release s w).1 = true ↔
      r.isActive w = true ∧ (r.release s w).2.1.isActive w = false := by
  rw [isActive, isActive, Dict.contains, Dict.contains, find?_release, release, if_pos rfl]
  cases hw : r.entries.find? w with
  | none => simp
  | some entry =>
    by_cases hn : 1 < entry.holders
    · simp [hn]
    · simp [hn, unwatch, hw]

theorem nextId_unwatch (r : Registry) (s : Store) (w : WatchId) :
    (r.unwatch s w).2.1.nextId = r.nextId := by
  rw [unwatch]
  cases r.entries.find? w <;> rfl

theorem nextId_unwatchAll (r : Registry) (s : Store) (ws : List WatchId) :
    (r.unwatchAll s ws).1.nextId = r.nextId := by
  induction ws generalizing r s with
  | nil => rfl
  | cons w rest ih => exact (ih _ _).trans (r.nextId_unwatch s w)

theorem nextId_release (r : Registry) (s : Store) (w : WatchId) :
    (r.release s w).2.1.nextId = r.nextId := by
  rw [release]
  cases r.entries.find? w with
  | none => rfl
  | some entry =>
    simp only
    split
    · rfl
    · exact r.nextId_unwatch s w

def keyOf? (r : Registry) (w : WatchId) : Option TargetKey := (r.entries.find? w).map (·.key)

theorem keyOf?_of_unwatch {w v : WatchId} {key : TargetKey}
    (h : (r.unwatch s w).2.1.keyOf? v = some key) : r.keyOf? v = some key := by
  rw [keyOf?, find?_unwatch] at h
  split at h
  · cases h
  · exact h

theorem keyOf?_of_release {w v : WatchId} {key : TargetKey}
    (h : (r.release s w).2.1.keyOf? v = some key) : r.keyOf? v = some key := by
  rw [keyOf?, find?_release] at h
  split at h
  · next hv =>
    subst hv
    cases hw : r.entries.find? v with
    | none => simp [hw] at h
    | some entry =>
      by_cases hn : 1 < entry.holders
      · simpa [keyOf?, hw, hn] using h
      · simp [hw, hn] at h
  · exact h

theorem keyOf?_of_closeAll {v : WatchId} {key : TargetKey}
    (h : (r.closeAll s).1.keyOf? v = some key) : r.keyOf? v = some key := by
  rw [keyOf?, entries_closeAll] at h
  cases h

structure Grown (r r' : Registry) (ws : List WatchId) : Prop where
  holders : ∀ w, r'.holders w = r.holders w + ws.count w
  keys : ∀ w key, r.keyOf? w = some key → r'.keyOf? w = some key

theorem Grown.refl (r : Registry) : Grown r r [] where
  holders := by simp
  keys := fun _ _ h => h

theorem Grown.trans {ws ws' : List WatchId} (G : Grown r r₁ ws) (G' : Grown r₁ r₂ ws') :
    Grown r r₂ (ws ++ ws') where
  holders := by
    intro w
    rw [G'.holders, G.holders, List.count_append, Nat.add_assoc]
  keys := fun w key h => G'.keys w key (G.keys w key h)

theorem Watched.grown {key : TargetKey} {w : WatchId} (W : Watched r s key w r₁ s₁) :
    Grown r r₁ [w] ∧ r₁.keyOf? w = some key := by
  obtain ⟨entry, hw, hk, hn⟩ := W.found
  have hkey : r₁.keyOf? w = some key := by rw [keyOf?, hw, Option.map_some, hk]
  refine ⟨⟨?_, ?_⟩, hkey⟩
  · intro w'
    by_cases h : w' = w
    · subst h
      rw [holders, hw, Option.map_some, Option.getD_some, hn]
      simp
    · rw [holders, (W.others w' h).1, ← holders, List.count_singleton]
      simp [Ne.symm h]
  · intro w' key' h'
    by_cases h : w' = w
    · subst h
      rw [keyOf?] at h'
      obtain ⟨entry', he, rfl⟩ := Option.map_eq_some_iff.1 h'
      rw [hkey, W.was entry' he]
    · rw [keyOf?, (W.others w' h).1]
      exact h'

structure Shrunk (r r' : Registry) (ws : List WatchId) : Prop where
  holders : ∀ w, r'.holders w + ws.count w = r.holders w
  keys : ∀ w, 0 < r'.holders w → r'.keyOf? w = r.keyOf? w

theorem holders_pos {w : WatchId} (h : 0 < r.holders w) :
    ∃ entry, r.entries.find? w = some entry := by
  cases hw : r.entries.find? w with
  | none =>
    rw [holders, hw] at h
    exact absurd h (Nat.lt_irrefl 0)
  | some entry => exact ⟨entry, rfl⟩

theorem Tracks.shrunk_release (T : r.Tracks s) {w : WatchId} (h : 0 < r.holders w) :
    Shrunk r (r.release s w).2.1 [w] := by
  obtain ⟨entry, hw⟩ := holders_pos h
  have hn : r.holders w = entry.holders := by rw [holders, hw]; rfl
  rw [Registry.release, hw]
  simp only
  split
  · next hlt =>
    have hfind := fun w' => Dict.find?_insert_eq_ite r.entries w w'
      { entry with holders := entry.holders - 1 }
    refine ⟨?_, ?_⟩
    · intro w'
      rw [holders, hfind, List.count_singleton]
      by_cases heq : w' = w
      · subst heq
        simp only [if_true, Option.map_some, Option.getD_some, beq_self_eq_true, hn]
        omega
      · simp [heq, Ne.symm heq, holders]
    · intro w' _
      rw [keyOf?, keyOf?, hfind]
      by_cases heq : w' = w
      · rw [if_pos heq, heq, hw, Option.map_some, Option.map_some]
      · rw [if_neg heq]
  · next hlt =>
    have hone : entry.holders = 1 := by
      have := T.held w entry hw
      omega
    refine ⟨?_, ?_⟩
    · intro w'
      rw [holders, find?_unwatch, List.count_singleton]
      by_cases heq : w' = w
      · subst heq
        simp [hn, hone]
      · simp [heq, Ne.symm heq, holders]
    · intro w' hpos
      rw [holders, find?_unwatch] at hpos
      rw [keyOf?, keyOf?, find?_unwatch]
      by_cases heq : w' = w
      · rw [if_pos heq] at hpos
        exact absurd hpos (Nat.lt_irrefl 0)
      · rw [if_neg heq]

theorem Tracks.shrunk_releaseAll (T : r.Tracks s) (ws : List WatchId)
    (h : ∀ w, ws.count w ≤ r.holders w) : Shrunk r (r.releaseAll s ws).1 ws := by
  induction ws generalizing r s with
  | nil => exact ⟨fun _ => rfl, fun _ _ => rfl⟩
  | cons w rest ih =>
    have hpos : 0 < r.holders w := by
      have := h w
      rw [List.count_cons_self] at this
      omega
    have D := T.shrunk_release hpos
    have T₁ := (T.release w).tracks
    have hcount : ∀ w', (w :: rest).count w' = [w].count w' + rest.count w' := by
      intro w'
      rw [← List.count_append]
      rfl
    have E := ih T₁ fun w' => by
      have hall := h w'
      have hone := D.holders w'
      rw [hcount] at hall
      omega
    have hcons : r.releaseAll s (w :: rest)
        = (r.release s w).2.1.releaseAll (r.release s w).2.2 rest := rfl
    rw [hcons]
    refine ⟨?_, ?_⟩
    · intro w'
      have hone := D.holders w'
      have hrest := E.holders w'
      rw [hcount]
      omega
    · intro w' hpos'
      have hrest := E.holders w'
      rw [E.keys w' hpos', D.keys w' (by omega)]

end Registry

namespace Scheduler

variable {r : Registry} {s : Store}

open Registry (Tracks Grown keyOf?)

def Names (r : Registry) (scope : Handle) (w : WatchId) (text : String) : Prop :=
  ∃ path, Path.read text = .ok path ∧ r.keyOf? w = some (.field scope path)

theorem grown_watchPaths (T : r.Tracks s) {scope : Handle} (hscope : scope < s.heap.next)
    {taken : List WatchId} {r₀ : Registry} (G : Grown r₀ r taken) (paths : List String) :
    match watchPaths r s scope taken paths with
    | (.ok watches, r', _) => Grown r₀ r' watches ∧
      (∀ w key, r.keyOf? w = some key → r'.keyOf? w = some key) ∧
      ∃ ws, watches = taken ++ ws ∧ List.Forall₂ (Names r' scope) ws paths
    | (.error _, r', _) => (∀ w, r'.holders w = r₀.holders w) ∧
      ∀ w key, r₀.keyOf? w = some key → 0 < r₀.holders w → r'.keyOf? w = some key := by
  induction paths generalizing r s taken with
  | nil => exact ⟨G, fun _ _ h => h, [], (List.append_nil _).symm, .nil⟩
  | cons path rest ih =>
    rw [watchPaths]
    cases hw : r.watch s (.field scope path) with
    | error e =>
      simp only
      have D := T.shrunk_releaseAll taken fun w => by
        rw [G.holders]
        omega
      have hsame : ∀ w, (r.releaseAll s taken).1.holders w = r₀.holders w := by
        intro w
        have h₁ := D.holders w
        have h₂ := G.holders w
        omega
      refine ⟨hsame, ?_⟩
      intro w key hkey hpos
      rw [D.keys w (hsame w ▸ hpos)]
      exact G.keys w key hkey
    | ok x =>
      obtain ⟨w, r₁, s₁⟩ := x
      simp only
      obtain ⟨key, hkey, W⟩ := T.watch (fun _ hk => Registry.exists_of_field_key hscope hk) hw
      obtain ⟨G₁, hw₁⟩ := W.grown
      have hrec := ih W.tracks (W.heap.symm ▸ hscope) (G.trans G₁)
      cases hrest : watchPaths r₁ s₁ scope (taken ++ [w]) rest with
      | mk result x =>
        obtain ⟨r', s'⟩ := x
        rw [hrest] at hrec
        cases result with
        | error e => exact hrec
        | ok watches =>
          obtain ⟨G', hkeys, ws, hws, hnames⟩ := hrec
          refine ⟨G', fun w' key' h => hkeys w' key' (G₁.keys w' key' h), w :: ws, ?_, ?_⟩
          · rw [hws, List.append_assoc]
            rfl
          · refine .cons ?_ hnames
            obtain ⟨p, hp, rfl⟩ := Registry.path_of_field_key hkey
            exact ⟨p, hp, hkeys w _ hw₁⟩

end Scheduler

end ReactivePage
