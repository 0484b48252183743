import ReactivePage.Proofs.Checkpoint.Freshness
import ReactivePage.Proofs.Model.PathText
import ReactivePage.Proofs.Watch.Feed

namespace ReactivePage

theorem Path.steps_inj {p q : Path} : p.steps = q.steps ↔ p = q := by
  cases p
  cases q
  exact (mk.injEq _ _ _ _).symm ▸ Iff.rfl

theorem Path.display_eq_iff {text text' : String} {p q : Path} (hp : parse text = .ok p)
    (hq : parse text' = .ok q) : p.display = q.display ↔ p.steps = q.steps := by
  constructor
  · intro h
    rw [eq_of_display_eq (read_of_parse hp) (read_of_parse hq) h]
  · intro h
    rw [steps_inj.1 h]

theorem Target.field_key {owner : Handle} {text : String} {p : Path}
    (h : Path.parse text = .ok p) : (field owner text).key = .ok (.field owner p) := by
  rw [key, Path.read_of_parse h]
  rfl

namespace Registry

variable {r : Registry} {s : Store} {w : WatchId}

theorem Tracks.watch_fst_iff (T : r.Tracks s) {key : TargetKey} (hw : r.keyOf? w = some key)
    {target : Target} : (∃ x, r.watch s target = .ok (w, x)) ↔ target.key = .ok key := by
  obtain ⟨entry, hentry, rfl⟩ := Option.map_eq_some_iff.1 hw
  constructor
  · rintro ⟨⟨r', s'⟩, hwatch⟩
    obtain ⟨key', hkey', ⟨entry', _, hfind, -⟩ | ⟨_, -, heq, -⟩⟩ := watch_cases hwatch
    · obtain ⟨hentry', hk⟩ := T.key_of_entryOf? hfind
      cases hentry.symm.trans hentry'
      rw [hkey', hk]
    · exact absurd heq (Nat.ne_of_lt (T.below w entry hentry))
  · intro hkey
    cases hwatch : r.watch s target with
    | error e =>
      rw [watch_eq, hkey] at hwatch
      cases hwatch
    | ok x =>
      obtain ⟨v, x⟩ := x
      obtain ⟨key, hkey', ⟨entry', _, hfind, -⟩ | ⟨_, hnone, -⟩⟩ := watch_cases hwatch
      · cases hkey.symm.trans hkey'
        obtain ⟨hentry', hk⟩ := T.key_of_entryOf? hfind
        exact ⟨x, by rw [T.distinct w v entry entry' hentry hentry' hk.symm]⟩
      · cases hkey.symm.trans hkey'
        exact absurd rfl (T.key_ne_of_entryOf? hnone hentry)

namespace Log

variable {L M N : Log}

theorem Leads.keyOf?_eq (h : L.Leads M) (K : Kept L) {key : TargetKey}
    (hw : L.registry.keyOf? w = some key) (hactive : M.registry.isActive w = true) :
    M.registry.keyOf? w = some key := by
  -- By induction on the run: a watch keeps its key, since its number is never given to another.
  induction h with
  | refl => exact hw
  | perform hleads ha ih =>
    obtain ⟨entry, hentry, -⟩ := Option.map_eq_some_iff.1 hw
    have KM := hleads.kept K
    have hlt := Nat.lt_of_lt_of_le (K.tracks.below w entry hentry) (hleads.nextId_le K)
    obtain ⟨a, P⟩ := performed KM.tracks ha
    have hbefore := P.isActive_of_lt KM.tracks hlt hactive
    exact (keyOf?_perform KM.tracks ha hbefore hactive).trans (ih hbefore)

theorem Leads.watch_fst_iff (h : start.Leads L) {target target' : Target} {key : TargetKey}
    (hkey : target.key = .ok key) (ha : L.Admits (.watch target)) {x : Registry × Store}
    (hwatch : L.registry.watch L.store target = .ok (w, x))
    (hN : (L.perform (.watch target)).Leads N) (hactive : N.registry.isActive w = true) :
    (∃ y, N.registry.watch N.store target' = .ok (w, y)) ↔ target'.key = .ok key := by
  obtain ⟨r, s⟩ := x
  have K := h.kept kept_start
  have K' := (h.perform ha).kept kept_start
  have hgiven : (L.perform (.watch target)).registry.keyOf? w = some key := by
    obtain ⟨key', hkey', W⟩ := K.tracks.watch ha hwatch
    cases hkey.symm.trans hkey'
    rw [Log.perform, hwatch]
    exact W.grown.2
  exact (hN.kept K').tracks.watch_fst_iff (hN.keyOf?_eq K' hgiven hactive)

/-- Paths are read by their grammar, and printed as they are read again. At any time in the life
of a watch, the texts that name it are those with its steps. -/
theorem paths_and_names :
    (∀ text steps, (∃ p, Path.parse text = .ok p ∧ p.steps = steps) ↔ Path.Spells text steps) ∧
    (∀ text steps, Path.Spells text steps → steps ≠ []) ∧
    (∀ text p, Path.parse text = .ok p → Path.parse p.display = .ok p) ∧
    (∀ text text' p q, Path.parse text = .ok p → Path.parse text' = .ok q →
      (p.display = q.display ↔ p.steps = q.steps)) ∧
    ∀ (L N : Log) (owner : Handle) (text text' : String) (p q : Path) (w : WatchId)
      (x : Registry × Store), start.Leads L → L.Admits (.watch (.field owner text)) →
      Path.parse text = .ok p → Path.parse text' = .ok q →
      L.registry.watch L.store (.field owner text) = .ok (w, x) →
      (L.perform (.watch (.field owner text))).Leads N → N.registry.isActive w = true →
      ((∃ y, N.registry.watch N.store (.field owner text') = .ok (w, y)) ↔ p.steps = q.steps) := by
  have hspells : ∀ text steps,
      (∃ p, Path.parse text = .ok p ∧ p.steps = steps) ↔ Path.Spells text steps := by
    intro text steps
    constructor
    · rintro ⟨p, hp, rfl⟩
      exact Path.parse_eq_ok_iff.1 hp
    · intro h
      have hne : steps ≠ [] := by
        obtain ⟨-, pieces, hpieces, -, -, hsteps⟩ := h
        exact hsteps.ne_nil hpieces
      exact ⟨⟨steps, hne⟩, Path.parse_eq_ok_iff.2 h, rfl⟩
  refine ⟨hspells, fun text steps h => ?_, fun text p => Path.parse_display,
    fun text text' p q => Path.display_eq_iff, ?_⟩
  · obtain ⟨p, -, rfl⟩ := (hspells text steps).2 h
    exact p.steps_ne_nil
  · intro L N owner text text' p q w x hL ha hp hq hwatch hN hactive
    rw [hL.watch_fst_iff (Target.field_key hp) ha hwatch hN hactive, Target.field_key hq,
      Except.ok.injEq, TargetKey.field.injEq, Path.steps_inj]
    constructor
    · exact fun h => h.2.symm
    · exact fun h => ⟨rfl, h.symm⟩

def objectLog : Log := start.perform (.act (.create (.object ∅) fun _ => .done ()))

theorem leads_objectLog : start.Leads objectLog := by
  refine .perform (.refl _) ?_
  simp only [Admits]
  decide

theorem names_spelling :
    Path.parse " todos [ +007 ]. title" = .ok ⟨[.key "todos", .index 7, .key "title"], nofun⟩ ∧
    Path.parse "todos.7.title" = .ok ⟨[.key "todos", .index 7, .key "title"], nofun⟩ ∧
    ∃ y, (objectLog.perform (.watch (.field 1 " todos [ +007 ]. title"))).registry.watch
      (objectLog.perform (.watch (.field 1 " todos [ +007 ]. title"))).store
      (.field 1 "todos.7.title") = .ok (1, y) :=
  ⟨by decide, by decide,
    (paths_and_names.2.2.2.2 objectLog _ 1 " todos [ +007 ]. title" "todos.7.title" _ _ 1 _
      leads_objectLog (fun _ hkey => exists_of_field_key (by decide) hkey) rfl rfl rfl
      (.refl _) (by decide)).2 rfl⟩

end Log

end Registry

end ReactivePage
