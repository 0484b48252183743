import ReactivePage.Page
import ReactivePage.Proofs.Checkpoint.Rollback

namespace ReactivePage

namespace Attribute

theorem compileAll_cons (a : Attribute) (rest : List Attribute) :
    compileAll (a :: rest) = (do
      let value ← a.compile
      let compiled ← compileAll rest
      return (a.name, value) :: compiled) := by
  rw [compileAll, List.mapM_cons]
  cases a.compile <;> rfl

theorem compileAll_cases (attributes : List Attribute) :
    match compileAll attributes with
    | .ok compiled =>
      List.Forall₂ (fun a c => c.1 = a.name ∧ a.compile = .ok c.2) attributes compiled
    | .error e => FirstError compile attributes e := by
  induction attributes with
  | nil => exact .nil
  | cons a rest ih =>
    rw [compileAll_cons]
    cases ha : a.compile with
    | error e => exact .head ha
    | ok value =>
      cases hrest : compileAll rest with
      | error e =>
        rw [hrest] at ih
        exact ih.cons ha
      | ok compiled =>
        rw [hrest] at ih
        exact .cons ⟨rfl, ha⟩ ih

end Attribute

variable {σ : Type}

namespace Scheduler

/-- Schedulers as their hosts make them. Between two operations the model may become any other. -/
inductive Arises : Scheduler σ → Prop
  | create (s : Store) (settings : SchedulerSettings) (evaluator : Evaluator) :
      Arises (create s settings evaluator).1
  | perform {d : Scheduler σ} (s : Store) {op : Operation σ} : Arises d → op.isOffered = true →
      Arises (Session.perform ⟨d, s⟩ op).scheduler

namespace Arises

variable {d : Scheduler σ}

theorem owned (h : d.Arises) : ∃ plain, d.Owned plain := by
  induction h with
  | create s settings evaluator => exact ⟨[], .create s settings evaluator⟩
  | @perform d s op _ hop ih =>
    obtain ⟨plain, O⟩ := ih
    exact ⟨_, Custody.owned_perform (C := ⟨⟨d, s⟩, plain⟩) O hop⟩

theorem bind (h : d.Arises) (s : Store) (value : Descriptor) (scope : Handle)
    (target : BindingTarget σ) : (d.bind s value scope target).2.1.Arises :=
  h.perform s (show (Operation.bind value scope target).isOffered = true from rfl)

theorem unbindAll (h : d.Arises) (s : Store) (ids : List BindingId) :
    (d.unbindAll s ids).1.Arises := by
  induction ids generalizing d s with
  | nil => exact h
  | cons id rest ih =>
    exact ih (h.perform s (show (Operation.unbind id : Operation σ).isOffered = true from rfl)) _

theorem bindCompiled (h : d.Arises) (s : Store) (scope : Handle)
    (makeTarget : String → BindingTarget σ) (made : List String) (bound : List BindingId)
    (compiled : List (String × Descriptor)) :
    (Page.bindCompiled d s scope makeTarget made bound compiled).2.2.1.Arises := by
  induction compiled generalizing d s made bound with
  | nil => exact h
  | cons c rest ih =>
    have hbind := h.bind s c.2 scope (makeTarget c.1)
    rw [Page.bindCompiled]
    split
    · next hrun =>
      rw [hrun] at hbind
      exact ih hbind _ _ _
    · next d' s' hrun =>
      rw [hrun] at hbind
      exact hbind.unbindAll s' bound

end Arises

end Scheduler

inductive Page.Arises : Page σ → Prop
  | create (s : Store) (settings : Settings) (evaluator : Evaluator) :
      Arises (create s settings evaluator).1
  | perform {p : Page σ} (s : Store) {op : Operation σ} : Arises p → op.isOffered = true →
      Arises { p with scheduler := (Session.perform ⟨p.scheduler, s⟩ op).scheduler }
  | bindText {p : Page σ} (s : Store) (text : String) (scope : Handle) (target : BindingTarget σ) :
      Arises p → Arises (p.bindText s text scope target).2.1
  | bindAttributes {p : Page σ} (s : Store) (attributes : List Attribute) (scope : Handle)
      (makeTarget : String → BindingTarget σ) :
      Arises p → Arises (p.bindAttributes s attributes scope makeTarget).2.2.1

theorem Page.Arises.scheduler {p : Page σ} (h : p.Arises) : p.scheduler.Arises := by
  induction h with
  | create s settings evaluator => exact .create s settings.scheduler evaluator
  | perform s _ hop ih => exact ih.perform s hop
  | bindText s text scope target _ ih =>
    rw [Page.bindText]
    split
    · exact ih
    · exact ih.bind s _ scope target
  | bindAttributes s attributes scope makeTarget _ ih =>
    rw [Page.bindAttributes]
    split
    · exact ih
    · exact ih.bindCompiled s scope makeTarget [] [] _

namespace Session

def report? (S : Session σ) : Operation σ → Option Report
  | .checkpoint => some (S.scheduler.checkpoint S.store).1
  | .runScheduled => (S.scheduler.runScheduled S.store).1
  | .wait late => (S.scheduler.wait S.store late).1
  | _ => none

variable {S : Session σ} {op : Operation σ}

theorem exists_checkpointWith {report : Report} (h : S.report? op = some report) :
    ∃ s received, (S.scheduler.checkpointWith s received).1 = report := by
  cases op with
  | act program => cases h
  | watch target => cases h
  | unwatch w => cases h
  | release w => cases h
  | closeAll => cases h
  | bind value scope target => cases h
  | unbind id => cases h
  | checkpoint => exact ⟨S.store, [], Option.some.inj h⟩
  | runScheduled =>
    obtain ⟨s', hrun⟩ | ⟨t, received, s', hrun⟩ := S.scheduler.runScheduled_cases S.store
    · rw [report?, hrun] at h
      cases h
    · rw [report?, hrun] at h
      exact ⟨t, received, Option.some.inj h⟩
  | wait late =>
    obtain ⟨s', hrun⟩ | ⟨t, received, s', hrun⟩ := S.scheduler.wait_cases S.store late
    · rw [report?, hrun] at h
      cases h
    · rw [report?, hrun] at h
      exact ⟨t, received, Option.some.inj h⟩

theorem find?_perform {id : BindingId} {b : Binding σ}
    (hb : S.scheduler.bindings.find? id = some b) (hid : id < S.scheduler.nextBinding)
    (hreport : S.report? op = none) (hop : op ≠ .unbind id) :
    (S.perform op).scheduler.bindings.find? id = some b ∧
      id < (S.perform op).scheduler.nextBinding := by
  cases op with
  | act program => exact ⟨hb, hid⟩
  | watch target =>
    rw [perform, Scheduler.watch]
    cases S.scheduler.registry.watch S.store target with
    | error e => exact ⟨hb, hid⟩
    | ok x => exact ⟨hb, hid⟩
  | unwatch w => exact ⟨hb, hid⟩
  | release w => exact ⟨hb, hid⟩
  | closeAll => exact ⟨hb, hid⟩
  | bind value scope target =>
    rw [perform, Scheduler.bind]
    obtain ⟨result, r, s⟩ := Scheduler.watchPaths S.scheduler.registry S.store scope []
      (S.scheduler.dependencies value)
    cases result with
    | error e => exact ⟨hb, hid⟩
    | ok watches =>
      exact ⟨(Dict.find?_insert_of_ne _ (Nat.ne_of_lt hid) _).trans hb, Nat.lt_succ_of_lt hid⟩
  | unbind id' =>
    have hne : id ≠ id' := fun heq => hop (heq ▸ rfl)
    rw [perform, Scheduler.unbind]
    cases S.scheduler.bindings.find? id' with
    | none => exact ⟨hb, hid⟩
    | some b' => exact ⟨(Dict.find?_erase_of_ne _ hne).trans hb, hid⟩
  | checkpoint => cases hreport
  | runScheduled =>
    obtain ⟨s', hrun⟩ | ⟨t, received, s', hrun⟩ := S.scheduler.runScheduled_cases S.store
    · rw [perform, hrun]
      exact ⟨hb, hid⟩
    · rw [report?, hrun] at hreport
      cases hreport
  | wait late =>
    obtain ⟨s', hrun⟩ | ⟨t, received, s', hrun⟩ := S.scheduler.wait_cases S.store late
    · rw [perform, hrun]
      exact ⟨hb, hid⟩
    · rw [report?, hrun] at hreport
      cases hreport

end Session

namespace Scheduler

inductive Awaits (ids : List BindingId) : Scheduler σ → Scheduler σ → Prop
  | refl (d : Scheduler σ) : Awaits ids d d
  | perform {d d' : Scheduler σ} (s : Store) {op : Operation σ} : Awaits ids d d' →
      Session.report? ⟨d', s⟩ op = none → (∀ id ∈ ids, op ≠ .unbind id) →
      Awaits ids d (Session.perform ⟨d', s⟩ op).scheduler

theorem Awaits.find? {ids : List BindingId} {d d' : Scheduler σ} (h : Awaits ids d d')
    {id : BindingId} {b : Binding σ} (hid : id ∈ ids) (hb : d.bindings.find? id = some b)
    (hlt : id < d.nextBinding) : d'.bindings.find? id = some b ∧ id < d'.nextBinding := by
  induction h with
  | refl => exact ⟨hb, hlt⟩
  | perform s _ hreport hkept ih =>
    exact Session.find?_perform ih.1 ih.2 hreport (hkept id hid)

theorem count_checkpointWith {d : Scheduler σ} {id : BindingId} {b : Binding σ}
    (hb : d.bindings.find? id = some b) (hfresh : b.fresh = true) (s : Store)
    (received : List Signal) :
    ((d.checkpointWith s received).1.evaluated
      ++ (d.checkpointWith s received).1.failures.map Prod.fst).count id = 1 := by
  have C := d.checkpointed s received
  apply List.count_eq_one_of_mem
  · exact List.nodup_append.2 ⟨C.ordered.1.imp Nat.ne_of_lt, C.ordered.2.imp Nat.ne_of_lt,
      fun id' h id'' h' heq => C.disjoint id' h (heq ▸ h')⟩
  · exact List.mem_append.2 ((C.covered id).2 ⟨b, hb, .inl hfresh⟩)

variable {d₀ d : Scheduler σ} {entries : List (BindingId × Binding σ)}

theorem Adds.bindCompiled (A : Adds d₀ d entries) (s : Store) (scope : Handle)
    (makeTarget : String → BindingTarget σ) (made : List String)
    (compiled : List (String × Descriptor)) :
    match Page.bindCompiled d s scope makeTarget made (entries.map Prod.fst) compiled with
    | (_, .ok ids, d', _) => ∃ more, ids = (entries ++ more).map Prod.fst ∧
      Adds d₀ d' (entries ++ more) ∧
      List.Forall₂ (fun c e => ∃ watches, e.2 = ⟨c.2, scope, watches, makeTarget c.1, true⟩)
        compiled more
    | (_, .error e, d', _) => Adds d₀ d' [] ∧ FirstError
      (fun path => (Target.field scope path).key) (compiled.flatMap (d₀.dependencies ·.2)) e := by
  induction compiled generalizing d s made entries with
  | nil => exact ⟨[], by rw [List.append_nil], by rwa [List.append_nil], .nil⟩
  | cons c rest ih =>
    have hbind := A.bind s c.2 scope (makeTarget c.1)
    rw [Page.bindCompiled]
    cases hrun : d.bind s c.2 scope (makeTarget c.1) with
    | mk result x =>
      obtain ⟨d', s'⟩ := x
      rw [hrun] at hbind
      cases result with
      | error e => exact ⟨hbind.1.unbindAll s', hbind.2.append_right _⟩
      | ok id =>
        obtain ⟨watches, A', hpaths⟩ := hbind
        have hrest := ih A' s' (made ++ [c.1])
        rw [List.map_append, List.map_singleton] at hrest
        simp only
        generalize Page.bindCompiled d' s' scope makeTarget (made ++ [c.1])
          (entries.map Prod.fst ++ [id]) rest = run at hrest ⊢
        obtain ⟨made', result, d'', s''⟩ := run
        cases result with
        | error e => exact ⟨hrest.1, hrest.2.append hpaths⟩
        | ok ids =>
          obtain ⟨more, hids, A'', hmore⟩ := hrest
          rw [List.append_assoc, List.singleton_append] at hids A''
          exact ⟨_ :: more, hids, A'', .cons ⟨watches, rfl⟩ hmore⟩

end Scheduler

namespace Page

theorem queue_bindCompiled (d : Scheduler σ) (s : Store) (scope : Handle)
    (makeTarget : String → BindingTarget σ) (made : List String) (bound : List BindingId)
    (compiled : List (String × Descriptor)) (k : ChannelId) :
    ((bindCompiled d s scope makeTarget made bound compiled).2.2.2.channel k).queue
      = (s.channel k).queue := by
  induction compiled generalizing d s made bound with
  | nil => rfl
  | cons c rest ih =>
    have hbind := d.queue_bind s c.2 scope (makeTarget c.1) k
    rw [bindCompiled]
    split
    · next hrun =>
      rw [hrun] at hbind
      exact (ih _ _ _ _).trans hbind
    · next d' s' hrun =>
      rw [hrun] at hbind
      exact (d'.queue_unbindAll s' bound k).trans hbind

/-- What is wrong with the attributes of an element: the first of them that does not compile, or,
if all do, the first path they depend on that cannot be read. -/
def Fault (p : Page σ) (attributes : List Attribute) (scope : Handle) : BindError → Prop
  | .compile e => FirstError Attribute.compile attributes e
  | .watch e => ∃ values,
    List.Forall₂ (fun a value => a.compile = .ok value) attributes values ∧
      FirstError (fun path => (Target.field scope path).key)
        (values.flatMap p.scheduler.dependencies) e

structure Binds (p : Page σ) (attributes : List Attribute) (scope : Handle)
    (makeTarget : String → BindingTarget σ) (ids : List BindingId) (p' : Page σ) : Prop where
  ascending : ids.Pairwise (· < ·)
  bound : List.Forall₂ (fun a id => ∃ value watches, a.compile = .ok value ∧
    p'.scheduler.bindings.find? id = some ⟨value, scope, watches, makeTarget a.name, true⟩)
    attributes ids
  added : ∀ id ∈ ids, p.scheduler.bindings.find? id = none
  others : ∀ id, id ∉ ids → p'.scheduler.bindings.find? id = p.scheduler.bindings.find? id
  once : ∀ (d : Scheduler σ) (s : Store) (op : Operation σ) (report : Report),
    p'.scheduler.Awaits ids d → Session.report? ⟨d, s⟩ op = some report → ∀ id ∈ ids,
      (report.evaluated ++ report.failures.map Prod.fst).count id = 1

end Page

theorem Page.Arises.bindAttributes_cases {p : Page σ} (h : p.Arises) (s : Store)
    (attributes : List Attribute) (scope : Handle) (makeTarget : String → BindingTarget σ) :
    match p.bindAttributes s attributes scope makeTarget with
    | (_, .error e, p', s') => p.Fault attributes scope e ∧
      p.scheduler.Restored s p'.scheduler s'
    | (_, .ok ids, p', _) => p.Binds attributes scope makeTarget ids p' := by
  obtain ⟨plain, O⟩ := h.scheduler.owned
  have A₀ := Scheduler.Adds.refl O
  have hcompile := Attribute.compileAll_cases attributes
  rw [Page.bindAttributes]
  cases hall : Attribute.compileAll attributes with
  | error e =>
    rw [hall] at hcompile
    exact ⟨hcompile, A₀.restored fun _ => rfl⟩
  | ok compiled =>
    rw [hall] at hcompile
    have hbind := A₀.bindCompiled s scope makeTarget [] compiled
    have hqueue := queue_bindCompiled p.scheduler s scope makeTarget [] [] compiled
    simp only
    rw [List.map_nil] at hbind
    generalize bindCompiled p.scheduler s scope makeTarget [] [] compiled = run at hbind hqueue ⊢
    obtain ⟨made, result, d', s'⟩ := run
    cases result with
    | error e =>
      obtain ⟨A, hpath⟩ := hbind
      refine ⟨⟨compiled.map Prod.snd, ?_, ?_⟩, A.restored hqueue⟩
      · exact List.forall₂_map_right_iff.2 (hcompile.imp fun _ _ hc => hc.2)
      · rwa [List.flatMap_map]
    | ok ids =>
      obtain ⟨entries, rfl, A, hentries⟩ := hbind
      rw [List.nil_append] at A ⊢
      constructor
      case ascending => exact A.ascending
      case bound =>
        have hboth :=
          (List.forall₂_and_left _ _).2 ⟨A.listed, (forall₂_comp hcompile hentries).flip⟩
        refine List.forall₂_map_right_iff.2 (hboth.flip.imp ?_)
        rintro a e ⟨hlisted, ⟨name, value⟩, ⟨rfl, ha⟩, watches, hwatches⟩
        exact ⟨value, watches, ha, hwatches ▸ hlisted⟩
      case added => exact List.forall_mem_map.2 A.added
      case others => exact A.others
      case once =>
        intro d s op report hawaits hreport id hid
        obtain ⟨e, he, rfl⟩ := List.mem_map.1 hid
        obtain ⟨hfind, -⟩ := hawaits.find? hid (A.listed e he) (A.lt_nextBinding hid)
        obtain ⟨c, -, watches, hwatches⟩ := exists_left_of_forall₂ hentries he
        obtain ⟨s', received, rfl⟩ := Session.exists_checkpointWith hreport
        exact Scheduler.count_checkpointWith hfind (by rw [hwatches]) s' received

/-- A value, and the attributes of an element, are bound as a whole or not at all. What fails leaves
the bindings, the active watches with their holders and what is queued as they were; what succeeds
has a turn in the next checkpoint. -/
theorem Page.bindAttributes_atomic :
    (∀ {d : Scheduler σ}, d.Arises → ∀ s value scope target e,
      (d.bind s value scope target).1 = .error e →
      d.Restored s (d.bind s value scope target).2.1 (d.bind s value scope target).2.2) ∧
    ∀ {p : Page σ}, p.Arises → ∀ s attributes scope makeTarget,
      (∀ e, (p.bindAttributes s attributes scope makeTarget).2.1 = .error e →
        p.Fault attributes scope e ∧
          p.scheduler.Restored s (p.bindAttributes s attributes scope makeTarget).2.2.1.scheduler
            (p.bindAttributes s attributes scope makeTarget).2.2.2) ∧
      ∀ ids, (p.bindAttributes s attributes scope makeTarget).2.1 = .ok ids →
        p.Binds attributes scope makeTarget ids
          (p.bindAttributes s attributes scope makeTarget).2.2.1 := by
  constructor
  · intro d h s value scope target e he
    obtain ⟨plain, O⟩ := h.owned
    exact O.restored_bind he
  · intro p h s attributes scope makeTarget
    have hcases := h.bindAttributes_cases s attributes scope makeTarget
    generalize p.bindAttributes s attributes scope makeTarget = run at hcases
    obtain ⟨made, result, p', s'⟩ := run
    constructor
    · rintro e rfl
      exact hcases
    · rintro ids rfl
      exact hcases

theorem Custody.Reachable.arises {settings : Settings} {evaluator : Evaluator} {C : Custody σ}
    (h : Reachable settings.scheduler evaluator C) :
    Page.Arises ⟨settings, C.session.scheduler⟩ := by
  induction h with
  | start => exact .create Store.empty settings evaluator
  | @perform C op _ hop ih => exact ih.perform C.session.store hop

def sharedElement (body : String) : List Attribute :=
  [⟨"title", .expression, "name+name", []⟩, ⟨"hidden", .flag, "", []⟩,
    ⟨"alt", .expression, body, []⟩]

deriving instance DecidableEq for BindError

theorem Page.bindAttributes_atomic_shared :
    let p : Page Unit := ⟨Settings.default, Custody.sharedCustody.session.scheduler⟩
    let s := Custody.sharedCustody.session.store
    let makeTarget := fun _ => (⟨(), fun _ _ => .done ()⟩ : BindingTarget Unit)
    let refused := p.scheduler.bind s (.single "name+..") 1 (makeTarget "alt")
    let failed := p.bindAttributes s (sharedElement "name+..") 1 makeTarget
    let bound := p.bindAttributes s (sharedElement "name+size") 1 makeTarget
    p.Arises ∧ refused.1 = .error ⟨"..", .emptySegment⟩ ∧
      p.scheduler.Restored s refused.2.1 refused.2.2 ∧
      failed.2.1 = .error (.watch ⟨"..", .emptySegment⟩) ∧
      p.scheduler.Restored s failed.2.2.1.scheduler failed.2.2.2 ∧
      bound.2.1 = .ok [3, 4, 5] ∧
      ∀ id ∈ [3, 4, 5], ((bound.2.2.1.scheduler.checkpoint bound.2.2.2).1.evaluated
        ++ (bound.2.2.1.scheduler.checkpoint bound.2.2.2).1.failures.map Prod.fst).count id
          = 1 := by
  intro p s makeTarget refused failed bound
  have hp : p.Arises := Custody.reachable_sharedCustody.arises
  obtain ⟨hbind, hpage⟩ := bindAttributes_atomic (σ := Unit)
  have hrefused : refused.1 = .error ⟨"..", .emptySegment⟩ := by decide +kernel
  have hfailed : failed.2.1 = .error (.watch ⟨"..", .emptySegment⟩) := by decide +kernel
  have hbound : bound.2.1 = .ok [3, 4, 5] := by decide +kernel
  have hnone := hbind hp.scheduler s (.single "name+..") 1 (makeTarget "alt")
  have hrestored := (hpage hp s (sharedElement "name+..") 1 makeTarget).1
  have hbinds := (hpage hp s (sharedElement "name+size") 1 makeTarget).2
  -- From here on the runs are opaque, lest their equality be decided by running them.
  have hrun : p.scheduler.bind s (.single "name+..") 1 (makeTarget "alt") = refused := rfl
  have hrun' : p.bindAttributes s (sharedElement "name+..") 1 makeTarget = failed := rfl
  have hrun'' : p.bindAttributes s (sharedElement "name+size") 1 makeTarget = bound := rfl
  clear_value refused failed bound
  rw [hrun] at hnone
  rw [hrun'] at hrestored
  rw [hrun''] at hbinds
  exact ⟨hp, hrefused, hnone _ hrefused, hfailed, (hrestored _ hfailed).2, hbound,
    (hbinds _ hbound).once _ bound.2.2.2 .checkpoint _ (.refl _) rfl⟩

end ReactivePage
