import ReactivePage.Model.Write
import ReactivePage.Proofs.DictLaws

namespace ReactivePage

/-- Whether a step from the container of an event may lead elsewhere after it. -/
def Event.touches (e : Event) (step : Step) : Bool :=
  match e with
  | .entry key _ _ => key = step.asKey
  | .splice index _ _ =>
    match step.position? with
    | some p => index ≤ p
    | none => false

namespace Heap

def route (h : Heap) (root : Handle) (path : Path) : List (Handle × Step) :=
  (h.chain root path).zip path.steps

def accepts (h : Heap) (c : Handle) (step : Step) : Bool :=
  h.isKeyed c || step.position?.isSome

structure Edit (h h' : Heap) (c : Handle) (e : Event) : Prop where
  next : h'.next = h.next
  kind : ∀ d, (h'.contents d).kind = (h.contents d).kind
  frame : ∀ d, d ≠ c → h'.contents d = h.contents d
  child : ∀ step, e.touches step = false → h'.child? (.ref c) step = h.child? (.ref c) step
  accepted : ∀ step, e.touches step = true → h.accepts c step = true

theorem contents_setContents (h : Heap) (c d : Handle) (k : Contents) :
    (h.setContents c k).contents d = if d = c then k else h.contents d := by
  rw [contents, setContents, Dict.find?_insert_eq_ite]
  by_cases hd : d = c
  · rw [if_pos hd, if_pos hd, Option.getD_some]
  · rw [if_neg hd, if_neg hd, contents]

theorem isKeyed_eq (h : Heap) (c : Handle) :
    h.isKeyed c = decide ((h.contents c).kind ≠ .sequence) := by
  rw [isKeyed]
  cases h.contents c <;> rfl

section UpdateEntries

variable (h : Heap) (c : Handle) (f : Dict String Value → Dict String Value)

theorem contents_updateEntries_of_ne {d : Handle} (hd : d ≠ c) :
    (h.updateEntries c f).contents d = h.contents d := by
  rw [updateEntries]
  cases h.contents c with
  | object fields => rw [contents_setContents, if_neg hd]
  | map entries => rw [contents_setContents, if_neg hd]
  | sequence items => rfl

theorem next_updateEntries : (h.updateEntries c f).next = h.next := by
  rw [updateEntries]
  cases h.contents c <;> rfl

theorem kind_updateEntries (d : Handle) :
    ((h.updateEntries c f).contents d).kind = (h.contents d).kind := by
  by_cases hd : d = c
  · subst hd
    rw [updateEntries]
    cases hk : h.contents d with
    | object fields => rw [contents_setContents, if_pos rfl]; rfl
    | map entries => rw [contents_setContents, if_pos rfl]; rfl
    | sequence items => simp only [hk]
  · rw [contents_updateEntries_of_ne h c f hd]

theorem child?_updateEntries (step : Step)
    (hf : ∀ d : Dict String Value, (f d).find? step.asKey = d.find? step.asKey) :
    (h.updateEntries c f).child? (.ref c) step = h.child? (.ref c) step := by
  rw [updateEntries]
  cases hk : h.contents c with
  | object fields => simp only [child?, contents_setContents, if_true, hk, hf]
  | map entries => simp only [child?, contents_setContents, if_true, hk, hf]
  | sequence items => rfl

end UpdateEntries

theorem accepts_of_isKeyed {h : Heap} {c : Handle} (hk : h.isKeyed c = true) (step : Step) :
    h.accepts c step = true := by
  rw [accepts, hk, Bool.true_or]

theorem isKeyed_of_valueAt? {h : Heap} {c : Handle} {key : String} {v : Value}
    (hv : h.valueAt? c key = some v) : h.isKeyed c = true := by
  rw [valueAt?] at hv
  rw [isKeyed]
  cases hk : h.contents c with
  | object fields => rfl
  | map entries => rfl
  | sequence items => simp [hk] at hv

theorem edit_updateEntries {h : Heap} {c : Handle} {key : String} {old new : Option Value}
    {f : Dict String Value → Dict String Value} (hk : h.isKeyed c = true)
    (hf : ∀ (d : Dict String Value) (k : String), k ≠ key → (f d).find? k = d.find? k) :
    Edit h (h.updateEntries c f) c (.entry key old new) where
  next := next_updateEntries h c f
  kind := kind_updateEntries h c f
  frame := fun _ hd => contents_updateEntries_of_ne h c f hd
  child := by
    intro step hs
    refine child?_updateEntries h c f step fun d => hf d _ ?_
    intro heq
    simp [Event.touches, heq] at hs
  accepted := fun step _ => accepts_of_isKeyed hk step

theorem getElem?_spliceList {α : Type} (items insert : List α) (index remove p : Nat)
    (hp : p < min index items.length) :
    (spliceList items index remove insert).1[p]? = items[p]? := by
  have hlen : p < (items.take (min index items.length)).length := by
    rw [List.length_take]
    omega
  rw [spliceList, List.append_assoc, List.getElem?_append_left hlen, List.getElem?_take, if_pos hp]

theorem edit_splice {h : Heap} {c : Handle} {items insert : List Value} {index remove : Nat}
    (hk : h.contents c = .sequence items) :
    Edit h (h.setContents c (.sequence (spliceList items index remove insert).1)) c
      (.splice (min index items.length) (spliceList items index remove insert).2
        insert.length) where
  next := rfl
  kind := by
    intro d
    rw [contents_setContents]
    by_cases hd : d = c
    · rw [if_pos hd, hd, hk]; rfl
    · rw [if_neg hd]
  frame := fun d hd => by rw [contents_setContents, if_neg hd]
  child := by
    intro step hs
    simp only [child?, contents_setContents, if_true, hk]
    cases hp : step.position? with
    | none => rfl
    | some p =>
      have hlt : p < min index items.length := by simpa [Event.touches, hp] using hs
      simpa using getElem?_spliceList items insert index remove p hlt
  accepted := by
    intro step hs
    rw [accepts]
    cases hp : step.position? with
    | none => simp [Event.touches, hp] at hs
    | some p => simp

theorem eq_of_write_eq_none {h h' : Heap} {w : Write} (hw : h.write w = (h', none)) : h' = h := by
  cases w with
  | put c key value =>
    simp only [write] at hw
    split at hw <;> simp_all
  | erase c key =>
    simp only [write] at hw
    split at hw <;> simp_all
  | splice c index remove insert =>
    simp only [write] at hw
    split at hw
    · split at hw <;> simp_all
    · simp_all

theorem edit_of_write {h h' : Heap} {w : Write} {e : Event} (hw : h.write w = (h', some e)) :
    Edit h h' w.target e := by
  cases w with
  | put c key value =>
    simp only [write] at hw
    split at hw
    · next hk =>
      cases hw
      exact edit_updateEntries hk fun d k hne => Dict.find?_insert_of_ne d hne value
    · cases hw
  | erase c key =>
    simp only [write] at hw
    split at hw
    · next old hv =>
      cases hw
      exact edit_updateEntries (isKeyed_of_valueAt? hv) fun d k hne => Dict.find?_erase_of_ne d hne
    · cases hw
  | splice c index remove insert =>
    simp only [write] at hw
    split at hw
    · next items hk =>
      split at hw
      · cases hw
      · cases hw
        exact edit_splice hk
    · cases hw

theorem next_write (h : Heap) (w : Write) : (h.write w).1.next = h.next := by
  rcases hw : h.write w with ⟨h', e | e⟩
  · rw [eq_of_write_eq_none hw]
  · exact (edit_of_write hw).next

theorem resolve?_scalar (h h' : Heap) (j : Json) (steps : List Step) :
    h'.resolve? (.scalar j) steps = h.resolve? (.scalar j) steps := by
  induction steps generalizing j with
  | nil => rfl
  | cons step rest ih =>
    simp only [resolve?, child?]
    cases j.child? step with
    | none => rfl
    | some k => exact ih k

namespace Edit

variable {h h' : Heap} {c : Handle} {e : Event}

theorem isKeyed (E : Edit h h' c e) (d : Handle) : h'.isKeyed d = h.isKeyed d := by
  rw [isKeyed_eq, isKeyed_eq, E.kind]

theorem accepts (E : Edit h h' c e) (d : Handle) (step : Step) :
    h'.accepts d step = h.accepts d step := by
  rw [Heap.accepts, Heap.accepts, E.isKeyed]

theorem kind_value (E : Edit h h' c e) (v : Value) : h'.kind v = h.kind v := by
  cases v with
  | scalar j => rfl
  | ref d => exact E.kind d

theorem child?_eq (E : Edit h h' c e) {d : Handle} {step : Step}
    (hs : d = c → e.touches step = false) : h'.child? (.ref d) step = h.child? (.ref d) step := by
  by_cases hd : d = c
  · subst hd
    exact E.child step (hs rfl)
  · simp only [child?, E.frame d hd]

theorem chainFrom_resolve?_eq (E : Edit h h' c e) (steps : List Step) (root : Handle)
    (hs : ∀ r ∈ (h.chainFrom root steps).zip steps, r.1 = c → e.touches r.2 = false) :
    h'.chainFrom root steps = h.chainFrom root steps ∧
      h'.resolve? (.ref root) steps = h.resolve? (.ref root) steps := by
  -- By induction on the steps: up to the first touched step both heaps agree.
  induction steps generalizing root with
  | nil => exact ⟨rfl, rfl⟩
  | cons step rest ih =>
    have hchild : h'.child? (.ref root) step = h.child? (.ref root) step := by
      refine E.child?_eq (hs (root, step) ?_)
      cases rest with
      | nil => simp [chainFrom]
      | cons next rest =>
        rw [chainFrom]
        split <;> simp
    cases rest with
    | nil => simp [chainFrom, resolve?, hchild]
    | cons next rest =>
      rw [chainFrom, chainFrom, resolve?, resolve?, hchild]
      rw [chainFrom] at hs
      cases hv : h.child? (.ref root) step with
      | none => exact ⟨rfl, rfl⟩
      | some v =>
        cases v with
        | scalar j => exact ⟨rfl, resolve?_scalar h h' j _⟩
        | ref d =>
          simp only [hv, List.zip_cons_cons, List.forall_mem_cons] at hs
          obtain ⟨hchain, hresolve⟩ := ih d hs.2
          exact ⟨congrArg (root :: ·) hchain, hresolve⟩

theorem chain_eq (E : Edit h h' c e) {root : Handle} {path : Path}
    (hs : ∀ r ∈ h.route root path, r.1 = c → e.touches r.2 = false) :
    h'.chain root path = h.chain root path :=
  (E.chainFrom_resolve?_eq path.steps root hs).1

theorem lookup?_eq (E : Edit h h' c e) {root : Handle} {path : Path}
    (hs : ∀ r ∈ h.route root path, r.1 = c → e.touches r.2 = false) :
    h'.lookup? root path = h.lookup? root path :=
  (E.chainFrom_resolve?_eq path.steps root hs).2

end Edit

end Heap

end ReactivePage
