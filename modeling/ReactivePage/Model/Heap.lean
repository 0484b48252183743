import ReactivePage.Json.Basic
import ReactivePage.Model.Path

/-!
The model: a graph of containers with identities.

A value is a piece of JSON or a reference to a container. Containers are objects with named
fields, sequences, and keyed maps; they are shared, may form cycles, and are told apart by their
handles even when their contents are equal. Descending along a path goes through containers and
through JSON alike.
-/

namespace ReactivePage

abbrev Handle := Nat

inductive Value
  | scalar (json : Json)
  | ref (handle : Handle)

inductive Contents
  | object (fields : Dict String Value)
  | sequence (items : List Value)
  | map (entries : Dict String Value)

/-- How a value is watched. Objects count as scalars. -/
inductive Kind
  | scalar
  | sequence
  | map
  deriving DecidableEq

def Contents.kind : Contents → Kind
  | object _ => .scalar
  | sequence _ => .sequence
  | map _ => .map

def Contents.isObject : Contents → Bool
  | object _ => true
  | _ => false

def Contents.isSequence : Contents → Bool
  | sequence _ => true
  | _ => false

def Contents.isMap : Contents → Bool
  | map _ => true
  | _ => false

def Contents.values : Contents → List Value
  | object fields => fields.values
  | sequence items => items
  | map entries => entries.values

namespace Value

def null : Value := scalar .null

def handle? : Value → Option Handle
  | scalar _ => none
  | ref h => some h

def same : Value → Value → Bool
  | scalar a, scalar b => a.same b
  | ref a, ref b => a = b
  | _, _ => false

def sameOption : Option Value → Option Value → Bool
  | some a, some b => a.same b
  | none, none => true
  | _, _ => false

end Value

def Json.child? (j : Json) (step : Step) : Option Json :=
  match j with
  | object members => findEntry step.asKey members
  | array items => step.position?.bind fun i => items[i]?
  | _ => none

structure Heap where
  cells : Dict Handle Contents
  next : Handle

namespace Heap

def empty : Heap := ⟨∅, 1⟩

/-- The contents behind a handle. Where there is no container it reads as an empty object. -/
def contents (h : Heap) (c : Handle) : Contents := (h.cells.find? c).getD (.object ∅)

def setContents (h : Heap) (c : Handle) (k : Contents) : Heap :=
  { h with cells := h.cells.insert c k }

def create (h : Heap) (k : Contents) : Handle × Heap :=
  (h.next, ⟨h.cells.insert h.next k, h.next + 1⟩)

def kind (h : Heap) : Value → Kind
  | .scalar _ => .scalar
  | .ref c => (h.contents c).kind

def valueAt? (h : Heap) (c : Handle) (key : String) : Option Value :=
  match h.contents c with
  | .object fields => fields.find? key
  | .map entries => entries.find? key
  | .sequence _ => none

def keys (h : Heap) (c : Handle) : List String :=
  match h.contents c with
  | .object fields => fields.keys
  | .map entries => entries.keys
  | .sequence _ => []

def items (h : Heap) (c : Handle) : List Value :=
  match h.contents c with
  | .sequence items => items
  | _ => []

def container? (h : Heap) (sort : Contents → Bool) : Value → Option Handle
  | .scalar _ => none
  | .ref c => if sort (h.contents c) then some c else none

def child? (h : Heap) (v : Value) (step : Step) : Option Value :=
  match v with
  | .scalar j => (j.child? step).map .scalar
  | .ref c =>
    match h.contents c with
    | .object fields => fields.find? step.asKey
    | .map entries => entries.find? step.asKey
    | .sequence items => step.position?.bind fun i => items[i]?

def resolve? (h : Heap) (v : Value) : List Step → Option Value
  | [] => some v
  | step :: rest => (h.child? v step).bind fun w => h.resolve? w rest

def lookup? (h : Heap) (root : Handle) (path : Path) : Option Value :=
  h.resolve? (.ref root) path.steps

/-- The containers that are met while descending along all but the last of the steps: the start
itself, and then each next one until a step leads to JSON or nowhere. -/
def chainFrom (h : Heap) (c : Handle) : List Step → List Handle
  | [] => [c]
  | [_] => [c]
  | step :: next :: rest =>
    match h.child? (.ref c) step with
    | some (.ref d) => c :: h.chainFrom d (next :: rest)
    | _ => [c]

def chain (h : Heap) (root : Handle) (path : Path) : List Handle := h.chainFrom root path.steps

mutual

def ofJson (h : Heap) : Json → Value × Heap
  | .array items =>
    let (c, h) := h.create (.sequence [])
    let (values, h) := h.ofItems items
    (.ref c, h.setContents c (.sequence values))
  | .object members =>
    let (c, h) := h.create (.object ∅)
    let (fields, h) := h.ofMembers members
    (.ref c, h.setContents c (.object (Dict.ofList fields)))
  | j => (.scalar j, h)

def ofItems (h : Heap) : List Json → List Value × Heap
  | [] => ([], h)
  | j :: rest =>
    let (v, h) := h.ofJson j
    let (vs, h) := h.ofItems rest
    (v :: vs, h)

def ofMembers (h : Heap) : List (String × Json) → List (String × Value) × Heap
  | [] => ([], h)
  | (k, j) :: rest =>
    let (v, h) := h.ofJson j
    let (vs, h) := h.ofMembers rest
    ((k, v) :: vs, h)

end

def jsonWithin? (h : Heap) : Nat → Value → Option Json
  | _, .scalar j => some j
  | 0, .ref _ => none
  | depth + 1, .ref c =>
    match h.contents c with
    | .object fields =>
      (fields.toList.mapM fun e => (e.1, ·) <$> h.jsonWithin? depth e.2).map .object
    | .map entries =>
      (entries.toList.mapM fun e => (e.1, ·) <$> h.jsonWithin? depth e.2).map .object
    | .sequence items => (items.mapM fun v => h.jsonWithin? depth v).map .array

/-- The JSON of a value, which it has when it reaches no cycle: then no more containers nest than
there are. -/
def toJson? (h : Heap) (v : Value) : Option Json := h.jsonWithin? (h.cells.size + 1) v

def toJson (h : Heap) (v : Value) : Json := (h.toJson? v).getD .null

def snapshot (h : Heap) (v : Option Value) : Option Json := v.map h.toJson

end Heap

end ReactivePage
