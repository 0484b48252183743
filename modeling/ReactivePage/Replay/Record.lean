import ReactivePage.Json.Syntax
import ReactivePage.Json.Printer
import ReactivePage.Replay.Request

namespace ReactivePage

/-- A recorded exchange. If it holds both, the error counts. -/
structure Record where
  response : Option Response
  error : Option String
  deriving DecidableEq

namespace Record

def ofOutcome : Outcome → Record
  | .ok response => ⟨some response, none⟩
  | .error e => ⟨none, some e.bare⟩

def outcome (r : Record) : Outcome :=
  match r.error, r.response with
  | some message, _ => .error (.recorded message)
  | none, some response => .ok response
  | none, none => .error (.recorded "record holds neither a response nor an error")

end Record

abbrev Snapshot := Dict String (List Record)

def Snapshot.add (s : Snapshot) (identity : String) (r : Record) : Snapshot :=
  s.insert identity (((s.find? identity).getD []) ++ [r])

namespace Json

namespace Source

def namedMembers? : List (List StringItem × Source) → Option (List (String × Source))
  | [] => some []
  | (name, value) :: rest => do
    let name ← decodeString? name
    return (String.ofList name, value) :: (← namedMembers? rest)

def fields? (names : List String) : Source → Option (List (Option Source))
  | object members => do
    let members ← namedMembers? members
    if names.all fun name => (members.filter fun m => m.1 = name).length ≤ 1 then
      some (names.map fun name => (members.find? fun m => m.1 = name).map Prod.snd)
    else none
  | array items =>
    if items.length ≤ names.length then
      some (items.map some ++ List.replicate (names.length - items.length) none)
    else none
  | _ => none

def required {α : Type} (read : Source → Option α) : Option Source → Option α
  | some value => read value
  | none => none

def optional {α : Type} (read : Source → Option α) (default : α) : Option Source → Option α
  | some value => read value
  | none => some default

def nullable {α : Type} (read : Source → Option α) : Source → Option (Option α)
  | null => some none
  | value => (read value).map some

def list? {α : Type} (read : Source → Option α) : Source → Option (List α)
  | array items => items.mapM read
  | _ => none

def dict? {α : Type} (read : Source → Option α) : Source → Option (Dict String α)
  | object members => do
    let members ← namedMembers? members
    let entries ← members.mapM fun m => (m.1, ·) <$> read m.2
    return Dict.ofList entries
  | _ => none

def headers? : Source → Option Headers := dict? (list? text?)

def status? : Source → Option Nat
  | number n =>
    match n.number? with
    | some (.integer i) => if 0 ≤ i ∧ i < 65536 then some i.toNat else none
    | _ => none
  | _ => none

def request? (j : Source) : Option Request := do
  match ← fields? ["method", "url", "headers", "body"] j with
  | [method, url, headers, body] =>
    return ⟨← required text? method, ← required text? url, ← optional headers? ∅ headers,
      ← optional text? "" body⟩
  | _ => none

def response? (j : Source) : Option Response := do
  match ← fields? ["status", "headers", "body"] j with
  | [status, headers, body] =>
    return ⟨← required status? status, ← optional headers? ∅ headers, ← optional text? "" body⟩
  | _ => none

def record? (j : Source) : Option Record := do
  match ← fields? ["response", "error"] j with
  | [response, error] =>
    return ⟨← optional (nullable response?) none response, ← optional (nullable text?) none error⟩
  | _ => none

def snapshot? : Source → Option Snapshot := dict? (list? record?)

end Source

def ofHeaders (h : Headers) : Json :=
  object (h.toList.map fun e => (e.1, array (e.2.map string)))

def ofResponse (r : Response) : Json :=
  object [("status", ofNat r.status), ("headers", ofHeaders r.headers), ("body", string r.body)]

def ofRequest (r : Request) : Json :=
  object [("method", string r.method), ("url", string r.url), ("headers", ofHeaders r.headers),
    ("body", string r.body)]

def ofRecord (r : Record) : Json :=
  object [("response", (r.response.map ofResponse).getD null),
    ("error", (r.error.map string).getD null)]

def ofSnapshot (s : Snapshot) : Json :=
  object (s.toList.map fun e => (e.1, array (e.2.map ofRecord)))

end Json

def Snapshot.render (s : Snapshot) : String := (Json.ofSnapshot s).render

def Snapshot.parse? (text : String) : Option Snapshot := do
  (← Json.Source.read? text).snapshot?

end ReactivePage
