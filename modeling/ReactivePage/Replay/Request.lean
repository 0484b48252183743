import ReactivePage.Dict
import ReactivePage.Replay.Digest

namespace ReactivePage

abbrev Headers := Dict String (List String)

def Headers.add (h : Headers) (name value : String) : Headers :=
  h.insert name (((h.find? name).getD []) ++ [value])

structure Request where
  method : String
  url : String
  headers : Headers
  body : String
  deriving DecidableEq

def upperAscii (s : String) : String := s.map Char.toUpper

namespace Request

def fingerprint (body : String) : String :=
  if body = "" then "-" else String.ofList (Digest.ofText body).hex

def identityOf (method url body : String) : String :=
  upperAscii method ++ " " ++ url ++ " " ++ fingerprint body

def identity (r : Request) : String := identityOf r.method r.url r.body

end Request

structure Response where
  status : Nat
  headers : Headers
  body : String
  deriving DecidableEq

namespace Response

def isSuccess (r : Response) : Bool := 200 ≤ r.status && r.status < 300

def header? (r : Response) (name : String) : Option String :=
  match r.headers.toList.find? fun e => upperAscii e.1 = upperAscii name with
  | some (_, values) => values.head?
  | none => none

end Response

inductive TransportError
  | failed (message : String)
  | recorded (message : String)
  deriving DecidableEq

namespace TransportError

def bare : TransportError → String
  | failed message => message
  | recorded message => message

def message : TransportError → String
  | failed message => "request failed: " ++ message
  | recorded message => "recorded failure: " ++ message

end TransportError

abbrev Outcome := Except TransportError Response

end ReactivePage
