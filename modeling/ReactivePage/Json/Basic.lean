import ReactivePage.Decimal.Binary64
import ReactivePage.Dict

namespace ReactivePage

inductive Number
  | integer (n : Int)
  | double (x : Binary64)
  deriving DecidableEq

def Number.same : Number → Number → Bool
  | integer m, integer n => m = n
  | double x, double y => x.same y
  | _, _ => false

inductive Json
  | null
  | bool (b : Bool)
  | number (n : Number)
  | string (s : String)
  | array (items : List Json)
  | object (members : List (String × Json))

namespace Json

instance : Inhabited Json := ⟨null⟩

mutual

def same : Json → Json → Bool
  | null, null => true
  | bool a, bool b => a == b
  | number a, number b => a.same b
  | string a, string b => a == b
  | array a, array b => sameItems a b
  | object a, object b => sameMembers a b
  | _, _ => false

def sameItems : List Json → List Json → Bool
  | [], [] => true
  | a :: as, b :: bs => same a b && sameItems as bs
  | _, _ => false

def sameMembers : List (String × Json) → List (String × Json) → Bool
  | [], [] => true
  | (j, a) :: as, (k, b) :: bs => j == k && same a b && sameMembers as bs
  | _, _ => false

end

def ofMembers (members : List (String × Json)) : Json :=
  object (Dict.ofList members).toList

def get? (j : Json) (key : String) : Option Json :=
  match j with
  | object members => findEntry key members
  | _ => none

def ofNat (n : Nat) : Json := number (.integer n)

def ofInt (n : Int) : Json := number (.integer n)

mutual

/-- Every object lists its members by strictly increasing name. -/
def Canonical : Json → Prop
  | array items => CanonicalItems items
  | object members => KeySorted members ∧ CanonicalMembers members
  | _ => True

def CanonicalItems : List Json → Prop
  | [] => True
  | j :: rest => Canonical j ∧ CanonicalItems rest

def CanonicalMembers : List (String × Json) → Prop
  | [] => True
  | (_, j) :: rest => Canonical j ∧ CanonicalMembers rest

end

end Json

end ReactivePage
