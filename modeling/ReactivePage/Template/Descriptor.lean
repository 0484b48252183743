import ReactivePage.Json.Printer
import ReactivePage.Template.Format

namespace ReactivePage

inductive Descriptor
  | flag
  | literal (text : String)
  | interpolated (format : Format) (expressions : List String)
  | single (body : String)
  deriving DecidableEq

namespace Descriptor

def expressions : Descriptor → List String
  | flag => []
  | literal _ => []
  | interpolated _ expressions => expressions
  | single body => [body]

def isStatic : Descriptor → Bool
  | flag => true
  | literal _ => true
  | interpolated _ _ => false
  | single _ => false

def evaluate {m : Type → Type} [Monad m] (eval : String → m Json) : Descriptor → m Json
  | flag => pure (.bool true)
  | literal text => pure (.string text)
  | interpolated format expressions => do
    let values ← expressions.mapM fun body => Json.display <$> eval body
    pure (.string (format.render values))
  | single body => eval body

def ofText? (text : String) : Option Descriptor :=
  if Part.isFormatting text then none
  else
    let parts := Part.ofText text
    match Part.bodies parts with
    | [] => some (literal text)
    | bodies => some (interpolated (Format.ofParts parts) bodies)

end Descriptor

end ReactivePage
