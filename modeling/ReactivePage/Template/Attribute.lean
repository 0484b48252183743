import ReactivePage.Template.Descriptor

namespace ReactivePage

inductive AttributeKind
  | flag
  | text
  | expression
  | unknown (tag : String)
  deriving DecidableEq

namespace AttributeKind

def ofTag (tag : String) : AttributeKind :=
  if tag = "bool" ∨ tag = "boolean" then flag
  else if tag = "string" ∨ tag = "str" then text
  else if tag = "mustache" ∨ tag = "expression" then expression
  else unknown tag

def tag : AttributeKind → String
  | flag => "bool"
  | text => "string"
  | expression => "mustache"
  | unknown tag => tag

def isUnknown : AttributeKind → Bool
  | unknown _ => true
  | _ => false

end AttributeKind

structure Attribute where
  name : String
  kind : AttributeKind
  value : String
  expressions : List String
  deriving DecidableEq

inductive CompileError
  | unknownKind (name tag : String)
  | placeholderMismatch (name : String) (placeholders expressions : Nat)
  deriving DecidableEq

def CompileError.message : CompileError → String
  | unknownKind name tag => "attribute '" ++ name ++ "' has unhandled kind '" ++ tag ++ "'"
  | placeholderMismatch name placeholders expressions =>
    "attribute '" ++ name ++ "' has " ++ String.ofList (Digits.write placeholders)
      ++ " mustache placeholders but " ++ String.ofList (Digits.write expressions)
      ++ " expressions"

namespace Attribute

def ofSource (name : String) : Option String → Attribute
  | none => ⟨name, .flag, "", []⟩
  | some raw =>
    match Part.ofText raw with
    | [.expression body] => ⟨name, .expression, body, []⟩
    | parts => ⟨name, .text, raw, Part.bodies parts⟩

def compile (a : Attribute) : Except CompileError Descriptor :=
  match a.kind with
  | .flag => .ok .flag
  | .text =>
    if a.expressions = [] then .ok (.literal a.value)
    else
      let format := Format.ofParts (Part.ofText a.value)
      if format.placeholders = a.expressions.length then
        .ok (.interpolated format a.expressions)
      else .error (.placeholderMismatch a.name format.placeholders a.expressions.length)
  | .expression => .ok (.single a.value)
  | .unknown tag => .error (.unknownKind a.name tag)

def compileAll (attributes : List Attribute) : Except CompileError (List (String × Descriptor)) :=
  attributes.mapM fun a => (a.name, ·) <$> a.compile

end Attribute

end ReactivePage
