import FlowExpr.Text.Blank
import FlowExpr.Text.Fields

/-!
# Types of parameters

A parameter's type is described by a text such as `String`, `Any` or `NumberLike | String`.

**Reading.** The text is cut at the bars, blanks around the names and empty names are dropped. A
wildcard among the names, `any` or `mixed` in any case, makes the whole descriptor a wildcard, and
so does the lack of any name.

**Names.** The analysis knows a fixed set of type names, matched exactly. Every other name is kept
as written: it is shown in messages, and no literal has that type.
-/

namespace FlowExpr

/-- A type that a descriptor can name. -/
inductive ValueType where
  | string
  | boolean
  | null
  | integer
  | float
  | number
  | numberLike
  | object
  | array
  | collection
  | timestampString
  | base64String
  | dataUriString
  | uriString
  | xmlObject
  | xmlString
  /-- A name the analysis knows nothing about. -/
  | other (name : String)
  deriving DecidableEq, Repr, Inhabited

namespace ValueType

/-- The type's name as descriptors spell it. -/
def name : ValueType → String
  | string => "String"
  | boolean => "Boolean"
  | null => "Null"
  | integer => "Integer"
  | float => "Float"
  | number => "Number"
  | numberLike => "NumberLike"
  | object => "Object"
  | array => "Array"
  | collection => "Collection"
  | timestampString => "TimestampString"
  | base64String => "Base64String"
  | dataUriString => "DataUriString"
  | uriString => "UriString"
  | xmlObject => "XmlObject"
  | xmlString => "XmlString"
  | other name => name

/-- The types with a fixed name. -/
def known : List ValueType :=
  [string, boolean, null, integer, float, number, numberLike, object, array, collection,
    timestampString, base64String, dataUriString, uriString, xmlObject, xmlString]

/-- The type of a name. -/
def ofName (name : String) : ValueType := (known.find? (·.name = name)).getD (other name)

/-- Whether the analysis knows the type. -/
def isKnown : ValueType → Bool
  | other _ => false
  | _ => true

/-- The numeric types, which inside a union accept every number. -/
def isNumeric : ValueType → Bool
  | numberLike | number | integer | float => true
  | _ => false

/-- A type read from a name shows that name. -/
@[simp] theorem name_ofName (s : String) : (ofName s).name = s := by
  unfold ofName
  cases h : known.find? (·.name = s) with
  | none => rfl
  | some t => simpa using List.find?_some h

end ValueType

/-- What a parameter accepts. -/
inductive Descriptor where
  /-- Everything. -/
  | any
  /-- A single type. -/
  | one (type : ValueType)
  /-- One of several types, in the order of their declaration. -/
  | union (types : List ValueType)
  deriving DecidableEq, Repr, Inhabited

namespace Descriptor

/-- Whether a name stands for every type. Case is ignored for ASCII letters. -/
def isWildcard (name : List Char) : Bool :=
  let small := name.map Char.toLower
  small = "any".toList || small = "mixed".toList

/-- The names in a descriptor's text, without blanks around them and without empty ones. -/
def names (text : String) : List (List Char) :=
  ((Text.fields '|' text.toList).map Text.trim).filter (!·.isEmpty)

/-- The descriptor of a list of types. -/
def ofTypes : List ValueType → Descriptor
  | [] => any
  | [t] => one t
  | ts => union ts

/-- Reads a descriptor. Every text is one. -/
def ofText (text : String) : Descriptor :=
  if (names text).any isWildcard then any
  else ofTypes ((names text).map fun n => .ofName (String.ofList n))

/-- The types a descriptor lists; none for a wildcard. -/
def types : Descriptor → List ValueType
  | any => []
  | one t => [t]
  | union ts => ts

/-- The descriptor as shown in labels and messages. -/
def text : Descriptor → String
  | any => "Any"
  | one t => t.name
  | union ts => " | ".intercalate (ts.map ValueType.name)

end Descriptor

end FlowExpr
