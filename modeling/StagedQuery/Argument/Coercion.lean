import StagedQuery.Value.Convert

/-!
# Argument types and coercion

The declared types of arguments and of the fields of input objects. A type may
require a value that is not null and may carry a default. Coercion fits a value
to a type or refuses it: it widens integers to floating point numbers, writes
integer identifiers as strings, turns strings into listed enumeration values,
wraps a single value into a list, renames the members of input objects and fills
in their defaults.
-/

namespace StagedQuery

/-- Whether a value other than null is required, and what stands in for an absent one. -/
structure Presence where
  required : Bool
  default? : Option Value

/-- A field of an input object: its name in requests, the member that it becomes, and its
    type. -/
structure InputField (τ : Type) where
  name : String
  member : String
  type : τ

/-- The declared type of an argument. -/
inductive ArgumentType where
  | scalar (kind : ScalarKind) (presence : Presence)
  | enumeration (name : String) (values : List String) (presence : Presence)
  | input (name : String) (fields : List (InputField ArgumentType)) (presence : Presence)
  | list (item : ArgumentType) (presence : Presence)

/-- A named input object type. -/
structure InputShape where
  name : String
  fields : List (InputField ArgumentType)

namespace ArgumentType

/-- A value that may be absent or null and has no default. -/
def optional : Presence :=
  ⟨false, none⟩

/-- What a type says about absent and null values. -/
def presence : ArgumentType → Presence
  | .scalar _ presence => presence
  | .enumeration _ _ presence => presence
  | .input _ _ presence => presence
  | .list _ presence => presence

/-- The kind of a scalar type. -/
def scalarKind? : ArgumentType → Option ScalarKind
  | .scalar kind _ => some kind
  | _ => none

/-- The fields of an input object type. -/
def inputFields? : ArgumentType → Option (List (InputField ArgumentType))
  | .input _ fields _ => some fields
  | _ => none

/-- The text of a type, with an exclamation mark where a value is required. -/
def text : ArgumentType → String
  | .scalar kind presence => kind.name ++ mark presence
  | .enumeration name _ presence => name ++ mark presence
  | .input name _ presence => name ++ mark presence
  | .list item presence => "[" ++ item.text ++ "]" ++ mark presence
where
  /-- The mark of a required value. -/
  mark (presence : Presence) : String :=
    if presence.required then "!" else ""

/-- Fits a scalar. -/
def coerceScalar? : ScalarKind → Value → Option Value
  | .int, .int number => some (.int number)
  | .float, .int number => some (.float (Value.widen number))
  | .float, .float number => some (.float number)
  | .string, .string text => some (.string text)
  | .boolean, .bool truth => some (.bool truth)
  | .id, .string text => some (.string text)
  | .id, .int number => some (.string (Value.intText number))
  | _, _ => none

/-- Fits an enumeration value: one of the listed names, as itself or as a string. -/
def coerceName? (values : List String) : Value → Option Value
  | .enumeration name => if values.contains name then some (.enumeration name) else none
  | .string name => if values.contains name then some (.enumeration name) else none
  | _ => none

/-- Null fits where no value is required. -/
def refuseNull (presence : Presence) : Option Value :=
  if presence.required then none else some .null

mutual

/-- Fits a value to a type, or refuses it. -/
def coerce? : ArgumentType → Value → Option Value
  | .scalar kind presence, value =>
    if value.isNull then refuseNull presence else coerceScalar? kind value
  | .enumeration _ values presence, value =>
    if value.isNull then refuseNull presence else coerceName? values value
  | .input _ fields presence, value =>
    if value.isNull then refuseNull presence
    else match value with
      | .object members => (coerceFields? fields members []).map .object
      | _ => none
  | .list item presence, value =>
    if value.isNull then refuseNull presence
    else match value with
      | .list items => (items.mapM fun one => item.coerce? one).map .list
      | single => (item.coerce? single).map fun one => .list [one]

/-- Fits the members of an input object, field by field. Each field takes its member out
    of those that are left; a member that no field takes is refused. -/
def coerceFields? :
    List (InputField ArgumentType) → Members Value → Members Value → Option (Members Value)
  | [], left, fitted => if left.isEmpty then some fitted else none
  | ⟨name, member, type⟩ :: rest, left, fitted =>
    match left.value? name with
    | some value =>
      match type.coerce? value with
      | some one => coerceFields? rest (left.remove name) (fitted.put member one)
      | none => none
    | none =>
      match type.presence.default? with
      | some default => coerceFields? rest left (fitted.put member default)
      | none => if type.presence.required then none else coerceFields? rest left fitted

end

end ArgumentType

end StagedQuery
