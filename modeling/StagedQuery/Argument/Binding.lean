import StagedQuery.Argument.Coercion
import StagedQuery.Expr.Basic
import StagedQuery.Fault

/-!
# Binding request arguments

A field declares a table of bindings. Binding a request against the table resolves
variables, fills in defaults and coerces every value; the result maps members to
values and remembers which member came from which variable. Once such a set reads
variables from a placeholder, the expression of a member that came from a variable
is a read of that placeholder, so that one compiled query serves every set of
variables.

Of several faults the first undeclared argument is reported, otherwise the fault
of the first binding in table order.
-/

namespace StagedQuery

/-- One entry of a field's table of arguments. -/
structure Binding where
  schemaName : String
  member : String
  type : ArgumentType

/-- An argument as written in a request. -/
inductive ArgumentValue where
  | literal (value : Value)
  | fromVariable (name : String)

/-- The arguments of one request, in the order in which they are written. -/
structure Request where
  entries : List (String × ArgumentValue)

namespace Request

/-- A request without arguments. -/
def empty : Request :=
  ⟨[]⟩

/-- The first argument of a name. -/
def value? (request : Request) (name : String) : Option ArgumentValue :=
  Members.value? request.entries name

/-- Whether nothing is written. -/
def isEmpty (request : Request) : Bool :=
  request.entries.isEmpty

end Request

/-- The values of document variables. -/
structure Variables where
  values : Members Value

namespace Variables

/-- No variables. -/
def empty : Variables :=
  ⟨[]⟩

/-- The value of a variable. -/
def value? (supplied : Variables) (name : String) : Option Value :=
  supplied.values.value? name

/-- Adds every variable of `other`, replacing those of the same name. -/
def merge (supplied other : Variables) : Variables :=
  ⟨supplied.values.putAll other.values⟩

/-- The variables as an object. -/
def toValue (supplied : Variables) : Value :=
  .object supplied.values

end Variables

/-- The variable that a member was bound from, and the type it was bound with. -/
structure VariableSource where
  origin : String
  type : ArgumentType

/-- Bound and coerced arguments by member. -/
structure ArgumentSet where
  values : Members Value
  sources : Members VariableSource
  placeholder? : Option Placeholder

namespace ArgumentSet

/-- No arguments. -/
def empty : ArgumentSet :=
  ⟨[], [], none⟩

/-- Literal arguments. -/
def ofMembers (values : Members Value) : ArgumentSet :=
  ⟨values, [], none⟩

/-- The value of a member. -/
def value? (arguments : ArgumentSet) (member : String) : Option Value :=
  arguments.values.value? member

/-- Whether a member is bound. -/
def has (arguments : ArgumentSet) (member : String) : Bool :=
  arguments.values.has member

/-- Whether no member is bound. -/
def isEmpty (arguments : ArgumentSet) : Bool :=
  arguments.values.isEmpty

/-- Sets a member to a literal value; it no longer comes from a variable. -/
def set (arguments : ArgumentSet) (member : String) (value : Value) : ArgumentSet :=
  { arguments with
    values := arguments.values.put member value
    sources := arguments.sources.remove member }

/-- The arguments as an object. -/
def toValue (arguments : ArgumentSet) : Value :=
  .object arguments.values

/-- The variable that a member was bound from. -/
def sourceOf? (arguments : ArgumentSet) (member : String) : Option String :=
  (arguments.sources.value? member).map VariableSource.origin

/-- Reads variables from a placeholder from now on. -/
def readVariablesFrom (arguments : ArgumentSet) (slot : Placeholder) : ArgumentSet :=
  { arguments with placeholder? := some slot }

/-- The read of the variable that a member was bound from, with the type of the member. -/
def variableRead? (arguments : ArgumentSet) (member : String) : Option (Expr × ArgumentType) :=
  match arguments.placeholder?, arguments.sources.value? member with
  | some slot, some source => some ((Expr.read slot).get source.origin, source.type)
  | _, _ => none

/-- Converts a read to the kind of a scalar type; other types are read as they are. -/
def convertRead (type : ArgumentType) (read : Expr) : Expr :=
  match type.scalarKind? with
  | some kind => .convert read kind
  | none => read

/-- The expression of a member: a read of its variable if it came from one and variables
    are read from a placeholder, its value otherwise. -/
def expr (arguments : ArgumentSet) (member : String) : Expr :=
  match arguments.variableRead? member with
  | some (read, type) => convertRead type read
  | none => .constant ((arguments.value? member).getD .null)

/-- The expression of a member inside an input object. In a variable the member stands
    under the name of the field that becomes it. -/
def memberExpr (arguments : ArgumentSet) (member name : String) : Expr :=
  match arguments.variableRead? member with
  | some (read, type) =>
    match (type.inputFields?.getD []).find? (·.member = name) with
    | some field => convertRead field.type (read.get field.name)
    | none => read.get name
  | none => .constant (((arguments.value? member).map (·.member name)).getD .null)

/-- What one binding finds for its member: the value to coerce and the variable that it
    came from. -/
def chosen? (field : String) (binding : Binding) (request : Request)
    (supplied : Option Variables) : Except CompileFault (Option (Value × Option String)) :=
  match request.value? binding.schemaName with
  | some (.literal value) => .ok (some (value, none))
  | some (.fromVariable name) =>
    match supplied.bind (·.value? name) with
    | some value => .ok (some (value, some name))
    | none => .error (.undefinedVariable name)
  | none =>
    match binding.type.presence.default? with
    | some default => .ok (some (default, none))
    | none =>
      if binding.type.presence.required then .error (.missingArgument field binding.schemaName)
      else .ok none

/-- Adds what one binding finds. -/
def bindOne (field : String) (request : Request) (supplied : Option Variables)
    (arguments : ArgumentSet) (binding : Binding) : Except CompileFault ArgumentSet := do
  match ← chosen? field binding request supplied with
  | none => pure arguments
  | some (value, origin) =>
    match binding.type.coerce? value with
    | some fitted =>
      pure { arguments with
        values := arguments.values.put binding.member fitted
        sources := match origin with
          | some name => arguments.sources.put binding.member ⟨name, binding.type⟩
          | none => arguments.sources }
    | none =>
      throw (.invalidArgument field binding.schemaName binding.type.text value.kindName)

/-- Binds a request against a table. -/
def bind (field : String) (table : List Binding) (request : Request)
    (supplied : Option Variables) : Except CompileFault ArgumentSet :=
  match request.entries.find? fun entry => table.all (·.schemaName ≠ entry.1) with
  | some (name, _) => .error (.unknownArgument field name)
  | none => table.foldlM (bindOne field request supplied) empty

end ArgumentSet

end StagedQuery
