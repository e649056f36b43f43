import StagedQuery.Value.Basic

/-!
# Capabilities

A capability is an externally resolved dependency, identified by the full name of
its type. An instance carries the capability it belongs to and its state. A
provider answers a capability with an instance, which need not belong to that
capability: whoever calls an instance checks it first.
-/

namespace StagedQuery

/-- The identity of a capability: the full name of its type. -/
structure Capability where
  name : String
  deriving DecidableEq, Repr

/-- The characters after the last `::`, or all of them. The second argument is the
    answer if no further separator is met. -/
def lastSegment : List Char → List Char → List Char
  | ':' :: ':' :: rest, _ => lastSegment (':' :: rest) rest
  | _ :: rest, answer => lastSegment rest answer
  | [], answer => answer

/-- The last segment of a capability's name, by which messages call it. -/
def Capability.shortName (capability : Capability) : String :=
  let chars := capability.name.toList
  String.ofList (lastSegment chars chars)

example : (Capability.mk "shop::Pool<shop::Db>").shortName = "Db>" := by decide +kernel

/-- An instance of a capability. -/
structure Instance where
  capability : Capability
  state : Value

/-- Whether an instance belongs to a capability. -/
def Capability.matches (capability : Capability) (found : Instance) : Bool :=
  found.capability == capability

/-- Answers capabilities with instances. -/
abbrev Provider := Capability → Option Instance

/-- The provider that answers nothing. -/
def Provider.none : Provider :=
  fun _ => Option.none

/-- Instances registered by capability; a later registration replaces an earlier one. -/
structure Capabilities where
  entries : List (Capability × Value)

namespace Capabilities

/-- No registered instance. -/
def empty : Capabilities :=
  ⟨[]⟩

/-- Registers the state of an instance. -/
def register (registry : Capabilities) (capability : Capability) (state : Value) : Capabilities :=
  ⟨(capability, state) :: registry.entries.filter (·.1 ≠ capability)⟩

/-- The instance registered for a capability. -/
def resolve (registry : Capabilities) (capability : Capability) : Option Instance :=
  (registry.entries.find? (·.1 = capability)).map fun entry => ⟨capability, entry.2⟩

/-- The state of the instance registered for a capability. -/
def state? (registry : Capabilities) (capability : Capability) : Option Value :=
  (registry.resolve capability).map Instance.state

/-- How many capabilities have an instance. -/
def size (registry : Capabilities) : Nat :=
  registry.entries.length

/-- The provider that answers from a registry. -/
def provider (registry : Capabilities) : Provider :=
  registry.resolve

/-- The summary of a registry, which shows its size only. -/
def summary (registry : Capabilities) : String :=
  "Capabilities \x7b len: " ++ toString registry.size ++ " \x7d"

end Capabilities

end StagedQuery
