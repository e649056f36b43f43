import StagedQuery.Shape

/-!
# Placeholders

A placeholder stands for a value that is supplied when an expression is
evaluated. Placeholders are told apart by their number, never by their name.

Numbers come from a supply that every construction passes on, so two placeholders
drawn from one supply differ, and a construction run again from the same supply
draws the same placeholders.
-/

namespace StagedQuery

/-- A placeholder for a value of a shape. -/
structure Placeholder where
  number : Nat
  name : String
  shape : Shape

/-- Placeholders are equal when their numbers are. -/
def Placeholder.is (left right : Placeholder) : Bool :=
  left.number == right.number

/-- A construction that draws placeholders; the state is the next number. -/
abbrev Drawing := StateM Nat

/-- Draws a new placeholder. -/
def drawPlaceholder (name : String) (shape : Shape) : Drawing Placeholder :=
  fun next => (⟨next, name, shape⟩, next + 1)

end StagedQuery
