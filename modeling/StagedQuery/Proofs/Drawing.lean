import StagedQuery.Placeholder

/-!
# Constructions that draw placeholders

A construction is run from a supply, the next number that was not drawn. What it
yields is stated for every supply; what it draws is stated by the supply that it
leaves.
-/

namespace StagedQuery.Drawing

variable {α β : Type}

/-- A plain value draws nothing. -/
theorem run_pure (value : α) (supply : Nat) :
    (pure value : Drawing α) supply = (value, supply) := rfl

/-- A sequence draws on from where its first part stopped. -/
theorem run_bind (first : Drawing α) (next : α → Drawing β) (supply : Nat) :
    (first >>= next) supply = next (first supply).1 (first supply).2 := rfl

/-- Changing what was drawn draws nothing. -/
theorem run_map (change : α → β) (drawing : Drawing α) (supply : Nat) :
    (change <$> drawing) supply = (change (drawing supply).1, (drawing supply).2) := rfl

/-! ## What is yielded -/

/-- The result has a property, from whatever supply it is drawn. -/
def Yields (property : α → Prop) (drawing : Drawing α) : Prop :=
  ∀ supply, property (drawing supply).1

/-- A plain value has a property if the value does. -/
theorem yields_pure {property : α → Prop} {value : α} (holds : property value) :
    Yields property (pure value : Drawing α) :=
  fun _ => holds

/-- What a sequence yields has a property if its second part yields that from everything that the
    first may yield. -/
theorem Yields.bind {property : α → Prop} {goal : β → Prop} {first : Drawing α}
    {next : α → Drawing β} (yields : Yields property first)
    (rest : ∀ value, property value → Yields goal (next value)) :
    Yields goal (first >>= next) :=
  fun supply => rest _ (yields supply) _

/-- A changed value has a property if the change gives it to everything that may have been
    drawn. -/
theorem Yields.map {property : α → Prop} {goal : β → Prop} {drawing : Drawing α}
    {change : α → β} (yields : Yields property drawing)
    (rest : ∀ value, property value → goal (change value)) :
    Yields goal (change <$> drawing) :=
  fun supply => rest _ (yields supply)

/-- Nothing need be known of a result. -/
theorem yields_true (drawing : Drawing α) : Yields (fun _ => True) drawing :=
  fun _ => trivial

/-! ## What is drawn -/

/-- No number goes back to the supply. -/
def Passes (drawing : Drawing α) : Prop :=
  ∀ supply, supply ≤ (drawing supply).2

/-- A plain value takes no number back. -/
theorem passes_pure (value : α) : Passes (pure value : Drawing α) :=
  fun supply => Nat.le_refl supply

/-- A sequence takes no number back if none of its parts does. -/
theorem Passes.bind {first : Drawing α} {next : α → Drawing β} (passes : Passes first)
    (rest : ∀ value, Passes (next value)) : Passes (first >>= next) :=
  fun supply => Nat.le_trans (passes supply) (rest _ _)

/-- Drawing a placeholder takes one number and none back. -/
theorem passes_drawPlaceholder (name : String) (shape : Shape) :
    Passes (drawPlaceholder name shape) :=
  fun supply => Nat.le_succ supply

end StagedQuery.Drawing
