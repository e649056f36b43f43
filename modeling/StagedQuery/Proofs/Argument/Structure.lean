import StagedQuery.Argument.Coercion

/-!
# The structure of argument types

A type is followed by induction on it, with one hypothesis for all fields of an input object.
What is assumed of the input objects of a type is assumed of them at every depth, below lists
and fields, and so is what is assumed of the defaults of their fields.
-/

namespace StagedQuery.ArgumentType

/-- Induction over the forms of a type. -/
@[elab_as_elim]
theorem induction {motive : ArgumentType → Prop}
    (scalar : ∀ kind presence, motive (.scalar kind presence))
    (enumeration : ∀ name values presence, motive (.enumeration name values presence))
    (input : ∀ name fields presence, (∀ field ∈ fields, motive field.type) →
      motive (.input name fields presence))
    (list : ∀ item presence, motive item → motive (.list item presence))
    (type : ArgumentType) : motive type := by
  refine @ArgumentType.rec motive (fun fields => ∀ field ∈ fields, motive field.type)
    (fun field => motive field.type) scalar enumeration input list ?_ ?_ ?_ type
  all_goals simp_all

mutual

/-- The fields of each input object that a type mentions, at every depth. -/
def inputObjects : ArgumentType → List (List (InputField ArgumentType))
  | .scalar _ _ => []
  | .enumeration _ _ _ => []
  | .input _ fields _ => fields :: inputObjectsBelow fields
  | .list item _ => item.inputObjects

/-- The fields of each input object that some fields mention. -/
def inputObjectsBelow : List (InputField ArgumentType) → List (List (InputField ArgumentType))
  | [] => []
  | ⟨_, _, type⟩ :: rest => type.inputObjects ++ inputObjectsBelow rest

end

/-- An input object stands below some fields exactly if it stands in the type of one of them. -/
theorem mem_inputObjectsBelow {object : List (InputField ArgumentType)}
    {fields : List (InputField ArgumentType)} :
    object ∈ inputObjectsBelow fields ↔ ∃ field ∈ fields, object ∈ field.type.inputObjects := by
  induction fields with
  | nil => simp [inputObjectsBelow]
  | cons first rest ih => simp [inputObjectsBelow, ih]

/-- What holds of every input object of an input object type holds of its own fields and of what
    each of them mentions. -/
theorem forall_inputObjects_input {property : List (InputField ArgumentType) → Prop}
    {name : String} {fields : List (InputField ArgumentType)} {presence : Presence} :
    (∀ object ∈ (input name fields presence).inputObjects, property object) ↔
      property fields ∧ ∀ field ∈ fields, ∀ object ∈ field.type.inputObjects, property object := by
  simp only [inputObjects, List.forall_mem_cons, mem_inputObjectsBelow]
  grind

/-! ## Defaults -/

/-- Whether the default of each of some fields satisfies a condition. -/
def DefaultsSatisfy (condition : ArgumentType → Value → Prop)
    (fields : List (InputField ArgumentType)) : Prop :=
  ∀ field ∈ fields, ∀ default, field.type.presence.default? = some default →
    condition field.type default

/-- If the defaults of some fields satisfy a condition, so do those of fewer fields. -/
theorem DefaultsSatisfy.mono {condition : ArgumentType → Value → Prop}
    {fields fewer : List (InputField ArgumentType)} (all : DefaultsSatisfy condition fields)
    (among : fewer ⊆ fields) : DefaultsSatisfy condition fewer :=
  fun field inside => all field (among inside)

end StagedQuery.ArgumentType
