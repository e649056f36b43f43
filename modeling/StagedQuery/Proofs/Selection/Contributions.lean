import StagedQuery.Selection.Pass
import StagedQuery.Proofs.Drawing
import StagedQuery.Proofs.Members

/-!
# Properties of what a pass contributes

A property of every contributed name and expression is kept by everything that a pass does
with contributions: it appends them, gathers the first of each name and makes an object of
them.
-/

namespace StagedQuery

/-- Every contributed expression has a property together with its name. -/
def Contributions.Each (property : String → Expr → Prop) (contributions : Contributions) : Prop :=
  ∀ name expr, (name, expr) ∈ contributions → property name expr

namespace Contributions

variable {property : String → Expr → Prop} {contributions left right : Contributions}

/-- Without contributions every property holds of them. -/
theorem each_nil : Each property [] := by
  intro name expr inside
  cases inside

/-- What holds of one contribution holds of it alone. -/
theorem each_singleton {name : String} {expr : Expr} (own : property name expr) :
    Each property [(name, expr)] := by
  intro other found inside
  cases List.mem_singleton.mp inside
  exact own

/-- What holds of two parts of the contributions holds of both together. -/
theorem Each.append (first : left.Each property) (later : right.Each property) :
    Contributions.Each property (left ++ right) := by
  intro name expr inside
  rcases List.mem_append.mp inside with before | after
  · exact first name expr before
  · exact later name expr after

/-- What holds of all contributions holds of the first of each name. -/
theorem Each.firsts (each : contributions.Each property) :
    Contributions.Each property (Members.firsts contributions) := by
  intro name expr inside
  exact each name expr (Members.mem_of_mem_firsts inside)

end Contributions

/-- What each of some outlines contributes, all of them contribute. -/
theorem Outline.each_contributeAll {property : String → Expr → Prop} {outlines : List Outline}
    {options : PassOptions} {base? : Option Placeholder}
    (each : ∀ outline ∈ outlines,
      Drawing.Yields (Contributions.Each property) (outline.contribute options base?)) :
    Drawing.Yields (Contributions.Each property) (contributeAll options base? outlines) := by
  induction outlines with
  | nil => exact Drawing.yields_pure Contributions.each_nil
  | cons first rest ih =>
    have later := ih fun outline inside => each outline (by simp [inside])
    simp only [contributeAll]
    exact (each first (by simp)).bind fun own holds => later.bind fun others holdsToo =>
      Drawing.yields_pure (holds.append holdsToo)

/-! ## What a pass knows -/

/-- What a pass already knows of a field. -/
def Field.known? (field : Field) (options : PassOptions) : Option Expr :=
  options.replacement?.bind fun replacement =>
    if options.direct then some replacement else field.replaced? replacement

/-- A pass over source data knows nothing. -/
theorem Field.known?_of_fromData (field : Field) {options : PassOptions}
    (fromData : options.replacement? = none) : field.known? options = none := by
  simp [known?, fromData]

/-- Nothing is known of a field that calls a service. -/
theorem Field.known?_of_callsService {field : Field} {options : PassOptions}
    (indirect : options.direct = false) (calls : field.callsService = true) :
    field.known? options = none := by
  simp [known?, indirect, replaced?, calls]

end StagedQuery
