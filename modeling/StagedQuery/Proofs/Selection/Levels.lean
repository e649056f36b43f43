import StagedQuery.Proofs.Selection.Layout

/-!
# The levels of a full pass

Every pass that leaves nothing out selects the same at every level, whatever it reads from. A
level contributes the names of its expanded selection, in order and with repetitions, and its
object lists the first of each. So two full passes over one tree never differ in the names of a
level, and an object has no member that was not selected: what is extracted to feed services
belongs to passes that leave services out.

Hooks may put anything in the place of a finished selection. The levels are those of the
selections as they are handed to the hooks.
-/

namespace StagedQuery

/-- What a finished selection becomes: what the hooks of the field make of it if the field was
    evaluated from source data, and otherwise the selection itself. -/
def Field.Finishes (field : Field) (found : SelectionSource) (selected value : Expr) : Prop :=
  if found.fromData then
    ∃ supply, (Extension.adjustAll Extension.afterSelection field.name field.arguments
      field.extensions selected supply).1 = value
  else value = selected

namespace Outline

/-- What some outlines contribute and what the object of their level lists: the visible names in
    order, of each the first. All are names of fields of the expanded selection. -/
structure Lists (outlines : List Outline) (made : Contributions) : Prop where
  contributed : Members.names made = visibleAll outlines
  listed : (Members.firsts made).names = (visibleAll outlines).eraseDups
  selected : ∀ name ∈ (Members.firsts made).names, ∃ field ∈ expandedAll outlines,
    field.name = name

mutual

/-- Whether an outline contributes some members to a full pass: a scalar one of its name, a spread
    what the fields of its fragment do, and a field with members one of its name if its own
    selection contributes any. The object of such a field has the first contributions of each name
    below it, and is finished as the field says. -/
def Selects : Outline → Contributions → Prop
  | .scalar field, made => ∃ value, made = [(field.name, value)]
  | .selection field _ isList children, made =>
    ∃ below, SelectsAll children below ∧ Lists children below ∧
      if below.isEmpty then made = []
      else ∃ (found : SelectionSource) (value : Expr),
        field.Finishes found (found.select field.name isList (Members.firsts below)) value ∧
          made = [(field.name, value)]
  | .spread _ fields, made => SelectsAll fields made
  | .endless, made => made = []

/-- Whether some outlines contribute some members, one after the other. -/
def SelectsAll : List Outline → Contributions → Prop
  | [], made => made = []
  | first :: rest, made => ∃ own others, made = own ++ others ∧ Selects first own ∧
      SelectsAll rest others

end

variable {options : PassOptions} {outlines : List Outline} {made : Contributions}

/-! ## One level -/

/-- Where the visible names are contributed, the object of the level lists the first of each. -/
theorem lists_of_names (contributed : Members.names made = visibleAll outlines) :
    Lists outlines made := by
  have listed : (Members.firsts made).names = (visibleAll outlines).eraseDups := by
    rw [Members.names_firsts, ← contributed]
    rfl
  refine ⟨contributed, listed, fun name inside => ?_⟩
  rw [listed, List.mem_eraseDups] at inside
  have asked := visibleAll_sublist fun outline (_ : outline ∈ outlines) => outline.visible_sublist
  exact List.mem_map.mp (asked.subset inside)

/-- Each outline of a level contributes in turn. -/
theorem selectsAll_contributeAll {base? : Option Placeholder}
    (each : ∀ outline ∈ outlines,
      Drawing.Yields outline.Selects (outline.contribute options base?)) :
    Drawing.Yields (SelectsAll outlines) (contributeAll options base? outlines) := by
  induction outlines with
  | nil => exact Drawing.yields_pure rfl
  | cons first rest ih =>
    simp only [contributeAll]
    exact (each first (by simp)).bind fun own selects =>
      (ih fun outline inside => each outline (by simp [inside])).bind fun others later =>
        Drawing.yields_pure ⟨own, others, rfl, selects, later⟩

/-- A full pass contributes of every outline what it selects, whatever the pass reads from.

    Proof: induction on the outline. The pass over the children of a selection is full again, and
    the selection is left out exactly if none of them contributes. -/
theorem selects_contribute (outline : Outline) (whole : options.leavingOut = false)
    (base? : Option Placeholder) :
    Drawing.Yields outline.Selects (outline.contribute options base?) := by
  induction outline using Outline.induction generalizing options base? with
  | scalar field =>
    simp only [contribute, Field.contributeScalar, whole, Bool.false_and, Bool.false_eq_true,
      ↓reduceIte]
    split
    · exact Drawing.yields_pure ⟨_, rfl⟩
    · exact (Drawing.yields_true _).bind fun value _ => Drawing.yields_pure ⟨value, rfl⟩
  | selection field element isList children each =>
    simp only [contribute, whole, Bool.false_and, Bool.false_eq_true, ↓reduceIte, Bool.not_false,
      Bool.and_true, Members.isEmpty_firsts]
    refine (Drawing.yields_true _).bind fun found _ => ?_
    let inner : PassOptions := ⟨false, found.replacement?, false⟩
    have selects : Drawing.Yields (SelectsAll children) (contributeAll inner none children) :=
      selectsAll_contributeAll fun child inside => each child inside rfl none
    have level : Drawing.Yields (fun below => SelectsAll children below ∧ Lists children below)
        (contributeAll inner none children) :=
      fun supply => ⟨selects supply, lists_of_names (names_of_whole rfl)⟩
    refine level.bind fun below selected => ?_
    obtain ⟨selects, lists⟩ := selected
    split
    · rename_i nothing
      exact Drawing.yields_pure ⟨below, selects, lists, by rw [if_pos nothing]⟩
    · rename_i something
      have finished {value : Expr} (finishes : field.Finishes found
          (found.select field.name isList (Members.firsts below)) value) :
          Selects (.selection field element isList children) [(field.name, value)] := by
        refine ⟨below, selects, lists, ?_⟩
        rw [if_neg something]
        exact ⟨found, value, finishes, rfl⟩
      split
      · rename_i fromData
        intro supply
        refine finished ?_
        rw [Field.Finishes, if_pos fromData]
        exact ⟨supply, rfl⟩
      · rename_i known
        refine Drawing.yields_pure (finished ?_)
        rw [Field.Finishes, if_neg known]
  | spread field fields each =>
    simp only [contribute]
    exact selectsAll_contributeAll fun child inside => each child inside whole _
  | endless =>
    simp only [contribute]
    exact Drawing.yields_pure rfl

end Outline

namespace SelectionTree

/-- The full passes over an acyclic tree all select the same.

    Every pass that leaves nothing out comes to an end, whatever it reads from. Over the query
    fields it makes an object of the first contributions of each name, and it contributes and lists
    at every level what the outlines alone determine. So does such a pass over any one field, with
    any placeholder in place of its context. -/
theorem Acyclic.full_passes_select {tree : SelectionTree} (acyclic : tree.Acyclic) :
    (∀ options : PassOptions, options.leavingOut = false → ∀ supply,
      tree.operationPass? options = some (tree.operationPass options) ∧
        ∃ made, (tree.operationPass options supply).1 =
            .object tree.operationName (Members.firsts made) ∧
          Outline.Lists tree.queryOutlines made ∧ Outline.SelectsAll tree.queryOutlines made) ∧
      ∀ address outline, tree.outline? address = some outline →
        outline.isFinite false = true ∧
          ∀ options : PassOptions, options.leavingOut = false → ∀ base? supply,
            Members.names (outline.contribute options base? supply).1 = outline.visible ∧
              outline.Selects (outline.contribute options base? supply).1 := by
  constructor
  · intro options whole supply
    have ends : Outline.allFinite options.leavingOut tree.queryOutlines = true := by
      rw [whole]
      exact acyclic.allFinite_queryOutlines
    refine ⟨if_pos ends, _, rfl, Outline.lists_of_names (Outline.names_of_whole whole), ?_⟩
    exact Outline.selectsAll_contributeAll (fun outline _ => outline.selects_contribute whole none)
      supply
  · intro address outline outlined
    refine ⟨acyclic.isFinite_outline outlined, fun options whole base? supply => ⟨?_, ?_⟩⟩
    · exact outline.names_contribute base? (.inl whole) supply
    · exact outline.selects_contribute whole base? supply

/-- What an earlier pass has stored of a film: the film, and an id that feeds a service. -/
def storedFilm : Placeholder :=
  ⟨5, "stage1", .object "Query" [("film", ratedFilm), ("__id", .scalar .id)]⟩

/-- The film that is selected twice stands once in the object of the query fields, in a pass over
    source data and in one that reads what an earlier pass has stored; the stored id is not
    listed. -/
theorem full_passes_select_overlappingFilms :
    overlappingFilms.Acyclic ∧
      Outline.visibleAll overlappingFilms.queryOutlines = ["film", "film"] ∧
      ∀ options ∈ [PassOptions.full, .merging (.read storedFilm)],
        ∃ members : Members Expr, (overlappingFilms.operationPass options 6).1 =
            .object overlappingFilms.operationName members ∧ members.names = ["film"] := by
  refine ⟨acyclic_overlappingFilms, rfl, fun options inside => ?_⟩
  have whole : options.leavingOut = false := by
    simp only [List.mem_cons, List.not_mem_nil, or_false] at inside
    rcases inside with rfl | rfl <;> rfl
  obtain ⟨-, made, same, lists, -⟩ :=
    acyclic_overlappingFilms.full_passes_select.1 options whole 6
  exact ⟨_, same, lists.listed⟩

end SelectionTree

end StagedQuery
