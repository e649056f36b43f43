import StagedQuery.Proofs.Refinement
import StagedQuery.Proofs.Selection.Meaning

/-!
# What a selection means in two stages

Of a field without services the first stage has found the value before the second selects
the members that call services. Where that value is a list, it is already cut: the second
stage looks at the items of the page only, while a full pass selects from all items and
cuts what it has selected.

The meaning in two stages differs from the plain meaning in nothing else. It refines the
plain meaning, exactly so if no list is cut.
-/

namespace StagedQuery

open Outcome

/-- A list may be cut before members are selected from its items. Then nothing is selected
    from what is cut off. -/
theorem refines_selectFrom_cutValue {exact : Prop} {isList : Bool} {cuts : List Cut}
    {later body : Value → Outcome Value} {source : Value}
    (objects : ∀ item result, (body item).result = .ok result →
      ∃ members, result = .object members)
    (each : ∀ item, Refines exact (later item) (body item))
    (whole : exact → isList = true → cuts = []) :
    Refines exact (cutValue cuts source >>= selectFrom isList later)
      (selectFrom isList body source >>= cutValue cuts) := by
  by_cases null : source = .null
  · subst null
    apply refines_of_eq
    simp only [cutValue_null, selectFrom_null, pure_bind]
  · cases isList with
    | false =>
      -- Only an object comes out of the selection, and no object can be cut.
      intro value succeeded
      obtain ⟨selected, found, cut⟩ := bind_result_eq_ok.mp succeeded
      rw [selectFrom_of_ne_null null] at found
      obtain ⟨members, rfl⟩ := objects source selected found
      obtain ⟨rfl, -⟩ := cutValue_object cut
      rw [cutValue_nil_eq, bind_pure, selectFrom_of_ne_null null] at succeeded
      rw [cutValue_nil_eq, bind_pure, pure_bind, selectFrom_of_ne_null null,
        selectFrom_of_ne_null null]
      exact each source value succeeded
    | true =>
      cases source with
      | list items =>
        have selected : Refines exact (mapItems later (cutItems cuts items))
            (mapItems body (cutItems cuts items)) :=
          refines_mapItems (List.forall₂_same.mpr fun item _ => each item)
        have cutFirst : Refines exact (mapItems body (cutItems cuts items))
            (cutItems cuts <$> mapItems body items) :=
          refines_mapItems_cutItems cuts (fun all => whole all rfl) items
        have listed := (selected.trans cutFirst).map Value.list
        rw [cutValue_list, pure_bind, selectFrom_list, selectFrom_list]
        simp only [map_eq_pure_bind, bind_assoc, pure_bind, cutValue_list] at listed ⊢
        exact listed
      | null => exact absurd rfl null
      | bool | int | float | string | enumeration | object =>
        intro value succeeded
        cases succeeded

namespace Outline

mutual

/-- The named values that two stages find for an outline over a value. Where a field calls
    no service itself, its value is cut before members are selected from it. -/
def staged (frame : Frame) : Outline → Value → Outcome (List (String × Value))
  | .scalar field, value => meaning frame (.scalar field) value
  | .selection field element isList children, value =>
    if field.callsService then meaning frame (.selection field element isList children) value
    else if (visibleAll children).isEmpty then pure []
    else do
      let source ← frame.valueOf field value >>= (frame.actions field).before
      let kept ← cutValue (frame.actions field).cuts source
      let result ← selectFrom isList
        (fun item => Value.ofPairs <$> stagedAll frame children item) kept
      pure [(field.name, result)]
  | .spread _ fields, value => stagedAll frame fields value
  | .endless, _ => pure []

/-- The named values that two stages find for some outlines, in order. -/
def stagedAll (frame : Frame) : List Outline → Value → Outcome (List (String × Value))
  | [], _ => pure []
  | first :: rest, value => do
    let own ← staged frame first value
    let others ← stagedAll frame rest value
    pure (own ++ others)

end

variable {frame : Frame} {context : Placeholder} {outline : Outline} {outlines : List Outline}
  {exact : Prop}

/-- Some outlines in two stages refine what they mean if each does. -/
theorem refines_stagedAll {value : Value}
    (each : ∀ outline ∈ outlines, Refines exact (staged frame outline value)
      (meaning frame outline value)) :
    Refines exact (stagedAll frame outlines value) (meaningAll frame outlines value) := by
  induction outlines with
  | nil => exact refines_refl _
  | cons first rest ih =>
    have later := ih fun outline inside => each outline (by simp [inside])
    exact (each first (by simp)).bind fun own => later.bind fun others => refines_refl _

/-- An outline in two stages refines what the outline means, exactly so if no list is cut.

    Proof: induction on the outline. A field that calls a service itself means the same, and
    with it everything below. -/
theorem Suits.refines_staged (suits : Suits frame context outline)
    (whole : exact → ∀ field, SelectionTree.selectsList field = true →
      (frame.actions field).cuts = []) (value : Value) :
    Refines exact (staged frame outline value) (meaning frame outline value) := by
  induction suits generalizing value with
  | scalar fits => exact refines_refl _
  | @selection field element isList children fits selects lists distinct below ih =>
    simp only [staged]
    split
    · exact refines_refl _
    · simp only [meaning]
      split
      · exact refines_refl _
      · have items (item : Value) : Refines exact (Value.ofPairs <$> stagedAll frame children item)
            (Value.ofPairs <$> meaningAll frame children item) :=
          (refines_stagedAll fun child inside => ih child inside item).map _
        have uncut : exact → isList = true → (frame.actions field).cuts = [] := by
          rintro all rfl
          exact whole all field lists.symm
        apply (refines_refl (frame.valueOf field value >>= (frame.actions field).before)).bind
        intro source
        have selected := @refines_selectFrom_cutValue _ _ _ _ _ source
          (fun item result => object_of_ofPairs) items uncut
        have named := selected.bind fun result => refines_refl (pure [(field.name, result)])
        simp only [bind_assoc] at named
        exact named
  | @spread field slot fields below ih =>
    exact refines_stagedAll fun child inside => ih child inside value

end Outline

end StagedQuery
