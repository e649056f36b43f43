import StagedQuery.Proofs.Selection.Frame
import StagedQuery.Proofs.Selection.Names
import StagedQuery.Proofs.Selection.Placement

/-!
# What a selection means

The meaning of a selection is stated without placeholders and without passes: a field is
evaluated over a value, its hooks act on the result, and its members are selected from
the result or from each of its items. A spread means what its fields mean over the same
value.

A full pass computes this meaning, from whatever supply it draws and wherever the fields
of fragments are moved to. It is the common ground on which passes are compared.
-/

namespace StagedQuery

namespace Outline

/-! ## What outlines mean -/

mutual

/-- The named values that an outline stands for over a value. A selection of nothing is
    left out. -/
def meaning (frame : Frame) : Outline → Value → Outcome (List (String × Value))
  | .scalar field, value => do
    let result ← frame.valueOf field value >>= (frame.actions field).onScalar
    pure [(field.name, result)]
  | .selection field _ isList children, value =>
    if (visibleAll children).isEmpty then pure []
    else do
      let source ← frame.valueOf field value >>= (frame.actions field).before
      let selected ← selectFrom isList
        (fun item => Value.ofPairs <$> meaningAll frame children item) source
      let result ← cutValue (frame.actions field).cuts selected
      pure [(field.name, result)]
  | .spread _ fields, value => meaningAll frame fields value
  | .endless, _ => pure []

/-- The named values that some outlines stand for, in order. -/
def meaningAll (frame : Frame) : List Outline → Value → Outcome (List (String × Value))
  | [], _ => pure []
  | first :: rest, value => do
    let own ← meaning frame first value
    let others ← meaningAll frame rest value
    pure (own ++ others)

end

/-- An outline that can be evaluated in a frame over a placeholder: its fields are written
    over the placeholder, the members of a selection over the placeholder of the field and
    those of a spread over that of its fragment, lists are taken item by item, and no
    selection repeats a name. -/
inductive Suits (frame : Frame) : Placeholder → Outline → Prop where
  | scalar {field : Field} (fits : frame.Fits field) : Suits frame field.context (.scalar field)
  | selection {field : Field} {element : Placeholder} {isList : Bool} {children : List Outline}
      (fits : frame.Fits field) (selects : field.element? = some element)
      (lists : isList = SelectionTree.selectsList field)
      (distinct : ((expandedAll children).map Field.name).Nodup)
      (below : ∀ child ∈ children, Suits frame element child) :
      Suits frame field.context (.selection field element isList children)
  | spread {field : Field} {slot : Placeholder} {fields : List Outline}
      (below : ∀ child ∈ fields, Suits frame slot child) :
      Suits frame field.context (.spread field fields)

variable {frame : Frame} {context : Placeholder} {outline : Outline} {outlines : List Outline}
  {options : PassOptions} {base? : Option Placeholder} {env : Environment} {value : Value}
  {supply : Nat}

/-- An outline whose fields all fit a frame suits it where it was written, if it repeats no
    name. -/
theorem WrittenOver.suits (written : WrittenOver context outline)
    (fits : ∀ field ∈ outline.fields, frame.Fits field) (distinct : outline.Distinct) :
    Suits frame context outline := by
  induction written with
  | scalar => exact .scalar (fits _ (by simp [fields]))
  | selection selects lists below ih =>
    refine .selection (fits _ (by simp [fields])) selects lists distinct.1 ?_
    intro child inside
    refine ih child inside ?_ (distinctBelow_iff.mp distinct.2 child inside)
    intro field deeper
    exact fits field (List.mem_cons_of_mem _ (mem_allFields.mpr ⟨child, inside, deeper⟩))
  | @spread field slot inner below ih =>
    have each : ∀ child ∈ inner, Suits frame slot child := by
      intro child inside
      refine ih child inside ?_ (distinctBelow_iff.mp distinct child inside)
      intro field deeper
      exact fits field (List.mem_cons_of_mem _ (mem_allFields.mpr ⟨child, inside, deeper⟩))
    exact .spread each

/-! ## What passes draw -/

/-- Some outlines take nothing back if none of them does. -/
theorem passes_contributeAll
    (each : ∀ outline ∈ outlines, Drawing.Passes (outline.contribute options base?)) :
    Drawing.Passes (contributeAll options base? outlines) := by
  induction outlines with
  | nil => exact Drawing.passes_pure []
  | cons first rest ih =>
    simp only [contributeAll]
    apply (each first (by simp)).bind
    intro own
    apply (ih fun outline inside => each outline (by simp [inside])).bind
    intro others
    exact Drawing.passes_pure _

/-- The source of a selection takes nothing back if the hooks around the field do not. -/
theorem passes_drawSource {field : Field} (fits : frame.Fits field)
    (element : Placeholder) (isList : Bool) (base? : Option Placeholder) (options : PassOptions) :
    Drawing.Passes (field.drawSource element isList base? options) := by
  unfold Field.drawSource
  simp only
  split
  · refine Drawing.Passes.bind ?_ fun fresh => Drawing.passes_pure _
    unfold drawFreshElement Expr.drawElement
    split <;> exact Drawing.passes_drawPlaceholder _ _
  · exact Drawing.Passes.bind (fun supply => fits.acts.before.passed _ supply) fun source =>
      Drawing.passes_pure _

/-- A selection takes nothing back if its source, its members and its last hooks do not. -/
theorem passes_contribute_selection {field : Field} {element : Placeholder} {isList : Bool}
    {children : List Outline}
    (source : Drawing.Passes (field.drawSource element isList base? options))
    (below : ∀ options, Drawing.Passes (contributeAll options none children))
    (after : ∀ expr, Drawing.Passes (Extension.adjustAll Extension.afterSelection field.name
      field.arguments field.extensions expr)) :
    Drawing.Passes (contribute options base? (.selection field element isList children)) := by
  simp only [contribute]
  split
  · exact Drawing.passes_pure _
  · apply source.bind
    intro found
    apply (below _).bind
    intro members
    split
    · exact Drawing.passes_pure _
    · split
      · exact (after _).bind fun value => Drawing.passes_pure _
      · exact Drawing.passes_pure _

/-- What an outline contributes to a pass takes no number back. -/
theorem Suits.passes (suits : Suits frame context outline) (options : PassOptions)
    (base? : Option Placeholder) : Drawing.Passes (outline.contribute options base?) := by
  induction suits generalizing options base? with
  | scalar fits =>
    simp only [contribute, Field.contributeScalar]
    split
    · exact Drawing.passes_pure _
    · split
      · exact Drawing.passes_pure _
      · exact Drawing.Passes.bind (fun supply => fits.acts.onScalar.passed _ supply) fun value =>
          Drawing.passes_pure _
  | selection fits selects lists distinct below ih =>
    apply passes_contribute_selection (passes_drawSource fits _ _ _ _)
    · intro inner
      exact passes_contributeAll fun child inside => ih child inside inner none
    · intro expr supply
      exact fits.acts.after.passed expr supply
  | spread below ih =>
    simp only [contribute]
    exact passes_contributeAll fun child inside => ih child inside _ _

/-! ## Full passes -/

/-- What a selection contributes that is evaluated from data: nothing, or one expression
    that selects the members which the children contribute to the same pass. -/
theorem contribute_selection_fromData {field : Field} {element : Placeholder} {isList : Bool}
    {children : List Outline} (fits : frame.Fits field)
    (below : ∀ child ∈ children, Suits frame element child)
    (stays : (options.leavingOut && field.callsService) = false)
    (unknown : field.known? options = none) (moves : frame.Moves field base? options env value)
    (supplied : env.value? frame.slot = some frame.supplied) (passed : frame.supply ≤ supply) :
    ∃ middle members expr, frame.supply ≤ middle ∧
      members = Members.firsts
        (contributeAll ⟨options.leavingOut, none, false⟩ none children middle).1 ∧
      (contribute options base? (.selection field element isList children) supply).1 =
        (if members.isEmpty && !(options.leavingOut && anyServices? children == some true) then []
          else [(field.name, expr)]) ∧
      expr.evaluate frame.provider env =
        (frame.valueOf field value >>= (frame.actions field).before) >>= (fun source =>
          selectFrom isList (fun item =>
            Expr.evaluateObject frame.provider members (env.bind element item)) source >>=
              cutValue (frame.actions field).cuts) ∧
      expr.shape =
        selectionShape (element.shape.objectName?.getD field.name) isList members := by
  obtain ⟨source, middle, drawn, enough, evaluated⟩ :=
    @Frame.drawSource_fromData _ _ _ base? options _ _ fits element isList unknown moves supplied
      passed
  simp only [contribute, stays, Bool.false_eq_true, ↓reduceIte, Drawing.run_bind, drawn]
  let inner : PassOptions := ⟨options.leavingOut, none, false⟩
  let members := Members.firsts (contributeAll inner none children middle).1
  let after := (contributeAll inner none children middle).2
  let selected := (SelectionSource.mk source element none true).select field.name isList members
  have passedBelow : Drawing.Passes (contributeAll inner none children) := by
    apply passes_contributeAll
    intro child inside
    exact (below child inside).passes _ _
  have enoughAfter : frame.supply ≤ after := Nat.le_trans enough (passedBelow middle)
  refine ⟨middle, members, (Extension.adjustAll Extension.afterSelection field.name
    field.arguments field.extensions selected after).1, enough, rfl, ?_, ?_, ?_⟩
  · split <;> rfl
  · rw [fits.acts.after.evaluate _ _ _ (Nat.lt_of_lt_of_le frame.slot_lt enoughAfter) supplied,
      SelectionSource.evaluate_select, evaluated, bind_assoc]
  · rw [fits.acts.shape, SelectionSource.shape_select]

/-- The contributions to a pass that leaves nothing out are gathered as they are, and there
    are none exactly if nothing is visible. -/
theorem firsts_contributeAll (whole : options.leavingOut = false)
    (distinct : ((expandedAll outlines).map Field.name).Nodup) (base? : Option Placeholder)
    (supply : Nat) :
    Members.firsts (contributeAll options base? outlines supply).1 =
        (contributeAll options base? outlines supply).1 ∧
      (contributeAll options base? outlines supply).1.isEmpty =
        (visibleAll outlines).isEmpty := by
  have names : (contributeAll options base? outlines supply).1.map Prod.fst =
      visibleAll outlines :=
    names_contributeAll (fun outline _ => names_contribute outline base? (.inl whole)) supply
  constructor
  · apply Members.firsts_of_distinct
    unfold Members.Distinct Members.names
    rw [names]
    exact nodup_visibleAll distinct
  · rw [← names, List.isEmpty_map]

/-- Some outlines are evaluated to what they mean if each is. -/
theorem evaluate_contributeAll (suits : ∀ outline ∈ outlines, Suits frame context outline)
    (passed : frame.supply ≤ supply)
    (each : ∀ outline ∈ outlines, ∀ supply, frame.supply ≤ supply →
      Expr.evaluateFields frame.provider (outline.contribute options base? supply).1 env =
        outline.meaning frame value) :
    Expr.evaluateFields frame.provider (contributeAll options base? outlines supply).1 env =
      meaningAll frame outlines value := by
  induction outlines generalizing supply with
  | nil => rfl
  | cons first rest ih =>
    simp only [contributeAll, Drawing.run_bind, Drawing.run_pure, meaningAll]
    have later : frame.supply ≤ (contribute options base? first supply).2 :=
      Nat.le_trans passed ((suits first (by simp)).passes options base? supply)
    rw [Expr.evaluateFields_append, each first (by simp) supply passed]
    rw [ih (fun outline inside => suits outline (by simp [inside])) later
      fun outline inside => each outline (by simp [inside])]

/-- A selection that is evaluated from data, of children that are evaluated to what they
    mean, has the meaning of the selection. -/
theorem evaluate_selection_fromData {field : Field} {element : Placeholder} {isList : Bool}
    {children : List Outline} (fits : frame.Fits field)
    (below : ∀ child ∈ children, Suits frame element child)
    (distinct : ((expandedAll children).map Field.name).Nodup)
    (whole : options.leavingOut = false)
    (unknown : field.known? options = none) (moves : frame.Moves field base? options env value)
    (supplied : env.value? frame.slot = some frame.supplied) (passed : frame.supply ≤ supply)
    (each : ∀ child ∈ children, ∀ item supply, frame.supply ≤ supply →
      Expr.evaluateFields frame.provider (child.contribute .full none supply).1
        (env.bind element item) = child.meaning frame item) :
    Expr.evaluateFields frame.provider
        (contribute options base? (.selection field element isList children) supply).1 env =
      (Outline.selection field element isList children).meaning frame value := by
  have stays : (options.leavingOut && field.callsService) = false := by simp [whole]
  obtain ⟨middle, members, expr, enough, gathered, contributed, evaluated, -⟩ :=
    @contribute_selection_fromData _ _ base? _ _ _ _ element isList children fits below stays
      unknown moves supplied passed
  have inner : (⟨options.leavingOut, none, false⟩ : PassOptions) = .full := by
    rw [whole]
    rfl
  rw [inner] at gathered
  obtain ⟨kept, empty⟩ :=
    firsts_contributeAll (show PassOptions.full.leavingOut = false from rfl) distinct none middle
  rw [kept] at gathered
  rw [contributed, whole, gathered, empty]
  simp only [Bool.false_and, Bool.not_false, Bool.and_true, meaning]
  split
  · rfl
  · have items (item : Value) :
        Expr.evaluateObject frame.provider members (env.bind element item) =
          Value.ofPairs <$> meaningAll frame children item := by
      rw [Expr.evaluateObject, gathered]
      exact congrArg _ (evaluate_contributeAll below enough fun child inside =>
        each child inside item)
    simp only [Expr.evaluateFields, evaluated, items, bind_assoc, pure_bind]

/-- A full pass over source data evaluates to the meaning of the outlines, from whatever
    supply it draws and wherever the fields of a fragment are moved to.

    Proof: induction on the outline. The children of a selection are evaluated over the
    placeholder of the selection, and the fields of a spread where the spread itself is. -/
theorem Suits.evaluate_full (suits : Suits frame context outline)
    (whole : options.leavingOut = false) (fromData : options.replacement? = none)
    (owned : frame.owners (base?.getD context))
    (gives : frame.Gives env (base?.getD context) value) (passed : frame.supply ≤ supply) :
    Expr.evaluateFields frame.provider (outline.contribute options base? supply).1 env =
      outline.meaning frame value := by
  induction suits generalizing options base? env value supply with
  | @scalar field fits =>
    obtain ⟨expr, contributed, evaluated⟩ := Frame.contributeScalar_fromData fits
      (by simp [whole]) (field.known?_of_fromData fromData)
      (Frame.moves_of_fromData fits fromData owned gives) gives.supplied passed
    simp only [contribute, contributed, Expr.evaluateFields, evaluated, meaning, pure_bind]
  | @selection field element isList children fits selects lists distinct below ih =>
    have owned' : frame.owners element := fits.element element selects
    refine evaluate_selection_fromData fits below distinct whole (field.known?_of_fromData fromData)
      (Frame.moves_of_fromData fits fromData owned gives) gives.supplied passed ?_
    intro child inside item supply enough
    exact ih child inside rfl rfl owned'
      (Frame.gives_bind gives.supplied (frame.owner_ne element owned') item) enough
  | @spread field slot fields below ih =>
    simp only [contribute, meaning]
    apply evaluate_contributeAll below passed
    intro child inside supply enough
    exact ih child inside whole fromData owned gives enough

end Outline

end StagedQuery
