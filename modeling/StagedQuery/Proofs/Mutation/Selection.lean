import StagedQuery.Proofs.Mutation.Execution
import StagedQuery.Proofs.Mutation.Result
import StagedQuery.Proofs.Selection.Shown
import StagedQuery.Proofs.Selection.Staging

/-!
# The selection of a mutation

The members that are selected from the result of a procedure are selected from it as those of
a field are from the value of the field. But the result is itself the root of the compiled
query: it is not found in an object of the first stage, the second stage takes the whole
value of the first for it.

Where the selection contributes something to a full pass, two stages find what the full pass
finds, under the one exception that the stages of an operation have too: a hollow selection
fails on a value that is reached, and the first stage with it. A selection that contributes
nothing stands for the result of the procedure. That is so in one stage. If a service is
called below it although, two stages yield what the first of them has stored instead: an
example closes this module, and the theorem is about other selections.
-/

namespace StagedQuery

open Outcome

namespace Outline

/-! ## Selections as callers write them -/

/-- What is selected from the value of a field or from its items. -/
def members : Outline → List Outline
  | .selection _ _ _ children => children
  | _ => []

/-- A field among the members of an outline is a field of the outline. -/
theorem mem_fields_of_members {outline : Outline} {field : Field}
    (inside : field ∈ allFields outline.members) : field ∈ outline.fields := by
  cases outline with
  | selection own element isList children => exact List.mem_cons_of_mem _ inside
  | scalar | spread | endless => cases inside

/-- The placeholders over which the members of a selection are written or could be. -/
def OwnsBelow (outline : Outline) (slot : Placeholder) : Prop :=
  (∃ field ∈ outline.fields, field.element? = some slot) ∨
    ∃ field ∈ allFields outline.members, field.context = slot

/-- A selection as callers are expected to write it: no name is repeated after the spreads are
    expanded, no name begins as the names of chains do, all extensions are built in, and the
    members read their own context and the variables and bind only what they draw. -/
structure Regular (outline : Outline) (variablesSlot : Placeholder) (supply : Nat) : Prop where
  distinct : outline.Distinct
  fieldNames : ∀ field ∈ allFields outline.members, isReserved field.name = false
  memberNames : ∀ owner, outline.OwnsBelow owner → ∀ name, owner.shape.hasMember name = true →
    isReserved name = false
  builtIn : ∀ field ∈ allFields outline.members,
    ∀ extension ∈ field.extensions, extension.BuiltIn
  closed : ∀ field ∈ allFields outline.members,
    field.Closed variablesSlot outline.OwnsBelow supply

end Outline

namespace SelectionTree

variable {tree : SelectionTree} {practice : Practice} {outline : Outline} {result : Placeholder}
  {supply : Nat}

/-! ## Stages -/

/-- The selection of a mutation in one full pass, run over what the procedure returned. A
    selection that contributes nothing stands for what was returned. -/
def runReturned (tree : SelectionTree) (outline : Outline) (name : String) (result : Placeholder)
    (supply : Nat) (returned supplied : Value) (provider : Provider) : Outcome Value :=
  ((Executable.ofExpr result
    ((ownContribution outline name .full supply).1.getD (.read result))).withVariables
      tree.variablesSlot).runWith returned supplied provider

/-- A selection without services is compiled to the full pass. -/
theorem runWith_compileSelection_of_single (noServices : outline.hasServices? ≠ some true)
    (name : String) (result : Placeholder) (supply : Nat) (returned supplied : Value)
    (provider : Provider) :
    (tree.compileSelection outline name result false supply).1.runWith returned supplied provider =
      some <$> tree.runReturned outline name result supply returned supplied provider := by
  have single : (outline.hasServices? == some true) = false := by simpa using noServices
  unfold compileSelection
  rw [single]
  rfl

/-- A selection with services is compiled to what it contributes without them and to what it
    contributes over the value of that. -/
theorem runWith_compileSelection_of_staged (services : outline.hasServices? = some true)
    (name : String) (result : Placeholder) (supply : Nat) (returned supplied : Value)
    (provider : Provider) {first : Expr} {after : Nat}
    (contributed : ownContribution outline name .withoutServices supply = (some first, after)) :
    let stock : Placeholder := ⟨after, "stage1", first.shape⟩
    let options : PassOptions := { PassOptions.merging (.read stock) with direct := true }
    (tree.compileSelection outline name result false supply).1.first =
        .compile result first tree.variablesSlot false ∧
      (tree.compileSelection outline name result false supply).1.runWith returned supplied
          provider =
        first.evaluate provider (tree.stageEnvironment supplied result returned) >>= fun stored =>
          some <$> ((ownContribution outline name options (after + 1)).1.getD
            (.read stock)).evaluate provider (tree.stageEnvironment supplied stock stored) := by
  have staged : (outline.hasServices? == some true) = true := by simp [services]
  unfold compileSelection
  rw [staged]
  simp only [↓reduceIte, Drawing.run_bind, contributed]
  exact ⟨rfl, rfl⟩

section Frames

variable {frame : Frame} {field : Field} {element : Placeholder} {isList : Bool}
  {children : List Outline} {returned : Value}

/-- The full pass evaluates to the meaning of the selection over what was returned. -/
theorem runReturned_eq (rooted : Outline.OverResult frame field result element children)
    (slot : frame.slot = tree.variablesSlot) (passed : frame.supply ≤ supply) :
    tree.runReturned (.selection field element isList children) field.name result supply returned
        frame.supplied frame.provider =
      if (Outline.visibleAll children).isEmpty then pure returned
      else selectFrom isList
        (fun item => Value.ofPairs <$> Outline.meaningAll frame children item) returned := by
  have gives := gives_stageEnvironment slot rooted.apart returned
  obtain ⟨expr, contributed, evaluated⟩ :=
    @Outline.OverResult.full _ _ _ _ isList _ _ _ _ rooted gives.base gives.supplied passed
  show ((ownContribution (.selection field element isList children) field.name .full
    supply).1.getD (.read result)).evaluate frame.provider
      (tree.stageEnvironment frame.supplied result returned) = _
  rw [contributed]
  split
  · simp only [Option.getD_none, Expr.evaluate, gives.base]
  · rw [Option.getD_some, evaluated]

/-- In two stages the selection has the effect that its members have in the first stage, and
    then the meaning that they have in two. -/
theorem runWith_compileSelection_eq
    (rooted : Outline.OverResult frame field result element children)
    (slot : frame.slot = tree.variablesSlot) (compiled : frame.supply ≤ supply)
    (services : Outline.anyServices? children = some true)
    (filled : ¬(Outline.visibleAll children).isEmpty = true) :
    let query := (tree.compileSelection (.selection field element isList children) field.name
      result false supply).1
    let prepared := selectFrom isList
      (fun item => (fun _ => Value.ofPairs []) <$> Outline.preparedAll frame children item) returned
    (prepared.effect = pure () ∧
      query.runWith returned frame.supplied frame.provider =
        some <$> selectFrom isList
          (fun item => Value.ofPairs <$> Outline.stagedAll frame children item) returned) ∨
      ∃ fault, prepared.effect = fail fault ∧
        query.FirstFails returned frame.supplied frame.provider fault := by
  intro query prepared
  have gives := gives_stageEnvironment slot rooted.apart returned
  obtain ⟨members, first, gathered, contributed, shape, evaluated, quiet, effect⟩ :=
    @Outline.OverResult.firstStage _ _ _ _ isList _ _ _ _ rooted services gives.base gives.supplied
      compiled
  have calling : Outline.hasServices? (.selection field element isList children) = some true := by
    simp [Outline.hasServices?, Outline.callsService_of_read rooted.reads, services]
  have later : frame.supply ≤ (ownContribution (.selection field element isList children)
      field.name .withoutServices supply).2 :=
    Nat.le_trans compiled (rooted.passes rfl field.name supply)
  obtain ⟨compiledFirst, runs⟩ := @runWith_compileSelection_of_staged tree _ calling field.name
    result supply returned frame.supplied frame.provider first _ (Prod.ext contributed rfl)
  rw [← effect]
  rcases quiet.effect_cases with ⟨stored, plain, done⟩ | ⟨fault, plain, failed⟩
  · left
    refine ⟨done, ?_⟩
    have holds := @holds_stageEnvironment tree frame slot ⟨_, "stage1", first.shape⟩ later stored
    rw [evaluated] at plain
    obtain ⟨again, contributedToo, evaluatedToo⟩ := rooted.secondStage filled gathered shape plain
      gives.supplied compiled holds.given holds.supplied (Nat.le_succ_of_le later)
    rw [runs, evaluated, plain, pure_bind, contributedToo, Option.getD_some, evaluatedToo]
  · right
    let executable := (Executable.ofExpr result first).withVariables tree.variablesSlot
    have stored : executable ∈ query.first.executable? := by
      rw [compiledFirst]
      rfl
    refine ⟨fault, failed, executable, stored, congrArg Outcome.result plain, ?_⟩
    rw [runs, plain]
    rfl

/-- The compiled selection does not succeed where a hollow selection below it fails. -/
theorem not_succeeds_compileSelection
    (rooted : Outline.OverResult frame field result element children)
    (slot : frame.slot = tree.variablesSlot) (compiled : frame.supply ≤ supply)
    (filled : ¬(Outline.visibleAll children).isEmpty = true) {fault : ExecutionFault}
    (fails : (Outline.selection field element isList children).HollowFails frame.setting returned
      fault) :
    ¬((tree.compileSelection (.selection field element isList children) field.name result false
      supply).1.runWith returned frame.supplied frame.provider).Succeeds := by
  rintro ⟨value, succeeded⟩
  obtain ⟨item, taken, child, inside, fails⟩ := (rooted.hollowFails_iff filled).mp fails
  have finite (child : Outline) (inside : child ∈ children) : child.isFinite false = true :=
    (rooted.suits child inside).isFinite false
  have services :=
    Outline.anyServices?_of_mem finite inside (fails.hasServices? (finite child inside))
  rcases @runWith_compileSelection_eq tree result _ frame field element isList children returned
    rooted slot compiled services filled with ⟨done, -⟩ | ⟨other, -, stage, -, -, failed⟩
  · rw [← selectFrom_uncut, Outline.effect_selectFrom_preparedAll] at done
    obtain ⟨tried, -⟩ := succeeds_bind_const_iff.mp ⟨(), congrArg Outcome.result done⟩
    exact fails.not_succeeds (rooted.suits child inside)
      (Outline.succeeds_tried_iff.mp tried item taken child inside)
  · rw [succeeded] at failed
    cases failed

/-- The compiled selection refines the full pass, unless a hollow selection below it fails; then
    its first stage fails with that fault.

    Proof: without services the query is the full pass. In two stages the members mean, item by
    item, what refines their meaning, once the first stage has succeeded. If it fails although
    the full pass succeeds, a member fails in it that has a meaning. -/
theorem refines_compileSelection (rooted : Outline.OverResult frame field result element children)
    (slot : frame.slot = tree.variablesSlot) {passSupply : Nat} (passed : frame.supply ≤ passSupply)
    (compiled : frame.supply ≤ supply)
    (contributes : Outline.anyServices? children = some true →
      ¬(Outline.visibleAll children).isEmpty = true) :
    let outline := Outline.selection field element isList children
    let query := (tree.compileSelection outline field.name result false supply).1
    Refines False (query.runWith returned frame.supplied frame.provider)
        (some <$> tree.runReturned outline field.name result passSupply returned frame.supplied
          frame.provider) ∨
      ∃ fault, outline.HollowFails frame.setting returned fault ∧
        query.FirstFails returned frame.supplied frame.provider fault := by
  intro outline query
  have own := Outline.callsService_of_read rooted.reads
  by_cases services : Outline.anyServices? children = some true
  · have filled := contributes services
    have full := @runReturned_eq tree result _ frame field element isList children returned rooted
      slot passed
    rw [if_neg filled] at full
    rcases @runWith_compileSelection_eq tree result _ frame field element isList children returned
      rooted slot compiled services filled with ⟨-, runs⟩ | ⟨fault, failed, fails⟩
    · left
      rw [runs, full]
      exact rooted.refines_staged.map some
    · by_cases means : (selectFrom isList
        (fun item => Value.ofPairs <$> Outline.meaningAll frame children item) returned).Succeeds
      · right
        refine ⟨fault, (rooted.hollowFails_iff filled).mpr ?_, fails⟩
        rw [← selectFrom_uncut] at means
        obtain ⟨members, result, bare⟩ :=
          (succeeds_selectFrom_iff fun item result => object_of_ofPairs).mp means
        rw [← selectFrom_uncut, Outline.effect_selectFrom_preparedAll] at failed
        -- Objects can be selected, so it is a member that fails, on one of the items.
        rcases bind_result_eq_error.mp (congrArg Outcome.result failed) with tried | ⟨-, -, other⟩
        · obtain ⟨item, taken, child, inside, failed⟩ := Outline.exists_of_tried_error tried
          have meaning := Outline.succeeds_meaningAll_iff.mp (succeeds_of_map (members item taken))
          exact ⟨item, taken, child, inside,
            (rooted.suits child inside).hollowFails (meaning child inside) failed⟩
        · rw [effect_result_eq_error, bare] at other
          cases other
      · left
        intro value succeeded
        rw [full] at succeeded
        exact absurd (succeeds_of_map ⟨value, succeeded⟩) means
  · left
    have noServices : outline.hasServices? ≠ some true := by
      simp [outline, Outline.hasServices?, own, services]
    rw [runWith_compileSelection_of_single noServices, runReturned_eq rooted slot compiled,
      runReturned_eq rooted slot passed]
    exact refines_refl _

/-- What the full pass finds is laid out as the selection, if anything is visible in it. -/
theorem shows_of_runReturned (rooted : Outline.OverResult frame field result element children)
    (slot : frame.slot = tree.variablesSlot) (passed : frame.supply ≤ supply)
    (filled : ¬(Outline.visibleAll children).isEmpty = true) {value : Value}
    (succeeded : (tree.runReturned (.selection field element isList children) field.name result
      supply returned frame.supplied frame.provider).result = .ok value) :
    (Outline.selection field element isList children).Shows [(field.name, value)] := by
  rw [runReturned_eq rooted slot passed, if_neg filled] at succeeded
  simp only [Outline.Shows, if_neg filled]
  exact ⟨value, rfl, madeOf_selectFrom (fun item pairs means =>
    Outline.showsAll_of_meaningAll (fun child _ pairs => Outline.shows_of_meaning) means) succeeded⟩

end Frames

/-! ## Mutations of built trees -/

/-- The owners below a selection of a tree are owners of the tree. -/
theorem owns_of_ownsBelow {address : Address} {slot : Placeholder}
    (outlined : tree.outline? address = some outline) (owned : outline.OwnsBelow slot) :
    tree.Owns slot := by
  rcases owned with ⟨field, inside, selects⟩ | ⟨field, inside, rfl⟩
  · obtain ⟨other, stored⟩ := field_of_mem_outlineWithin outlined field inside
    exact .element stored selects
  · obtain ⟨other, stored⟩ :=
      field_of_mem_outlineWithin outlined field (Outline.mem_fields_of_members inside)
    exact .context stored

/-- In a regular tree with closed fields a selection that repeats no name is regular. -/
theorem Regular.selection (regular : tree.Regular) (closed : tree.Sealed supply)
    {address : Address} (outlined : tree.outline? address = some outline)
    (distinct : outline.Distinct) : outline.Regular tree.variablesSlot supply := by
  have known (field : Field) (inside : field ∈ Outline.allFields outline.members) :=
    field_of_mem_outlineWithin outlined field (Outline.mem_fields_of_members inside)
  constructor
  · exact distinct
  · intro field inside
    obtain ⟨other, stored⟩ := known field inside
    exact regular.fieldNames other field stored
  · intro owner owned
    exact regular.memberNames owner (owns_of_ownsBelow outlined owned)
  · intro field inside
    obtain ⟨other, stored⟩ := known field inside
    exact regular.builtIn other field stored
  · intro field inside
    obtain ⟨other, stored⟩ := known field inside
    exact (closed.fields other field stored).mono fun owner => owns_of_ownsBelow outlined

/-- The outline of a mutation whose result has members is a selection of them. -/
theorem outline?_mutation {address : Address} {field : Field} {selection : MutationSelection}
    (stored : tree.field? address = some field) (kind : field.kind = .mutation selection)
    (outlined : tree.outline? address = some outline) :
    outline = .scalar field ∨ ∃ element children, field.element? = some element ∧
      outline = .selection field element selection.mutation.returnsList children := by
  simp only [outline?, outlineWithin, stored, Option.map_some, Option.some.injEq,
    List.contains_nil, Bool.false_eq_true, ↓reduceIte, kind] at outlined
  cases selects : field.element? with
  | none =>
    rw [selects] at outlined
    exact .inl outlined.symm
  | some element =>
    have lists : selectsList field = selection.mutation.returnsList := by simp [selectsList, kind]
    simp only [selects, lists] at outlined
    exact .inr ⟨element, _, rfl, outlined.symm⟩

/-- Over the members of a mutation of a built tree there is a frame for any variables and any
    provider, if the selection is regular. -/
theorem Built.exists_overResult (built : tree.Built practice supply)
    (passes : ∀ definition, practice.offers definition → ∀ expr arguments supply,
      supply ≤ (definition.resolve expr arguments supply).2)
    (acyclic : tree.Acyclic) {address : Address} {field : Field} {selection : MutationSelection}
    {element : Placeholder} {isList : Bool} {children : List Outline}
    (stored : tree.field? address = some field) (kind : field.kind = .mutation selection)
    (selects : field.element? = some element)
    (outlined : tree.outline? address = some (.selection field element isList children))
    (regular : (Outline.selection field element isList children).Regular tree.variablesSlot supply)
    (supplied : Value) (provider : Provider) :
    ∃ frame : Frame, frame.slot = tree.variablesSlot ∧ frame.supplied = supplied ∧
      frame.provider = provider ∧ frame.supply = supply ∧
      Outline.OverResult frame field selection.result element children := by
  obtain ⟨-, reads, context, plain⟩ := built.mutation_drawn stored kind
  obtain ⟨drawn, numbered⟩ := built.isNumbered passes
  have basis : Frame.Basis tree.variablesSlot
      (Outline.selection field element isList children).OwnsBelow
      (fun member => member ∈ Outline.allFields children) supply :=
    { drawn
      apart := fun owner owned => (numbered owner (owns_of_ownsBelow outlined owned)).2
      memberNames := regular.memberNames
      fieldNames := regular.fieldNames
      closed := regular.closed
      builtIn := regular.builtIn
      contexts := fun member inside => .inr ⟨member, inside, rfl⟩
      elements := fun member inside slot selects =>
        .inl ⟨member, List.mem_cons_of_mem _ inside, selects⟩ }
  obtain ⟨frame, slot, given, asked, owners, enough, fits, -⟩ :=
    basis.exists_frame supplied provider
  have written := writtenOver_outlineWithin built.placed stored outlined
    (acyclic.isFinite_outline outlined)
  refine ⟨frame, slot, given, asked, enough, ?_⟩
  constructor
  · exact reads
  · exact context
  · exact plain
  · rw [← context, slot]
    exact (numbered field.context (.context stored)).2
  · rw [owners]
    exact .inl ⟨field, List.mem_cons_self, selects⟩
  · intro child inside
    apply (written.members child inside).suits
    · intro member found
      exact fits member (Outline.mem_allFields.mpr ⟨child, inside, found⟩)
    · exact Outline.distinctBelow_iff.mp regular.distinct.2 child inside
  · exact regular.distinct.1
  · exact regular.builtIn

/-- A result without members to select is itself what the full pass finds. -/
theorem runReturned_scalar {field : Field} (reads : field.expr = .read result)
    (plain : field.extensions = []) (apart : result.number ≠ tree.variablesSlot.number)
    (supply : Nat) (returned supplied : Value) (provider : Provider) :
    tree.runReturned (.scalar field) field.name result supply returned supplied provider =
      pure returned := by
  have contributed : (Outline.contribute .full none (.scalar field) supply).1 =
      if false then [] else [(field.name, .read result)] := by
    simp [Outline.contribute, Field.contributeScalar, PassOptions.full, Field.relocate, reads,
      plain, Extension.adjustAll, Drawing.run_pure]
  show ((ownContribution (.scalar field) field.name .full supply).1.getD (.read result)).evaluate
    provider (tree.stageEnvironment supplied result returned) = _
  rw [Outline.ownContribution_of_contribute contributed]
  simp [Expr.evaluate, stageEnvironment, Environment.value?, Ne.symm apart]

/-- Two stages refine one full pass over the result of a mutation. For every mutation of an
    acyclic tree with a regular selection, the compilation is defined; and where the full pass
    over what the procedure returned succeeds, running the compiled query yields the same
    value, unless a hollow selection fails on a value that is reached from what was returned.
    Of a selection that contributes to the full pass, that value shows the visible fields and
    nothing else.

    Resolvers are assumed to take no numbers back, wherever they stand in the tree, and a
    selection below which a service is called to contribute something. The exception is exact:
    if a hollow selection fails, the query does not yield the value; its first stage fails with
    the fault of a hollow selection, and the query with it. -/
theorem Built.mutation_selection_refines (built : tree.Built practice supply)
    (passes : ∀ definition, practice.offers definition → ∀ expr arguments supply,
      supply ≤ (definition.resolve expr arguments supply).2)
    (acyclic : tree.Acyclic) {address : Address} {field : Field} {selection : MutationSelection}
    (stored : tree.field? address = some field) (kind : field.kind = .mutation selection)
    (outlined : tree.outline? address = some outline)
    (regular : outline.Regular tree.variablesSlot supply) {passSupply compileSupply : Nat}
    (passed : supply ≤ passSupply) (compiled : supply ≤ compileSupply)
    (contributes : outline.hasServices? = some true →
      (ownContribution outline field.name .full passSupply).1.isSome = true)
    (returned : Value) (supplied : Variables) (provider : Provider) {value : Value}
    (succeeded : (tree.runReturned outline field.name selection.result passSupply returned
      supplied.toValue provider).result = .ok value) :
    let setting : Setting := ⟨tree.variablesSlot, supplied.toValue, provider, supply⟩
    tree.compileMutation? address false = some (tree.compileMutation address false) ∧
    ((ownContribution outline field.name .full passSupply).1.isSome = true →
      outline.Shows [(field.name, value)]) ∧
    ∃ query, (tree.compileMutation address false compileSupply).1 = .ok query ∧
      ((∀ fault, ¬outline.HollowFails setting returned fault) ∧
          (query.executeWith returned supplied provider).result = .ok (some value) ∨
        ∃ fault, outline.HollowFails setting returned fault ∧
          query.FirstFails returned supplied.toValue provider fault) := by
  intro setting
  obtain ⟨named, reads, context, plain⟩ := built.mutation_drawn stored kind
  let query := (tree.compileSelection outline field.name selection.result false compileSupply).1
  have compiles : (tree.compileMutation address false compileSupply).1 = .ok query := by
    simp only [compileMutation, mutation?_of_stored stored kind, outlined, Drawing.run_map, query,
      named]
  refine ⟨acyclic.compileMutation? address false, ?_⟩
  rcases outline?_mutation stored kind outlined with rfl | ⟨element, children, selects, rfl⟩
  · -- Nothing can be selected from the result: in both cases it is read.
    have own := Outline.callsService_of_read reads
    have noServices : (Outline.scalar field).hasServices? ≠ some true := by
      simp [Outline.hasServices?, own]
    have apart : selection.result.number ≠ tree.variablesSlot.number := by
      rw [← context]
      exact ((built.isNumbered passes).owners field.context (.context stored)).2
    rw [runReturned_scalar reads plain apart] at succeeded
    refine ⟨fun _ => ?_, query, compiles, .inl ⟨?_, ?_⟩⟩
    · simp only [Outline.Shows]
      exact ⟨value, rfl⟩
    · rintro fault ⟨⟩
    · rw [Query.executeWith, runWith_compileSelection_of_single noServices,
        runReturned_scalar reads plain apart]
      exact map_result_eq_ok.mpr ⟨value, succeeded, rfl⟩
  · obtain ⟨frame, slot, given, rfl, rfl, rooted⟩ := built.exists_overResult passes acyclic stored
      kind selects outlined regular supplied.toValue provider
    have filled (found : (ownContribution (.selection field element selection.mutation.returnsList
        children) field.name .full passSupply).1.isSome = true) :
        ¬(Outline.visibleAll children).isEmpty = true := by
      intro hidden
      have gives := gives_stageEnvironment slot rooted.apart returned
      obtain ⟨expr, contributed, -⟩ := @Outline.OverResult.full _ _ _ _
        selection.mutation.returnsList _ _ _ _ rooted gives.base gives.supplied passed
      rw [contributed, if_pos hidden] at found
      cases found
    have same : frame.setting = setting := by
      simp only [setting, Frame.setting, slot, given]
    rw [← same, ← given]
    rw [← given] at succeeded
    refine ⟨fun found => shows_of_runReturned rooted slot passed (filled found) succeeded,
      query, compiles, ?_⟩
    have own := Outline.callsService_of_read rooted.reads
    have contributing (services : Outline.anyServices? children = some true) :
        ¬(Outline.visibleAll children).isEmpty = true :=
      filled (contributes (by simp [Outline.hasServices?, own, services]))
    rcases @refines_compileSelection tree selection.result _ frame field element
      selection.mutation.returnsList children returned rooted slot _ passed compiled
      contributing with refined | failing
    · left
      rw [Query.executeWith, ← given]
      have yields := (refined (some value) (map_result_eq_ok.mpr ⟨value, succeeded, rfl⟩)).1
      refine ⟨fun fault fails => ?_, yields⟩
      have services := fails.hasServices? (acyclic.isFinite_outline outlined)
      exact not_succeeds_compileSelection rooted slot compiled (filled (contributes services)) fails
        ⟨some value, yields⟩
    · exact .inr failing

/-! ## Two mutations -/

/-- The tree of added films is regular. -/
theorem regular_addedFilms : addedFilms.Regular where
  acyclic := acyclic_addedFilms
  distinct := by decide
  distinctBelow := ⟨⟨by decide, ⟨trivial, trivial, trivial⟩, trivial⟩, trivial⟩
  fieldNames := by
    intro address field stored
    obtain ⟨_ | _ | _ | _ | _ | _ | index⟩ := address <;> cases stored <;> rfl
  memberNames := by
    have shapes (owner : Placeholder) (owns : addedFilms.Owns owner) :
        owner.shape = .any ∨ owner.shape = ratedFilm := by
      cases owns with
      | root => exact .inl rfl
      | @context address field stored =>
        obtain ⟨_ | _ | _ | _ | _ | _ | index⟩ := address <;> cases stored <;>
          first | exact .inl rfl | exact .inr rfl
      | @element address field slot stored selects =>
        obtain ⟨_ | _ | _ | _ | _ | _ | index⟩ := address <;> cases stored <;> cases selects <;>
          exact .inr rfl
      | @fragment address fragment stored =>
        obtain ⟨_ | index⟩ := address <;> cases stored
        exact .inr rfl
    intro owner owns
    exact unreserved_of_film (shapes owner owns)
  builtIn := by
    intro address field stored extension inside
    obtain ⟨_ | _ | _ | _ | _ | _ | index⟩ := address <;> cases stored <;> cases inside

/-- The selection from an added film is regular. -/
theorem regular_addedFilm (outlined : addedFilms.outline? ⟨4⟩ = some outline) :
    outline.Regular addedFilms.variablesSlot 6 := by
  apply regular_addedFilms.selection (built_addedFilms.isSealed closed_filmPractice) outlined
  cases outlined
  exact ⟨by decide, ⟨trivial, trivial, trivial⟩, trivial⟩

/-- What the procedure returned for an added film. -/
def addedFilm : Value :=
  .object [("id", .int 7), ("title", .string "Alien")]

/-- The full pass rates the added film, and so does the query of two stages. -/
theorem mutation_selection_refines_addedFilms :
    ∃ outline query, addedFilms.outline? ⟨4⟩ = some outline ∧
      outline.Regular addedFilms.variablesSlot 6 ∧
      (addedFilms.runReturned outline "addFilm" ⟨4, "addFilm", ratedFilm⟩ 6 addedFilm
          Variables.empty.toValue filmProvider).result =
        .ok (.object [("title", .string "Alien"), ("rating", .int 5)]) ∧
      (addedFilms.compileMutation ⟨4⟩ false 6).1 = .ok query ∧
      (query.executeWith addedFilm .empty filmProvider).result =
        .ok (some (.object [("title", .string "Alien"), ("rating", .int 5)])) := by
  obtain ⟨outline, outlined⟩ : ∃ outline, addedFilms.outline? ⟨4⟩ = some outline := ⟨_, rfl⟩
  have regular := regular_addedFilm outlined
  have succeeded : (addedFilms.runReturned outline "addFilm" ⟨4, "addFilm", ratedFilm⟩ 6 addedFilm
      Variables.empty.toValue filmProvider).result =
        .ok (.object [("title", .string "Alien"), ("rating", .int 5)]) := by
    cases outlined
    rfl
  have contributes : (ownContribution outline "addFilm" .full 6).1.isSome = true := by
    cases outlined
    rfl
  have solid : outline.hasHollow = false := by
    cases outlined
    decide
  obtain ⟨-, -, query, compiled, ⟨-, agrees⟩ | ⟨fault, fails, -⟩⟩ :=
    built_addedFilms.mutation_selection_refines
      (fun definition offered => (closed_filmPractice definition offered).passed)
      acyclic_addedFilms rfl rfl outlined regular (Nat.le_refl 6) (Nat.le_refl 6)
      (fun _ => contributes) addedFilm .empty filmProvider succeeded
  · exact ⟨outline, query, outlined, regular, succeeded, compiled, agrees⟩
  · have hollow := fails.hasHollow
    rw [solid] at hollow
    cases hollow

/-- The director of an added film, whom a service knows by its id. -/
def filmDirectorDefinition : FieldDefinition :=
  .ofResolver "director" (.object "Person" []) fun parent _ =>
    pure (.service ⟨"Ratings"⟩ "director" [parent.get "id"] (.object "Person" [])
      fun state _ => .ok state)

/-- A mutation that restores a film, and otherwise is as the one that adds a film. -/
def restoreFilm : Mutation :=
  { addFilm with name := "restoreFilm" }

/-- An added film, of which the title and the directors of the reels are selected, and a
    restored one, of which only the director is. Nothing is selected of a director. -/
def directedFilms : SelectionTree where
  root := ⟨0, "ctx", .any⟩
  variablesSlot := ⟨1, "vars", .any⟩
  bound := .empty
  fields := ⟨#[
    { name := "addFilm"
      kind := .mutation
        ⟨addFilm, .empty, none, ⟨2, "addFilm", ratedFilm⟩, some ⟨3, "addFilm", ratedFilm⟩⟩
      expr := .read ⟨2, "addFilm", ratedFilm⟩
      context := ⟨2, "addFilm", ratedFilm⟩
      children := [⟨1⟩, ⟨2⟩] },
    { name := "title"
      kind := .scalar
      expr := .member (.read ⟨3, "addFilm", ratedFilm⟩) "title" (.scalar .string)
      context := ⟨3, "addFilm", ratedFilm⟩
      arguments := ArgumentSet.empty.readVariablesFrom ⟨1, "vars", .any⟩
      parent? := some ⟨0⟩ },
    { name := "reels"
      kind := .list ⟨4, "reels", .any⟩
      expr := .member (.read ⟨3, "addFilm", ratedFilm⟩) "reels" (.list .any)
      context := ⟨3, "addFilm", ratedFilm⟩
      arguments := ArgumentSet.empty.readVariablesFrom ⟨1, "vars", .any⟩
      parent? := some ⟨0⟩
      children := [⟨3⟩] },
    { name := "director"
      kind := .object ⟨5, "director", .object "Person" []⟩
      expr := .service ⟨"Ratings"⟩ "director" [] (.object "Person" []) fun state _ => .ok state
      context := ⟨4, "reels", .any⟩
      arguments := ArgumentSet.empty.readVariablesFrom ⟨1, "vars", .any⟩
      parent? := some ⟨2⟩ },
    { name := "restoreFilm"
      kind := .mutation ⟨restoreFilm, .empty, none, ⟨6, "restoreFilm", ratedFilm⟩,
        some ⟨7, "restoreFilm", ratedFilm⟩⟩
      expr := .read ⟨6, "restoreFilm", ratedFilm⟩
      context := ⟨6, "restoreFilm", ratedFilm⟩
      children := [⟨5⟩] },
    { name := "director"
      kind := .object ⟨8, "director", .object "Person" []⟩
      expr := .service ⟨"Ratings"⟩ "director"
        [(Expr.read ⟨7, "restoreFilm", ratedFilm⟩).get "id"] (.object "Person" [])
        fun state _ => .ok state
      context := ⟨7, "restoreFilm", ratedFilm⟩
      arguments := ArgumentSet.empty.readVariablesFrom ⟨1, "vars", .any⟩
      parent? := some ⟨4⟩ }]⟩
  roots := [⟨0⟩, ⟨4⟩]
  fragments := .empty

/-- Callers who select titles, reels and directors and spread nothing. -/
def additionPractice : Practice where
  offers definition := definition ∈
    [titleDefinition, reelsDefinition, directorDefinition, filmDirectorDefinition]
  admits _ _ _ := False

/-- The title and the reels are selected from the added film, then the director of each reel;
    and the director from the restored film. -/
theorem built_directedFilms : directedFilms.Built additionPractice 9 := by
  have start : Built additionPractice (drawSelectionTree .any 0).1 2 := .start .any 0
  have mutation := @Built.selectMutation _ _ _ _ addFilm .empty none ⟨0⟩ start rfl
  have title := @Built.select _ _ _ _ (.field ⟨0⟩) titleDefinition .empty none ⟨1⟩ mutation
    (by simp [additionPractice]) rfl
  have reels := @Built.select _ _ _ _ (.field ⟨0⟩) reelsDefinition .empty none ⟨2⟩ title
    (by simp [additionPractice]) rfl
  have directors := @Built.select _ _ _ _ (.field ⟨2⟩) directorDefinition .empty none ⟨3⟩ reels
    (by simp [additionPractice]) rfl
  have again := @Built.selectMutation _ _ _ _ restoreFilm .empty none ⟨4⟩ directors rfl
  exact @Built.select _ _ directedFilms _ (.field ⟨4⟩) filmDirectorDefinition .empty none ⟨5⟩
    again (by simp [additionPractice]) rfl

/-- The resolvers of the tree are closed. -/
theorem closed_additionPractice (definition : FieldDefinition)
    (offered : additionPractice.offers definition) : definition.Closed := by
  simp only [additionPractice, List.mem_cons, List.not_mem_nil, or_false] at offered
  rcases offered with rfl | rfl | rfl | rfl
  · exact FieldDefinition.closed_ofMember _ _
  · exact FieldDefinition.closed_ofMember _ _
  · exact closed_directorDefinition
  · exact closed_ofIdService _ _ _ _

/-- The tree is regular. -/
theorem regular_directedFilms : directedFilms.Regular where
  acyclic := built_directedFilms.acyclic (by simp [additionPractice])
  distinct := by decide
  distinctBelow := trivial
  fieldNames := by
    intro address field stored
    obtain ⟨_ | _ | _ | _ | _ | _ | index⟩ := address <;> cases stored <;> rfl
  memberNames := by
    have shapes (owner : Placeholder) (owns : directedFilms.Owns owner) :
        (owner.shape = .any ∨ owner.shape = ratedFilm) ∨ owner.shape = .object "Person" [] := by
      cases owns with
      | root => exact .inl (.inl rfl)
      | @context address field stored =>
        obtain ⟨_ | _ | _ | _ | _ | _ | index⟩ := address <;> cases stored <;>
          first | exact .inl (.inl rfl) | exact .inl (.inr rfl)
      | @element address field slot stored selects =>
        obtain ⟨_ | _ | _ | _ | _ | _ | index⟩ := address <;> cases stored <;> cases selects <;>
          first | exact .inl (.inl rfl) | exact .inl (.inr rfl) | exact .inr rfl
      | @fragment address fragment stored => cases stored
    intro owner owns name declared
    rcases shapes owner owns with film | person
    · exact unreserved_of_film film name declared
    · rw [person] at declared
      cases declared
  builtIn := by
    intro address field stored extension inside
    obtain ⟨_ | _ | _ | _ | _ | _ | index⟩ := address <;> cases stored <;> cases inside

/-- The selections from both films are regular. -/
theorem regular_outline_directedFilms {address : Address}
    (outlined : directedFilms.outline? address = some outline)
    (distinct : outline.Distinct) : outline.Regular directedFilms.variablesSlot 9 :=
  regular_directedFilms.selection (built_directedFilms.isSealed closed_additionPractice)
    outlined distinct

/-- What the full pass finds is not always what the query of two stages yields.

    Where the reels of the added film are no list, the full pass finds the title, for it leaves
    the reels out; but the first stage keeps a shell of them and fails, and the query with it.
    The selection from the restored film contributes nothing to the full pass, so the film is
    found as it was returned; but the query yields what its first stage has stored for the
    service, under the name of a chain. -/
theorem mutation_selection_differs_directedFilms :
    directedFilms.Built additionPractice 9 ∧ directedFilms.Acyclic ∧
      (∀ definition, additionPractice.offers definition → definition.Closed) ∧
      (∃ outline query, directedFilms.outline? ⟨0⟩ = some outline ∧
        outline.Regular directedFilms.variablesSlot 9 ∧
        (directedFilms.compileMutation ⟨0⟩ false 9).1 = .ok query ∧
        (directedFilms.runReturned outline "addFilm" ⟨2, "addFilm", ratedFilm⟩ 9
            (.object [("title", .string "Alien"), ("reels", .int 5)]) Variables.empty.toValue
            ratingsProvider).result = .ok (.object [("title", .string "Alien")]) ∧
        (query.executeWith (.object [("title", .string "Alien"), ("reels", .int 5)]) .empty
            ratingsProvider).result = .error (.typeMismatch "map" "List" "Int")) ∧
      ∃ outline query, directedFilms.outline? ⟨4⟩ = some outline ∧
        outline.Regular directedFilms.variablesSlot 9 ∧
        (directedFilms.compileMutation ⟨4⟩ false 9).1 = .ok query ∧
        (directedFilms.runReturned outline "restoreFilm" ⟨6, "restoreFilm", ratedFilm⟩ 9
            addedFilm Variables.empty.toValue ratingsProvider).result = .ok addedFilm ∧
        (query.executeWith addedFilm .empty ratingsProvider).result =
          .ok (some (.object [("__id", .int 7)])) := by
  refine ⟨built_directedFilms, regular_directedFilms.acyclic, closed_additionPractice,
    ⟨_, _, rfl, ?_, rfl, by rfl, by rfl⟩, ⟨_, _, rfl, ?_, rfl, by rfl, by rfl⟩⟩
  · apply @regular_outline_directedFilms _ ⟨0⟩ rfl
    exact ⟨by decide, trivial, ⟨by decide, ⟨by decide, trivial⟩, trivial⟩, trivial⟩
  · apply @regular_outline_directedFilms _ ⟨4⟩ rfl
    exact ⟨by decide, ⟨by decide, trivial⟩, trivial⟩

end SelectionTree

end StagedQuery
