import StagedQuery.Proofs.Selection.Hollow

/-!
# Members of a result

What is selected from the result of a mutation is contributed to the passes as any selection
is, with one difference: the result is not a member of an object that an earlier stage has
stored. A merging pass takes the whole value of that stage for the result.

A frame over the placeholder of the members gives each pass its meaning. A full pass selects
them from the result as they mean it; a pass without services has the effect that they have
in the first stage; and a merging pass over what that stage stored selects them as they mean
it in two stages.
-/

namespace StagedQuery

open Outcome

namespace Outline

/-! ## What the selection contributes -/

section Contributions

variable {field : Field} {result element stock : Placeholder} {isList : Bool}
  {children : List Outline} {options : PassOptions} {supply : Nat}

/-- A field that reads a placeholder calls no service. -/
theorem callsService_of_read (reads : field.expr = .read result) :
    field.callsService = false := by
  rw [Field.callsService_eq, reads, Expr.hasServices_read]

/-- What a field contributes under its own name is the one expression that it contributes. -/
theorem ownContribution_of_contribute {outline : Outline} {name : String} {nothing : Bool}
    {expr : Expr} (contributed : (outline.contribute options none supply).1 =
      if nothing then [] else [(name, expr)]) :
    (SelectionTree.ownContribution outline name options supply).1 =
      if nothing then none else some expr := by
  simp only [SelectionTree.ownContribution, Drawing.run_bind, Drawing.run_pure, contributed]
  cases nothing with
  | true => rfl
  | false => simp [Members.firsts, Members.offer, Members.has, Members.value?]

/-- From source data, the members that the children contribute are selected from the result. -/
theorem contribute_result (reads : field.expr = .read result) (plain : field.extensions = [])
    (fromData : options.replacement? = none) :
    let members := Members.firsts
      (contributeAll ⟨options.leavingOut, none, false⟩ none children supply).1
    (contribute options none (.selection field element isList children) supply).1 =
      if members.isEmpty && !(options.leavingOut && anyServices? children == some true) then []
      else [(field.name, (SelectionSource.mk (.read result) element none true).select
        field.name isList members)] := by
  intro members
  have stays : (options.leavingOut && field.callsService) = false := by
    rw [callsService_of_read reads, Bool.and_false]
  have drawn : field.drawSource element isList none options supply =
      (⟨.read result, element, none, true⟩, supply) := by
    simp [Field.drawSource, fromData, Field.relocate, reads, plain, Extension.adjustAll,
      Drawing.run_pure]
  simp only [contribute, stays, Bool.false_eq_true, ↓reduceIte, Drawing.run_bind, drawn, plain]
  split <;> rfl

/-- A pass over the value of an earlier one selects the members from that value. -/
theorem contribute_result_direct :
    let fresh : Placeholder :=
      ⟨supply, field.name, if isList then stock.shape.element?.getD .any else stock.shape⟩
    let members := Members.firsts
      (contributeAll (.merging (.read fresh)) none children (supply + 1)).1
    (contribute { PassOptions.merging (.read stock) with direct := true } none
        (.selection field element isList children) supply).1 =
      if members.isEmpty then []
      else [(field.name, (SelectionSource.mk (.read stock) fresh (some (.read fresh)) false).select
        field.name isList members)] := by
  intro fresh members
  let options : PassOptions := { PassOptions.merging (.read stock) with direct := true }
  have drawn : field.drawSource element isList none options supply =
      (⟨.read stock, fresh, some (.read fresh), false⟩, supply + 1) := by
    cases isList <;> rfl
  have stays : (options.leavingOut && field.callsService) = false := rfl
  have inner : (⟨options.leavingOut, some (.read fresh), false⟩ : PassOptions) =
      .merging (.read fresh) := rfl
  have noShell : (!(options.leavingOut && anyServices? children == some true)) = true := rfl
  show (contribute options none (.selection field element isList children) supply).1 = _
  simp only [contribute, stays, Bool.false_eq_true, ↓reduceIte, Drawing.run_bind, drawn, noShell,
    inner, Bool.and_true]
  split <;> rfl

end Contributions

/-! ## What it means -/

/-- Members that are selected from the result of a mutation, in a frame over the placeholder of
    the members. -/
structure OverResult (frame : Frame) (field : Field) (result element : Placeholder)
    (children : List Outline) : Prop where
  reads : field.expr = .read result
  context : field.context = result
  plain : field.extensions = []
  apart : result.number ≠ frame.slot.number
  owned : frame.owners element
  suits : ∀ child ∈ children, Suits frame element child
  distinct : ((expandedAll children).map Field.name).Nodup
  builtIn : ∀ member ∈ allFields children, ∀ extension ∈ member.extensions, extension.BuiltIn

namespace OverResult

variable {frame : Frame} {field : Field} {result element stock : Placeholder} {isList : Bool}
  {children : List Outline} {env : Environment} {returned stored : Value} {supply : Nat}

/-- What the selection contributes to a full pass: nothing if nothing is visible in it, else an
    expression that has the meaning of the selection over the result. -/
theorem full (rooted : OverResult frame field result element children)
    (given : env.value? result = some returned)
    (supplied : env.value? frame.slot = some frame.supplied) (passed : frame.supply ≤ supply) :
    ∃ expr, (SelectionTree.ownContribution (.selection field element isList children) field.name
          .full supply).1 = (if (visibleAll children).isEmpty then none else some expr) ∧
      expr.evaluate frame.provider env = selectFrom isList
        (fun item => Value.ofPairs <$> meaningAll frame children item) returned := by
  let members := (contributeAll .full none children supply).1
  refine ⟨(SelectionSource.mk (.read result) element none true).select field.name isList members,
    ?_, ?_⟩
  · obtain ⟨kept, empty⟩ := firsts_contributeAll
      (show PassOptions.full.leavingOut = false from rfl) rooted.distinct none supply
    have contributed := @contribute_result field result element isList children .full supply
      rooted.reads rooted.plain rfl
    have inner : (⟨PassOptions.full.leavingOut, none, false⟩ : PassOptions) = .full := rfl
    have noShell : (!(PassOptions.full.leavingOut && anyServices? children == some true)) = true :=
      rfl
    simp only [inner, kept, empty, noShell, Bool.and_true] at contributed
    exact ownContribution_of_contribute contributed
  · have items (item : Value) :
        Expr.evaluateObject frame.provider members (env.bind element item) =
          Value.ofPairs <$> meaningAll frame children item := by
      have gives := Frame.gives_bind supplied (frame.owner_ne element rooted.owned) item
      refine congrArg _ (evaluate_contributeAll rooted.suits passed ?_)
      intro child inside supply enough
      exact (rooted.suits child inside).evaluate_full rfl rfl rooted.owned gives enough
    rw [SelectionSource.evaluate_select_read given, funext items]

/-- What the selection contributes to a pass without services if it calls one: an expression
    over the result that calls nothing, has the effect of the children in the first stage and
    stores what they contribute. -/
theorem firstStage (rooted : OverResult frame field result element children)
    (services : anyServices? children = some true) (given : env.value? result = some returned)
    (supplied : env.value? frame.slot = some frame.supplied) (passed : frame.supply ≤ supply) :
    ∃ members expr, members = Members.firsts
        (contributeAll .withoutServices none children supply).1 ∧
      (SelectionTree.ownContribution (.selection field element isList children) field.name
          .withoutServices supply).1 = some expr ∧
      expr.shape = selectionShape (element.shape.objectName?.getD field.name) isList members ∧
      expr.evaluate frame.provider env = selectFrom isList (fun item =>
        Expr.evaluateObject frame.provider members (env.bind element item)) returned ∧
      (expr.evaluate frame.provider env).Quiet ∧
      (expr.evaluate frame.provider env).effect =
        (selectFrom isList
          (fun item => (fun _ => Value.ofPairs []) <$> preparedAll frame children item)
          returned).effect := by
  let members := Members.firsts (contributeAll .withoutServices none children supply).1
  have contributed := @contribute_result field result element isList children .withoutServices
    supply rooted.reads rooted.plain rfl
  have inner : (⟨PassOptions.withoutServices.leavingOut, none, false⟩ : PassOptions) =
      .withoutServices := rfl
  have shell : (!(PassOptions.withoutServices.leavingOut && anyServices? children == some true)) =
      false := by
    rw [services]
    rfl
  simp only [inner, shell, Bool.and_false] at contributed
  refine ⟨members, _, rfl, ownContribution_of_contribute contributed,
    SelectionSource.shape_select _ _ _ _, SelectionSource.evaluate_select_read given _ _ _ _ _ _,
    ?_, ?_⟩
  · have silent : Drawing.Yields Contributions.Silent
        (contributeAll .withoutServices none children) := by
      apply each_contributeAll
      intro child inside
      refine silent_contribute child ?_ none rfl rfl
      intro member found extension listed
      exact (rooted.builtIn member (mem_allFields.mpr ⟨child, inside, found⟩) extension
        listed).addsNoService
    exact Expr.evaluate_quiet _ (SelectionSource.silent_select rfl (silent supply).firsts)
  · have bodies (item : Value) :
        (Expr.evaluateObject frame.provider members (env.bind element item)).effect =
          ((fun _ => Value.ofPairs []) <$> preparedAll frame children item).effect := by
      have gives := Frame.gives_bind supplied (frame.owner_ne element rooted.owned) item
      apply effect_evaluateObject rooted.suits rooted.distinct rooted.owned gives passed
      intro child inside supply started
      exact (rooted.suits child inside).stageEffect_contribute rooted.owned gives started
    have same := effect_selectFrom isList [] returned (fun item result => object_of_ofPairs)
      (fun item result => object_of_ofPairs) bodies
    rw [selectFrom_uncut, selectFrom_uncut] at same
    rw [SelectionSource.evaluate_select_read given]
    exact same

/-- What the selection contributes to a pass over what the first stage stored: if something is
    visible in it, an expression that has the meaning of the selection in two stages. -/
theorem secondStage (rooted : OverResult frame field result element children)
    (filled : ¬(visibleAll children).isEmpty = true)
    {members : Members Expr} {title : String} {first : Nat} {env' : Environment}
    (gathered : members = Members.firsts (contributeAll .withoutServices none children first).1)
    (shape : stock.shape = selectionShape title isList members)
    (selects : selectFrom isList (fun item =>
      Expr.evaluateObject frame.provider members (env.bind element item)) returned = pure stored)
    (supplied : env.value? frame.slot = some frame.supplied)
    (started : frame.supply ≤ first) (given : env'.value? stock = some stored)
    (suppliedToo : env'.value? frame.slot = some frame.supplied)
    (passed : frame.supply ≤ supply) :
    ∃ expr, (SelectionTree.ownContribution (.selection field element isList children) field.name
          { PassOptions.merging (.read stock) with direct := true } supply).1 = some expr ∧
      expr.evaluate frame.provider env' = selectFrom isList
        (fun item => Value.ofPairs <$> stagedAll frame children item) returned := by
  let fresh : Placeholder :=
    ⟨supply, field.name, if isList then stock.shape.element?.getD .any else stock.shape⟩
  have freshShape : fresh.shape = .ofPairs title (Expr.fieldShapes members) := by
    simp only [fresh, shape]
    cases isList <;> rfl
  let again := (contributeAll (.merging (.read fresh)) none children (supply + 1)).1
  have wholePass : (PassOptions.merging (.read fresh)).leavingOut = false := rfl
  obtain ⟨kept, empty⟩ := firsts_contributeAll wholePass rooted.distinct none (supply + 1)
  refine ⟨(SelectionSource.mk (.read stock) fresh (some (.read fresh)) false).select field.name
    isList again, ?_, ?_⟩
  · have contributed := @contribute_result_direct field element stock isList children supply
    simp only [fresh] at kept empty
    simp only [kept, empty] at contributed
    rw [ownContribution_of_contribute contributed, if_neg filled]
  · rw [SelectionSource.evaluate_select_read given]
    refine (selectFrom_merging rooted.suits rooted.distinct gathered freshShape passed supplied
      suppliedToo rooted.owned started (Nat.le_succ_of_le passed) selects (cutValue_nil stored)
      ?_).trans ?_
    · intro child inside env env' item result first supply gives started stocks carries holds passed
      exact (rooted.suits child inside).evaluate_merging rooted.owned gives started stocks carries
        holds passed
    · rw [cutValue_nil, pure_bind]

/-- In two stages the members that are selected from the result refine what they mean. -/
theorem refines_staged (rooted : OverResult frame field result element children) :
    Refines False
      (selectFrom isList (fun item => Value.ofPairs <$> stagedAll frame children item) returned)
      (selectFrom isList (fun item => Value.ofPairs <$> meaningAll frame children item)
        returned) := by
  have items (item : Value) : Refines False (Value.ofPairs <$> stagedAll frame children item)
      (Value.ofPairs <$> meaningAll frame children item) :=
    (refines_stagedAll fun child inside =>
      (rooted.suits child inside).refines_staged False.elim item).map _
  have selected := @refines_selectFrom_cutValue False isList [] _ _ returned
    (fun item result => object_of_ofPairs) items (fun _ _ => rfl)
  rwa [cutValue_nil_eq, pure_bind, bind_pure] at selected

/-- The source of the selection is the result, for it has no hooks. -/
theorem finds_iff (rooted : OverResult frame field result element children) {source : Value} :
    frame.setting.Finds Extension.beforeSelection field field.expr returned source ↔
      source = returned := by
  have slot : frame.slot.number ≠ result.number := Ne.symm rooted.apart
  have found (supply : Nat) : (Extension.adjustAll Extension.beforeSelection field.name
      field.arguments field.extensions field.expr supply).1.evaluate frame.provider
        [(frame.slot.number, frame.supplied), (field.context.number, returned)] =
          pure returned := by
    rw [rooted.plain, rooted.reads, rooted.context]
    simp [Extension.adjustAll, Drawing.run_pure, Expr.evaluate, Environment.value?, slot]
  constructor
  · intro finds
    have same := finds _ (Nat.le_refl _)
    exact Except.ok.inj (same.symm.trans (congrArg Outcome.result (found _)))
  · rintro rfl supply -
    exact congrArg Outcome.result (found supply)

/-- A selection that shows something has a hollow selection that fails exactly if a member has
    one over the result or over an item of it. -/
theorem hollowFails_iff (rooted : OverResult frame field result element children)
    (filled : ¬(visibleAll children).isEmpty = true) {fault : ExecutionFault} :
    (Outline.selection field element isList children).HollowFails frame.setting returned fault ↔
      ∃ item ∈ returned.targets isList, ∃ child ∈ children,
        child.HollowFails frame.setting item fault := by
  constructor
  · intro fails
    cases fails with
    | own silent hidden services fails => exact absurd hidden filled
    | member silent found taken inside fails =>
      obtain rfl := rooted.finds_iff.mp found
      exact ⟨_, taken, _, inside, fails⟩
  · rintro ⟨item, taken, child, inside, fails⟩
    exact .member (callsService_of_read rooted.reads) (rooted.finds_iff.mpr rfl) taken inside fails

/-- A pass over source data takes no number back for the selection. -/
theorem passes (rooted : OverResult frame field result element children) {options : PassOptions}
    (fromData : options.replacement? = none) (name : String) :
    Drawing.Passes (SelectionTree.ownContribution (.selection field element isList children) name
      options) := by
  apply Drawing.Passes.bind ?_ fun contributions => Drawing.passes_pure _
  have unhooked (pick : Extension → Adjustment) (expr : Expr) : Drawing.Passes
      (Extension.adjustAll pick field.name field.arguments field.extensions expr) := by
    rw [rooted.plain]
    exact Drawing.passes_pure expr
  apply passes_contribute_selection
  · simp only [Field.drawSource, fromData, Option.bind_none]
    exact (unhooked _ _).bind fun _ => Drawing.passes_pure _
  · intro inner
    exact passes_contributeAll fun child inside => (rooted.suits child inside).passes inner none
  · exact unhooked _

end OverResult

end Outline

end StagedQuery
