import StagedQuery.Proofs.Selection.Acyclic
import StagedQuery.Proofs.Selection.FirstStage
import StagedQuery.Proofs.Selection.Staged

/-!
# What the second stage makes of the first

A merging pass reads fields without services from the object that the first stage stored
and evaluates fields with services from the chains that it carries. At every level the
outcome is the meaning of the selection in two stages: what a page dropped in the first
stage is not looked at again.
-/

namespace StagedQuery

open Outcome

/-! ## Selecting from what was selected before -/

/-- Members are selected from stored objects instead of the items that they were made of.
    What was cut off before is not looked at again. -/
theorem selectFrom_stored {isList : Bool} {cuts : List Cut}
    {stage later body : Value → Outcome Value} {source selected stored : Value}
    (objects : ∀ item result, stage item = pure result → ∃ members, result = .object members)
    (selects : selectFrom isList stage source = pure selected)
    (cut : cutValue cuts selected = pure stored)
    (each : ∀ item result, stage item = pure result → later result = body item) :
    selectFrom isList later stored = cutValue cuts source >>= selectFrom isList body := by
  by_cases null : source = .null
  · subst null
    rw [selectFrom_null] at selects
    obtain rfl := pure_inj.mp selects
    rw [cutValue_null] at cut
    obtain rfl := pure_inj.mp cut
    rw [cutValue_null, pure_bind, selectFrom_null, selectFrom_null]
  · cases isList with
    | false =>
      rw [selectFrom_of_ne_null null] at selects
      obtain ⟨members, rfl⟩ := objects source selected selects
      obtain ⟨rfl, rfl⟩ := cutValue_object (congrArg Outcome.result cut)
      have present : Value.object members ≠ .null := by simp
      rw [cutValue_nil, pure_bind, selectFrom_of_ne_null null, selectFrom_of_ne_null present]
      exact each source _ selects
    | true =>
      cases source with
      | list items =>
        rw [selectFrom_list, map_eq_pure_bind] at selects
        obtain ⟨results, evaluated, same⟩ := bind_eq_pure.mp selects
        obtain rfl := pure_inj.mp same
        rw [cutValue_list] at cut
        obtain rfl := pure_inj.mp cut
        have aligned := forall₂_cutItems cuts (forall₂_of_mapItems evaluated)
        rw [cutValue_list, pure_bind, selectFrom_list, selectFrom_list,
          mapItems_eq_of_forall₂ (aligned.imp each)]
      | null => exact absurd rfl null
      | bool | int | float | string | enumeration | object => cases congrArg Outcome.result selects

/-! ## Reading from a stock -/

namespace Frame

variable {frame : Frame} {field : Field} {env env' : Environment} {base? : Option Placeholder}
  {stock : Placeholder} {value stored : Value} {supply : Nat}

/-- An environment that gives what an earlier stage stored to a placeholder that no field
    mentions, and the variables theirs. -/
structure Holds (frame : Frame) (env : Environment) (stock : Placeholder) (stored : Value) :
    Prop where
  unused : frame.supply ≤ stock.number
  given : env.value? stock = some stored
  supplied : env.value? frame.slot = some frame.supplied

/-- Below a binder of a placeholder that no field mentions, that placeholder is the stock. -/
theorem holds_bind (supplied : env.value? frame.slot = some frame.supplied) {fresh : Placeholder}
    (unused : frame.supply ≤ fresh.number) (item : Value) :
    frame.Holds (env.bind fresh item) fresh item where
  unused := unused
  given := by simp [Environment.value?_bind]
  supplied := by
    have apart : fresh.number ≠ frame.slot.number :=
      Nat.ne_of_gt (Nat.lt_of_lt_of_le frame.slot_lt unused)
    rw [Environment.value?_bind, if_neg apart, supplied]

/-- A field that calls a service has its value where all its chains are in stock. -/
theorem moves_of_stocks (fits : frame.Fits field) (calls : field.callsService = true)
    (holds : frame.Holds env' stock stored) (carries : Expr.Carries stock.shape stored value)
    (stocks : Stocks frame.provider env stock.shape stored
      (field.contributeExtracted base? .withoutServices)) :
    frame.Moves field base? (.merging (.read stock)) env' value := by
  have own := gives_own fits value
  have calling : field.expr.hasServices = true := by rw [← Field.callsService_eq, calls]
  have binders : field.expr.Binds fun number =>
      number ≠ field.context.number ∧ number ≠ stock.number := by
    refine fits.closed.binds.mono ?_
    rintro number ⟨below, -, clear⟩
    have unused := holds.unused
    exact ⟨clear _ fits.context, by omega⟩
  -- Every maximal chain was contributed, so the stock declares its name.
  have reachable : ∀ node ∈ field.expr.chainWalk field.context, ∀ path,
      node.chain? field.context = some path → Expr.Reachable stock.shape stored value path := by
    intro node visited path chained
    obtain ⟨found, first, extracted, listed⟩ :=
      Expr.exists_extracted_of_chain calling visited chained
    have contributed : (extractedName path, field.relocate base? .withoutServices first) ∈
        field.contributeExtracted base? .withoutServices := by
      unfold Field.contributeExtracted Field.extracted?
      rw [extracted, Option.getD_some]
      exact List.mem_map.mpr ⟨_, listed, rfl⟩
    exact .inl (stocks.declared _ _ contributed)
  exact Expr.evaluate_substitute_read field.expr binders own.base holds.given
    (agree_of_supplied fits.closed.free own.supplied holds.supplied) carries reachable

end Frame

namespace Outline

variable {frame : Frame} {context : Placeholder} {outline : Outline} {outlines : List Outline}
  {base? : Option Placeholder} {env env' : Environment} {stock : Placeholder}
  {value stored : Value} {supply : Nat}

/-- A merging pass reads a scalar without services that the stock declares. -/
theorem contributeScalar_of_declared {field : Field} {shape : Shape}
    (calls : field.callsService = false) (declared : stock.shape.member? field.name = some shape) :
    field.contributeScalar base? (.merging (.read stock)) supply =
      ([(field.name, .member (.read stock) field.name shape)], supply) := by
  simp [Field.contributeScalar, PassOptions.merging, Field.replaced?, calls, Expr.shape, declared,
    Drawing.run_pure]

/-- The placeholder that a merging pass draws for a value or the items of a value that the stock
    declares. -/
def drawnElement (name : String) (isList : Bool) (shape : Shape) (supply : Nat) : Placeholder :=
  ⟨supply, name, if isList then shape.element?.getD .any else shape⟩

/-- Drawn for a selection, it has the shape of the selected objects. -/
theorem shape_drawnElement (name title : String) (isList : Bool) (members : Members Expr)
    (supply : Nat) : (drawnElement name isList (selectionShape title isList members) supply).shape =
      .ofPairs title (Expr.fieldShapes members) := by
  cases isList <;> rfl

/-- A merging pass selects members from what the stock declares. -/
theorem contribute_selection_of_declared {field : Field} {element : Placeholder} {isList : Bool}
    {children : List Outline} {shape : Shape} (calls : field.callsService = false)
    (declared : stock.shape.member? field.name = some shape) :
    let fresh := drawnElement field.name isList shape supply
    let selected := contributeAll (.merging (.read fresh)) none children (supply + 1)
    let members := Members.firsts selected.1
    let known : Expr := .member (.read stock) field.name shape
    contribute (.merging (.read stock)) base? (.selection field element isList children) supply =
      (if members.isEmpty then []
        else [(field.name, (SelectionSource.mk known fresh (some (.read fresh)) false).select
          field.name isList members)], selected.2) := by
  intro fresh selected members known
  have drawn : field.drawSource element isList base? (.merging (.read stock)) supply =
      (⟨known, fresh, some (.read fresh), false⟩, supply + 1) := by
    simp only [Field.drawSource, PassOptions.merging, Field.replaced?, calls, Bool.false_eq_true,
      ↓reduceIte, Expr.shape, declared, Option.map_some, Option.bind_some]
    cases isList <;> rfl
  have stays : ((PassOptions.merging (.read stock)).leavingOut && field.callsService) = false := rfl
  simp only [contribute, stays, Bool.false_eq_true, ↓reduceIte, Drawing.run_bind, drawn]
  have inner : (⟨(PassOptions.merging (.read stock)).leavingOut, some (.read fresh), false⟩ :
      PassOptions) = .merging (.read fresh) := rfl
  have noShell : (!((PassOptions.merging (.read stock)).leavingOut &&
      anyServices? children == some true)) = true := rfl
  rw [inner, noShell, Bool.and_true]
  split <;> rfl

/-- What some outlines contribute to a merging pass has their meaning in two stages if this
    holds of each. -/
theorem evaluate_contributeAll_merging {first : Nat}
    (suits : ∀ outline ∈ outlines, Suits frame context outline) (started : frame.supply ≤ first)
    (passed : frame.supply ≤ supply)
    (stocks : Stocks frame.provider env stock.shape stored
      (contributeAll .withoutServices base? outlines first).1)
    (each : ∀ outline ∈ outlines, ∀ first supply, frame.supply ≤ first → frame.supply ≤ supply →
      Stocks frame.provider env stock.shape stored
        (outline.contribute .withoutServices base? first).1 →
      Expr.evaluateFields frame.provider
        (outline.contribute (.merging (.read stock)) base? supply).1 env' =
        outline.staged frame value) :
    Expr.evaluateFields frame.provider
      (contributeAll (.merging (.read stock)) base? outlines supply).1 env' =
      stagedAll frame outlines value := by
  induction outlines generalizing first supply with
  | nil => rfl
  | cons head rest ih =>
    simp only [contributeAll, Drawing.run_bind, Drawing.run_pure] at stocks ⊢
    have fits := suits head (by simp)
    have own := each head (by simp) first supply started passed
      (stocks.mono fun pair inside => by simp [inside])
    have later := ih (fun outline inside => suits outline (by simp [inside]))
      (Nat.le_trans started (fits.passes .withoutServices base? first))
      (Nat.le_trans passed (fits.passes (.merging (.read stock)) base? supply))
      (stocks.mono fun pair inside => by simp [inside])
      fun outline inside => each outline (by simp [inside])
    rw [Expr.evaluateFields_append, stagedAll, own, later]

/-- The objects that a pass without services builds hold the chains and the fields that it
    contributes. -/
theorem stocks_and_carries (suits : ∀ outline ∈ outlines, Suits frame context outline)
    (distinct : ((expandedAll outlines).map Field.name).Nodup)
    (owned : frame.owners (base?.getD context))
    (gives : frame.Gives env (base?.getD context) value)
    (evaluated : Expr.evaluateObject frame.provider (Members.firsts
      (contributeAll .withoutServices base? outlines supply).1) env = pure stored)
    (title : String) :
    let shape := Shape.ofPairs title (Expr.fieldShapes (Members.firsts
      (contributeAll .withoutServices base? outlines supply).1))
    Stocks frame.provider env shape stored
        (contributeAll .withoutServices base? outlines supply).1 ∧
      Expr.Carries shape stored value := by
  constructor
  · refine stocks_of_evaluateObject ?_ evaluated title
    exact distinct.sublist (plainNames_contributeAll
      (fun outline _ => plainNames_contribute outline .withoutServices base?) supply)
  · refine carries_of_evaluateObject ?_ evaluated title
    exact feeds_contributeAll fun outline inside supply =>
      (suits outline inside).feeds rfl owned gives

/-- Members are selected again from what a pass without services has selected and cut: over
    the stored objects a merging pass finds what the children mean in two stages over the items
    that are left, if each child does. -/
theorem selectFrom_merging {element fresh : Placeholder} {isList : Bool}
    {children : List Outline} {members : Members Expr} {middle : Nat} {title : String}
    {cuts : List Cut} {source selected : Value}
    (below : ∀ child ∈ children, Suits frame element child)
    (distinct : ((expandedAll children).map Field.name).Nodup)
    (gathered : members = Members.firsts (contributeAll .withoutServices none children middle).1)
    (shape : fresh.shape = .ofPairs title (Expr.fieldShapes members))
    (unused : frame.supply ≤ fresh.number)
    (supplied : env.value? frame.slot = some frame.supplied)
    (suppliedToo : env'.value? frame.slot = some frame.supplied) (owned : frame.owners element)
    (enough : frame.supply ≤ middle) (passed : frame.supply ≤ supply)
    (selects : selectFrom isList (fun item =>
      Expr.evaluateObject frame.provider members (env.bind element item)) source = pure selected)
    (cut : cutValue cuts selected = pure stored)
    (each : ∀ child ∈ children, ∀ (env env' : Environment) (item result : Value)
      (first supply : Nat), frame.Gives env element item → frame.supply ≤ first →
      Stocks frame.provider env fresh.shape result
        (child.contribute .withoutServices none first).1 →
      Expr.Carries fresh.shape result item → frame.Holds env' fresh result →
      frame.supply ≤ supply →
      Expr.evaluateFields frame.provider
        (child.contribute (.merging (.read fresh)) none supply).1 env' =
        child.staged frame item) :
    selectFrom isList (fun item => Expr.evaluateObject frame.provider
        (contributeAll (.merging (.read fresh)) none children supply).1
        (env'.bind fresh item)) stored =
      cutValue cuts source >>= selectFrom isList fun item =>
        Value.ofPairs <$> stagedAll frame children item := by
  have objects (item result : Value) (built : Expr.evaluateObject frame.provider members
      (env.bind element item) = pure result) : ∃ members, result = .object members :=
    object_of_ofPairs (congrArg Outcome.result built)
  refine selectFrom_stored objects selects cut ?_
  -- The stored objects are stocks for the members that are selected from them.
  intro item result built
  have gives := Frame.gives_bind supplied (frame.owner_ne element owned) item
  have ownedHere : frame.owners ((none : Option Placeholder).getD element) := owned
  rw [gathered] at built shape
  obtain ⟨stocks, carries⟩ := stocks_and_carries below distinct ownedHere gives built title
  rw [← shape] at stocks carries
  refine congrArg _ (evaluate_contributeAll_merging below enough passed stocks ?_)
  intro child inside first supply started passed stocks
  exact each child inside _ _ item result first supply gives started stocks carries
    (Frame.holds_bind suppliedToo unused result) passed

/-- A selection from what the stock declares has the meaning of the selection in two stages,
    if the children have theirs over every object that the stock holds. -/
theorem evaluate_selection_of_declared {field : Field} {element : Placeholder} {isList : Bool}
    {children : List Outline} {members : Members Expr} {middle : Nat} {title : String}
    (calls : field.callsService = false)
    (below : ∀ child ∈ children, Suits frame element child)
    (distinct : ((expandedAll children).map Field.name).Nodup)
    (filled : ¬(visibleAll children).isEmpty = true)
    (declared : stock.shape.member? field.name = some (selectionShape title isList members))
    (gathered : members = Members.firsts (contributeAll .withoutServices none children middle).1)
    (valued : (frame.valueOf field value >>= (frame.actions field).before) >>= (fun source =>
      selectFrom isList (fun item =>
        Expr.evaluateObject frame.provider members (env.bind element item)) source >>=
          cutValue (frame.actions field).cuts) = pure (stored.member field.name))
    (supplied : env.value? frame.slot = some frame.supplied) (owned : frame.owners element)
    (enough : frame.supply ≤ middle) (holds : frame.Holds env' stock stored)
    (passed : frame.supply ≤ supply)
    (each : ∀ child ∈ children, ∀ (env env' : Environment) (item result : Value)
      (fresh : Placeholder) (first supply : Nat), frame.Gives env element item →
      frame.supply ≤ first →
      Stocks frame.provider env fresh.shape result
        (child.contribute .withoutServices none first).1 →
      Expr.Carries fresh.shape result item → frame.Holds env' fresh result →
      frame.supply ≤ supply →
      Expr.evaluateFields frame.provider
        (child.contribute (.merging (.read fresh)) none supply).1 env' =
        child.staged frame item) :
    Expr.evaluateFields frame.provider
      (contribute (.merging (.read stock)) base? (.selection field element isList children)
        supply).1 env' =
      (Outline.selection field element isList children).staged frame value := by
  obtain ⟨source, sourced, rest⟩ := bind_eq_pure.mp valued
  obtain ⟨selected, selects, cut⟩ := bind_eq_pure.mp rest
  rw [contribute_selection_of_declared calls declared]
  let fresh := drawnElement field.name isList (selectionShape title isList members) supply
  have shape : fresh.shape = .ofPairs title (Expr.fieldShapes members) :=
    shape_drawnElement field.name title isList members supply
  have wholePass : (PassOptions.merging (.read fresh)).leavingOut = false := rfl
  obtain ⟨kept, empty⟩ := firsts_contributeAll wholePass distinct none (supply + 1)
  have selectsAgain := selectFrom_merging below distinct gathered shape passed supplied
    holds.supplied owned enough (Nat.le_succ_of_le passed) selects cut
    fun child inside env env' item result => each child inside env env' item result fresh
  simp only [fresh] at kept empty selectsAgain
  simp only [kept, empty, if_neg filled, staged, calls, Bool.false_eq_true, ↓reduceIte, sourced,
    pure_bind, Expr.evaluateFields, SelectionSource.evaluate_select, Expr.evaluate, holds.given,
    selectsAgain, bind_assoc]

/-- What an outline contributes to a merging pass has the meaning of the outline in two
    stages, if the stock holds what the outline contributed to the pass without services.

    Proof: induction on the outline. A field that calls a service is evaluated over the
    source data by way of its chains, and so are its members. Of any other field the stock
    holds the value. If that is an object or a list, its objects in turn are stocks for the
    members that are selected from them, under a shape that the value's shape declares. -/
theorem Suits.evaluate_merging (suits : Suits frame context outline) {first : Nat}
    (owned : frame.owners (base?.getD context))
    (gives : frame.Gives env (base?.getD context) value) (started : frame.supply ≤ first)
    (stocks : Stocks frame.provider env stock.shape stored
      (outline.contribute .withoutServices base? first).1)
    (carries : Expr.Carries stock.shape stored value)
    (holds : frame.Holds env' stock stored) (passed : frame.supply ≤ supply) :
    Expr.evaluateFields frame.provider
      (outline.contribute (.merging (.read stock)) base? supply).1 env' =
      outline.staged frame value := by
  induction suits generalizing base? env env' value stored stock first supply with
  | @scalar field fits =>
    cases calls : field.callsService with
    | true =>
      rw [contribute_scalar_of_callsService calls] at stocks
      have moves := Frame.moves_of_stocks fits calls holds carries stocks
      obtain ⟨expr, contributed, evaluated⟩ := Frame.contributeScalar_fromData fits (by rfl)
        (Field.known?_of_callsService rfl calls) moves holds.supplied passed
      simp only [contribute, contributed, Expr.evaluateFields, evaluated, staged, meaning,
        pure_bind]
    | false =>
      have stays : (PassOptions.withoutServices.leavingOut && field.callsService) = false := by
        simp [calls]
      obtain ⟨expr, contributed, evaluated⟩ := Frame.contributeScalar_fromData fits stays
        (field.known?_of_fromData rfl) (Frame.moves_of_fromData fits rfl owned gives)
        gives.supplied started
      obtain ⟨declared, valued⟩ := stocks.found field.name expr
        (by simp only [contribute, contributed, List.mem_singleton]) fits.unreserved
      simp only [contribute, staged, meaning, ← evaluated, valued]
      rw [contributeScalar_of_declared calls declared]
      simp only [Expr.evaluateFields, Expr.evaluate, holds.given, pure_bind]
  | @selection field element isList children fits selects lists distinct below ih =>
    have owned' : frame.owners element := fits.element element selects
    cases calls : field.callsService with
    | true =>
      rw [contribute_selection_of_callsService calls] at stocks
      have moves := Frame.moves_of_stocks fits calls holds carries stocks
      simp only [staged, calls, ↓reduceIte]
      refine evaluate_selection_fromData fits below distinct rfl
        (Field.known?_of_callsService rfl calls) moves holds.supplied passed ?_
      intro child inside item supply enough
      exact (below child inside).evaluate_full rfl rfl owned'
        (Frame.gives_bind holds.supplied (frame.owner_ne element owned') item) enough
    | false =>
      obtain ⟨middle, members, expr, enough, gathered, contributed, evaluated, shape⟩ :=
        @contribute_selection_withoutServices _ _ _ _ _ _ element isList children fits below calls
          owned gives started
      by_cases nothing : (visibleAll children).isEmpty = true
      · -- Nothing of this selection is contributed, and it means nothing.
        have names : (contribute (.merging (.read stock)) base?
            (.selection field element isList children) supply).1.map Prod.fst = [] := by
          rw [names_contribute _ base? (.inl rfl) supply, visible, if_pos nothing]
        rw [List.map_eq_nil_iff.mp names]
        simp only [staged, calls, Bool.false_eq_true, ↓reduceIte, if_pos nothing]
        rfl
      · rw [if_neg (by simp [nothing])] at contributed
        obtain ⟨declared, valued⟩ :=
          stocks.found field.name expr (by simp [contributed]) fits.unreserved
        rw [shape] at declared
        rw [evaluated] at valued
        refine evaluate_selection_of_declared calls below distinct nothing declared gathered valued
          gives.supplied owned' enough holds passed ?_
        intro child inside env env' item result fresh first supply gives started stocks carries
          holds passed
        exact ih child inside owned' gives started stocks carries holds passed
  | @spread field slot fields below ih =>
    simp only [contribute, staged] at stocks ⊢
    refine evaluate_contributeAll_merging below started passed stocks ?_
    intro child inside first supply started passed stocks
    exact ih child inside owned gives started stocks carries holds passed

end Outline

end StagedQuery
