import StagedQuery.Proofs.Selection.Meaning
import StagedQuery.Proofs.Selection.PureStage

/-!
# What the first stage stores

The object that a pass without services builds holds members of two kinds. Under reserved
names it holds the values of chains from which services will be fed. Under the name of a
field without services it holds what the expression of that field evaluates to. Its shape
declares exactly these members, so a later stage can find them.
-/

namespace StagedQuery

/-! ## Stocks -/

/-- Contributions are in stock: an object holds them under a shape that declares them. What
    is not a chain is found again by its name. -/
structure Stocks (provider : Provider) (env : Environment) (shape : Shape) (stored : Value)
    (contributions : Contributions) : Prop where
  declared : ∀ name expr, (name, expr) ∈ contributions → shape.hasMember name = true
  found : ∀ name expr, (name, expr) ∈ contributions → isReserved name = false →
    shape.member? name = some expr.shape ∧ expr.evaluate provider env = pure (stored.member name)

section Stocks

variable {provider : Provider} {env : Environment} {shape : Shape} {stored value : Value}
  {contributions : Contributions}

/-- Fewer contributions are in stock. -/
theorem Stocks.mono (stocks : Stocks provider env shape stored contributions)
    {fewer : Contributions} (subset : ∀ pair ∈ fewer, pair ∈ contributions) :
    Stocks provider env shape stored fewer where
  declared name expr inside := stocks.declared name expr (subset _ inside)
  found name expr inside := stocks.found name expr (subset _ inside)

/-- The names of contributions that are no names of chains. -/
def plainNames (contributions : Contributions) : List String :=
  (contributions.map Prod.fst).filter fun name => !isReserved name

/-- Where plain names are distinct, a plain contribution is found by its name. -/
theorem value?_of_plain (distinct : (plainNames contributions).Nodup) {name : String}
    {expr : Expr} (inside : (name, expr) ∈ contributions) (plain : isReserved name = false) :
    Members.value? contributions name = some expr := by
  induction contributions with
  | nil => cases inside
  | cons first rest ih =>
    obtain ⟨own, head⟩ := first
    have later : (plainNames rest).Nodup := by
      refine distinct.sublist ?_
      exact List.Sublist.filter _ (List.sublist_cons_self _ _)
    rcases List.mem_cons.mp inside with same | deeper
    · cases same
      simp [Members.value?]
    · have different : own ≠ name := by
        rintro rfl
        have listed : own ∈ plainNames rest :=
          List.mem_filter.mpr ⟨List.mem_map.mpr ⟨_, deeper, rfl⟩, by simp [plain]⟩
        have fresh : own ∉ plainNames rest := by
          simp only [plainNames, List.map_cons, List.filter_cons, plain, Bool.not_false,
            ↓reduceIte] at distinct
          exact (List.nodup_cons.mp distinct).1
        exact fresh listed
      simpa [Members.value?, different] using ih later deeper

/-- Where plain names are distinct, a plain contribution is the first of its name. -/
theorem mem_firsts_of_plain (distinct : (plainNames contributions).Nodup) {name : String}
    {expr : Expr} (inside : (name, expr) ∈ contributions) (plain : isReserved name = false) :
    (name, expr) ∈ Members.firsts contributions := by
  apply Members.mem_of_value?
  rw [Members.value?_firsts, value?_of_plain distinct inside plain]

/-- A shape declares plain contributions: under the name of each it has the shape of it. -/
def Declares (shape : Shape) (contributions : Contributions) : Prop :=
  ∀ name expr, (name, expr) ∈ contributions → isReserved name = false →
    shape.member? name = some expr.shape

/-- A shape that declares contributions declares fewer. -/
theorem Declares.mono (declares : Declares shape contributions) {fewer : Contributions}
    (subset : ∀ pair ∈ fewer, pair ∈ contributions) : Declares shape fewer :=
  fun name expr inside => declares name expr (subset _ inside)

/-- The object of the first contributions of each name declares the plain ones. -/
theorem declares_firsts (distinct : (plainNames contributions).Nodup) (title : String) :
    Declares (.ofPairs title (Expr.fieldShapes (Members.firsts contributions)))
      contributions := by
  intro name expr inside plain
  rw [member?_shape_of_distinct (Members.distinct_firsts contributions), Members.value?_firsts,
    value?_of_plain distinct inside plain]
  rfl

/-- The object of the first contributions of each name stocks all contributions. -/
theorem stocks_of_evaluateObject (distinct : (plainNames contributions).Nodup)
    (evaluated : Expr.evaluateObject provider (Members.firsts contributions) env = pure stored)
    (title : String) :
    Stocks provider env (.ofPairs title (Expr.fieldShapes (Members.firsts contributions))) stored
      contributions where
  declared name expr inside := by
    obtain ⟨first, known⟩ := Members.exists_value?_of_mem inside
    unfold Shape.hasMember
    rw [member?_shape_of_distinct (Members.distinct_firsts contributions),
      Members.value?_firsts, known]
    rfl
  found name expr inside plain :=
    ⟨declares_firsts distinct title name expr inside plain,
      evaluate_of_evaluateObject (Members.distinct_firsts contributions) evaluated
        (mem_firsts_of_plain distinct inside plain)⟩

/-- A contribution is the value of a chain under the name of the chain, or has a plain
    name. -/
def Feeds (provider : Provider) (env : Environment) (value : Value)
    (contributions : Contributions) : Prop :=
  ∀ name expr, (name, expr) ∈ contributions → isReserved name = false ∨
    ∃ path, name = extractedName path ∧ expr.evaluate provider env = pure (value.along path)

/-- The object of the first contributions of each name carries the chains that feed
    services. -/
theorem carries_of_evaluateObject (feeds : Feeds provider env value contributions)
    (evaluated : Expr.evaluateObject provider (Members.firsts contributions) env = pure stored)
    (title : String) :
    Expr.Carries (.ofPairs title (Expr.fieldShapes (Members.firsts contributions)))
      stored value := by
  refine carries_of_distinct (Members.distinct_firsts contributions) evaluated ?_ title
  intro path expr gathered
  rcases feeds _ _ (Members.mem_of_mem_firsts gathered) with plain | ⟨other, same, valued⟩
  · rw [isReserved_extractedName] at plain
    cases plain
  · rwa [extractedName_inj same]

/-- Contributions that feed in turn feed together. -/
theorem Feeds.append {others : Contributions} (feeds : Feeds provider env value contributions)
    (later : Feeds provider env value others) :
    Feeds provider env value (contributions ++ others) := by
  intro name expr inside
  rcases List.mem_append.mp inside with first | other
  · exact feeds name expr first
  · exact later name expr other

end Stocks

/-! ## What a pass without services contributes -/

/-- What feeds the services of a field are its chains, each under its name. -/
theorem Field.exists_chain_of_extracted (field : Field) {base? : Option Placeholder}
    {options : PassOptions} {name : String} {expr : Expr}
    (inside : (name, expr) ∈ field.contributeExtracted base? options) :
    ∃ path node, node.chain? field.context = some path ∧ name = extractedName path ∧
      expr = field.relocate base? options node := by
  obtain ⟨⟨own, node⟩, listed, same⟩ := List.mem_map.mp inside
  cases same
  cases extracted : field.extracted? with
  | none => simp [extracted] at listed
  | some found =>
    rw [extracted, Option.getD_some] at listed
    obtain ⟨path, -, chained, named⟩ := Expr.mem_of_extract? extracted listed
    exact ⟨path, node, chained, named, rfl⟩

/-- No plain name is among the names of chains. -/
theorem Field.plainNames_contributeExtracted (field : Field) (base? : Option Placeholder)
    (options : PassOptions) : plainNames (field.contributeExtracted base? options) = [] := by
  apply List.filter_eq_nil_iff.mpr
  intro name inside
  obtain ⟨⟨own, expr⟩, listed, rfl⟩ := List.mem_map.mp inside
  obtain ⟨path, node, -, named, -⟩ := field.exists_chain_of_extracted listed
  simp [named, isReserved_extractedName]

namespace Outline

variable {frame : Frame} {context : Placeholder} {outline : Outline} {outlines : List Outline}
  {options : PassOptions} {base? : Option Placeholder} {env : Environment} {value : Value}
  {supply : Nat}

/-- Outlines contribute names of their fields in order, if each of them does. Names of extracted
    chains are left aside. -/
theorem plainNames_contributeAll
    (each : ∀ outline ∈ outlines, Drawing.Yields (fun contributions =>
      (plainNames contributions).Sublist (outline.expanded.map Field.name))
      (outline.contribute options base?)) :
    Drawing.Yields (fun contributions =>
      (plainNames contributions).Sublist ((expandedAll outlines).map Field.name))
      (contributeAll options base? outlines) := by
  induction outlines with
  | nil => exact Drawing.yields_pure (List.Sublist.refl _)
  | cons first rest ih =>
    simp only [contributeAll]
    have later := ih fun outline inside => each outline (by simp [inside])
    refine (each first (by simp)).bind fun own fewer => later.bind fun others fewerToo =>
      Drawing.yields_pure ?_
    have joined : plainNames (own ++ others) = plainNames own ++ plainNames others := by
      simp [plainNames]
    rw [joined, expandedAll, List.map_append]
    exact fewer.append fewerToo

/-- The plain names that an outline contributes to any pass are names of its fields after
    its spreads are expanded, in their order. -/
theorem plainNames_contribute (outline : Outline) (options : PassOptions)
    (base? : Option Placeholder) : Drawing.Yields (fun contributions =>
      (plainNames contributions).Sublist (outline.expanded.map Field.name))
      (outline.contribute options base?) := by
  have single (field : Field) (expr : Expr) :
      (plainNames [(field.name, expr)]).Sublist [field.name] := by
    unfold plainNames
    exact List.filter_sublist
  have nothing (field : Field) : (plainNames []).Sublist [field.name] := List.nil_sublist _
  have chains (field : Field) (base? : Option Placeholder) (options : PassOptions) :
      (plainNames (field.contributeExtracted base? options)).Sublist [field.name] := by
    rw [field.plainNames_contributeExtracted]
    exact List.nil_sublist _
  induction outline using Outline.induction generalizing base? options with
  | scalar field =>
    simp only [contribute, Field.contributeScalar, expanded, List.map_cons, List.map_nil]
    split
    · exact Drawing.yields_pure (chains field base? options)
    · split
      · exact Drawing.yields_pure (single field _)
      · exact (Drawing.yields_true _).bind fun value _ => Drawing.yields_pure (single field value)
  | selection field element isList children each =>
    simp only [contribute, expanded, List.map_cons, List.map_nil]
    split
    · exact Drawing.yields_pure (chains field base? options)
    · refine (Drawing.yields_true _).bind fun found _ => (Drawing.yields_true _).bind
        fun members _ => ?_
      split
      · exact Drawing.yields_pure (nothing field)
      · split
        · exact (Drawing.yields_true _).bind fun value _ => Drawing.yields_pure (single field value)
        · exact Drawing.yields_pure (single field _)
  | spread field fields each =>
    simp only [contribute, expanded]
    exact plainNames_contributeAll fun child inside => each child inside _ _
  | endless => exact Drawing.yields_pure (List.Sublist.refl _)

/-- Some outlines feed if each does. -/
theorem feeds_contributeAll (each : ∀ outline ∈ outlines, ∀ supply,
      Feeds frame.provider env value (outline.contribute options base? supply).1) :
    Feeds frame.provider env value (contributeAll options base? outlines supply).1 := by
  induction outlines generalizing supply with
  | nil =>
    intro name expr inside
    cases inside
  | cons first rest ih =>
    simp only [contributeAll, Drawing.run_bind, Drawing.run_pure]
    apply (each first (by simp) supply).append
    exact ih fun outline inside => each outline (by simp [inside])

/-- The chains of a field have their values where a pass over source data moves them. -/
theorem feeds_contributeExtracted {field : Field} (fits : frame.Fits field)
    (fromData : options.replacement? = none) (owned : frame.owners (base?.getD field.context))
    (gives : frame.Gives env (base?.getD field.context) value) :
    Feeds frame.provider env value (field.contributeExtracted base? options) := by
  intro name expr inside
  right
  obtain ⟨path, node, chained, named, moved⟩ := field.exists_chain_of_extracted inside
  refine ⟨path, named, ?_⟩
  have free : ∀ number ∈ node.free,
      number = field.context.number ∨ number = frame.slot.number := by
    intro number read
    rw [Expr.free_of_chain? chained, List.mem_singleton] at read
    exact .inl read
  have binds := Expr.binds_of_chain? chained
  rw [moved, Frame.evaluate_relocate fits free (binds _) fromData owned gives]
  exact Expr.evaluate_of_chain? (Frame.gives_own fits value).base chained

/-- What an outline contributes to a pass over source data are fed chains and plain names. -/
theorem Suits.feeds (suits : Suits frame context outline)
    (fromData : options.replacement? = none) (owned : frame.owners (base?.getD context))
    (gives : frame.Gives env (base?.getD context) value) :
    Feeds frame.provider env value (outline.contribute options base? supply).1 := by
  have single {field : Field} (fits : frame.Fits field) (own : Expr) :
      Feeds frame.provider env value [(field.name, own)] := by
    intro name expr inside
    obtain ⟨rfl, -⟩ := Prod.mk.inj (List.mem_singleton.mp inside)
    exact .inl fits.unreserved
  have nothing : Feeds frame.provider env value [] := by
    intro name expr inside
    cases inside
  induction suits generalizing options base? supply with
  | @scalar field fits =>
    simp only [contribute, Field.contributeScalar, fromData, Option.bind_none]
    split
    · exact feeds_contributeExtracted fits fromData owned gives
    · exact single fits _
  | @selection field element isList children fits selects lists distinct below ih =>
    simp only [contribute]
    split
    · exact feeds_contributeExtracted fits fromData owned gives
    · simp only [Drawing.run_bind]
      split
      · exact nothing
      · split
        · exact single fits _
        · exact single fits _
  | @spread field slot fields below ih =>
    simp only [contribute]
    apply feeds_contributeAll
    intro child inside supply
    exact ih child inside fromData owned gives

/-- An outline that suits a frame comes to an end. -/
theorem Suits.isFinite (suits : Suits frame context outline) (leavingOut : Bool) :
    outline.isFinite leavingOut = true := by
  induction suits with
  | scalar fits => rfl
  | selection fits selects lists distinct below ih =>
    simp only [Outline.isFinite, Bool.or_eq_true]
    exact .inr (allFinite_iff.mpr ih)
  | spread below ih => exact allFinite_iff.mpr ih

/-- Where no outline calls a service, a pass without services leaves none out. -/
theorem names_of_anyServices? (finite : ∀ outline ∈ outlines, outline.isFinite false = true)
    (silent : anyServices? outlines ≠ some true) :
    (contributeAll .withoutServices base? outlines supply).1.map Prod.fst =
      visibleAll outlines := by
  have quiet : anyServices? outlines = some false := by
    have decided := anyServices?_eq fun outline inside =>
      hasServices?_eq outline (finite outline inside)
    rw [decided] at silent ⊢
    simpa using silent
  exact names_contributeAll (fun outline inside => names_contribute outline base?
    (.inr (hasServices?_of_anyServices? quiet outline inside))) supply

/-- A field that calls a service feeds it in place of itself. -/
theorem contribute_scalar_of_callsService {field : Field} (calls : field.callsService = true) :
    (contribute .withoutServices base? (.scalar field) supply).1 =
      field.contributeExtracted base? .withoutServices := by
  simp [contribute, Field.contributeScalar, calls, PassOptions.withoutServices, Drawing.run_pure]

/-- A selection that calls a service feeds it in place of itself, and nothing below it is
    contributed. -/
theorem contribute_selection_of_callsService {field : Field} {element : Placeholder}
    {isList : Bool} {children : List Outline} (calls : field.callsService = true) :
    (contribute .withoutServices base? (.selection field element isList children) supply).1 =
      field.contributeExtracted base? .withoutServices := by
  simp [contribute, calls, PassOptions.withoutServices, Drawing.run_pure]

/-- The members of the object that a pass without services builds of some outlines. -/
def storedMembers (outlines : List Outline) (supply : Nat) : Members Expr :=
  Members.firsts (contributeAll .withoutServices none outlines supply).1

/-- A selection that calls no service itself contributes what the hooks of its field make of the
    objects of its own level to a pass without services, or nothing if such an object would be
    empty and no service is called below. -/
theorem contribute_selection_stored {field : Field} {element : Placeholder} {isList : Bool}
    {children : List Outline} (calls : field.callsService = false) (base? : Option Placeholder)
    (supply : Nat) :
    ∃ source middle later,
      let members := storedMembers children middle
      let selected := SelectionSource.select ⟨source, element, none, true⟩ field.name isList members
      let expr := (Extension.adjustAll Extension.afterSelection field.name field.arguments
        field.extensions selected later).1
      (contribute .withoutServices base? (.selection field element isList children) supply).1 =
        if members.isEmpty && anyServices? children != some true then []
        else [(field.name, expr)] := by
  let source := Extension.adjustAll Extension.beforeSelection field.name field.arguments
    field.extensions (field.relocate base? .withoutServices field.expr) supply
  have drawn : field.drawSource element isList base? .withoutServices supply =
      (⟨source.1, element, none, true⟩, source.2) := rfl
  refine ⟨source.1, source.2, (contributeAll .withoutServices none children source.2).2, ?_⟩
  simp only [contribute, calls, Bool.and_false, Bool.false_eq_true, ↓reduceIte, Drawing.run_bind,
    drawn]
  have inner : (⟨PassOptions.withoutServices.leavingOut, none, false⟩ : PassOptions) =
      .withoutServices := rfl
  have shell : (!(PassOptions.withoutServices.leavingOut &&
      anyServices? children == some true)) = (anyServices? children != some true) := rfl
  rw [inner, shell, storedMembers]
  split <;> rfl

/-- What a selection that calls no service itself contributes to a pass without services:
    nothing if nothing is visible in it and no service is called below it, else one
    expression. -/
theorem contribute_selection_withoutServices {field : Field} {element : Placeholder}
    {isList : Bool} {children : List Outline} (fits : frame.Fits field)
    (below : ∀ child ∈ children, Suits frame element child) (calls : field.callsService = false)
    (owned : frame.owners (base?.getD field.context))
    (gives : frame.Gives env (base?.getD field.context) value) (passed : frame.supply ≤ supply) :
    ∃ middle members expr, frame.supply ≤ middle ∧
      members = Members.firsts (contributeAll .withoutServices none children middle).1 ∧
      (contribute .withoutServices base? (.selection field element isList children) supply).1 =
        (if (visibleAll children).isEmpty && anyServices? children != some true then []
          else [(field.name, expr)]) ∧
      expr.evaluate frame.provider env =
        (frame.valueOf field value >>= (frame.actions field).before) >>= (fun source =>
          selectFrom isList (fun item =>
            Expr.evaluateObject frame.provider members (env.bind element item)) source >>=
              cutValue (frame.actions field).cuts) ∧
      expr.shape =
        selectionShape (element.shape.objectName?.getD field.name) isList members := by
  have stays : (PassOptions.withoutServices.leavingOut && field.callsService) = false := by
    simp [calls]
  obtain ⟨middle, members, expr, enough, gathered, contributed, evaluated, shape⟩ :=
    @contribute_selection_fromData _ _ base? _ _ _ _ element isList children fits below stays
      (field.known?_of_fromData rfl) (Frame.moves_of_fromData fits rfl owned gives) gives.supplied
      passed
  refine ⟨middle, members, expr, enough, gathered, ?_, evaluated, shape⟩
  by_cases silent : anyServices? children = some true
  · rw [contributed, if_neg (by simp [silent, PassOptions.withoutServices]),
      if_neg (by simp [silent])]
  · have names := @names_of_anyServices? _ none middle
      (fun child inside => (below child inside).isFinite false) silent
    have empty : List.isEmpty members = (visibleAll children).isEmpty := by
      rw [← names, List.isEmpty_map, gathered]
      exact Members.isEmpty_firsts _
    rw [contributed, empty]
    simp [silent, PassOptions.withoutServices, bne]

end Outline

end StagedQuery
