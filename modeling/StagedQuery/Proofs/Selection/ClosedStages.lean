import StagedQuery.Proofs.Expr.Effects
import StagedQuery.Proofs.Selection.Calls

/-!
# The stages of a query are closed

A field is written over the placeholder of its owner: the root, an element, a fragment or the
result of a mutation. A pass moves it to the root of its stage, to the element that the
enclosing selection binds or to what an earlier stage has stored. Wherever the fields and
their hooks read nothing but their own placeholder and the variables, every read of a
compiled stage is of its root, of the variables or of a placeholder that the stage binds
itself. Names may repeat, and nothing is asked of services. A stage that runs binds its root
and the variables, so it never meets an unbound placeholder.
-/

namespace StagedQuery

/-! ## Reads that are allowed -/

/-- Every free placeholder of an expression is allowed. -/
def Expr.ReadsOnly (allowed : Nat → Prop) (expr : Expr) : Prop :=
  ∀ number ∈ expr.free, allowed number

/-- A bound placeholder is allowed below its binder. -/
def allowAlso (allowed : Nat → Prop) (slot : Placeholder) (number : Nat) : Prop :=
  allowed number ∨ number = slot.number

/-- What an adjustment makes of an expression reads no more than the expression and the
    variables. -/
def Adjustment.AddsNoRead (adjust : Adjustment) (slot : Placeholder) (field : String)
    (arguments : ArgumentSet) : Prop :=
  ∀ expr, Drawing.Yields
    (fun adjusted => ∀ number ∈ adjusted.free, number ∈ expr.free ∨ number = slot.number)
    (adjust field arguments expr)

/-- A field that reads its own context and the variables, as do its hooks beside what they
    are given. -/
structure Field.Scoped (field : Field) (slot : Placeholder) : Prop where
  own : ∀ number ∈ field.expr.free, number = field.context.number ∨ number = slot.number
  beforeSelection : ∀ extension ∈ field.extensions,
    extension.beforeSelection.AddsNoRead slot field.name field.arguments
  afterSelection : ∀ extension ∈ field.extensions,
    extension.afterSelection.AddsNoRead slot field.name field.arguments
  onScalar : ∀ extension ∈ field.extensions,
    extension.onScalar.AddsNoRead slot field.name field.arguments

variable {allowed : Nat → Prop} {slot : Placeholder}

/-- Hooks that read nothing else, applied in turn, read nothing else. -/
theorem Extension.readsOnly_adjustAll {pick : Extension → Adjustment} {extensions : List Extension}
    {field : String} {arguments : ArgumentSet} (given : allowed slot.number)
    (each : ∀ extension ∈ extensions, (pick extension).AddsNoRead slot field arguments)
    {expr : Expr} (reads : expr.ReadsOnly allowed) :
    Drawing.Yields (Expr.ReadsOnly allowed) (adjustAll pick field arguments extensions expr) := by
  induction extensions generalizing expr with
  | nil => exact Drawing.yields_pure reads
  | cons first rest ih =>
    simp only [adjustAll, List.foldlM_cons]
    refine (each first (by simp) expr).bind fun adjusted fewer =>
      ih (fun extension inside => each extension (by simp [inside])) ?_
    intro number inside
    rcases fewer number inside with before | rfl
    · exact reads number before
    · exact given

/-! ## The built-in hooks read nothing else -/

namespace Extension

/-- The adjustment that changes nothing adds no read. -/
theorem addsNoRead_none (field : String) (arguments : ArgumentSet) :
    Adjustment.none.AddsNoRead slot field arguments :=
  fun _ => Drawing.yields_pure fun _ inside => .inl inside

/-- A conjunction reads what its tests read. -/
theorem exists_of_free_conjunction {tests : List Expr} {number : Nat}
    (inside : number ∈ (conjunction tests).free) : ∃ test ∈ tests, number ∈ test.free := by
  have joined (rest : List Expr) (first : Expr)
      (inside : number ∈ (rest.foldl (.binary .and) first).free) :
      number ∈ first.free ∨ ∃ test ∈ rest, number ∈ test.free := by
    induction rest generalizing first with
    | nil => exact .inl inside
    | cons test rest ih =>
      rcases ih _ inside with both | ⟨later, listed, found⟩
      · rcases List.mem_append.mp both with before | own
        · exact .inl before
        · exact .inr ⟨test, by simp, own⟩
      · exact .inr ⟨later, by simp [listed], found⟩
  cases tests with
  | nil => cases inside
  | cons first rest =>
    rcases joined rest first inside with own | ⟨test, listed, found⟩
    · exact ⟨first, by simp, own⟩
    · exact ⟨test, by simp [listed], found⟩

/-- The tests of a filter read the item, which the filter binds, and the variables. -/
theorem addsNoRead_filterSource {arguments : ArgumentSet} (reads : ReadsFrom arguments slot)
    (field : String) : Adjustment.AddsNoRead filterSource slot field arguments := by
  intro source
  rw [filterSource_eq]
  split
  · exact Drawing.yields_pure fun _ inside => .inl inside
  · refine (Drawing.yields_true _).bind fun item _ => Drawing.yields_pure ?_
    intro number inside
    rcases List.mem_append.mp inside with outer | inner
    · exact .inl outer
    · obtain ⟨tested, other⟩ := List.mem_filter.mp inner
      obtain ⟨test, listed, free⟩ := exists_of_free_conjunction tested
      obtain ⟨name, -, rfl⟩ := List.mem_map.mp listed
      rcases List.mem_append.mp free with own | wanted
      · obtain rfl : number = item.number := by simpa [Expr.get, Expr.free] using own
        simp at other
      · exact .inr (free_memberExpr reads "filter" name number wanted)

/-- The keys of a sort read the item, which the sort binds. -/
theorem addsNoRead_sortSource (field : String) (arguments : ArgumentSet) :
    Adjustment.AddsNoRead sortSource slot field arguments := by
  intro source
  rw [sortSource_eq]
  split
  · exact Drawing.yields_pure fun _ inside => .inl inside
  · refine (Drawing.yields_true _).bind fun item _ => Drawing.yields_pure ?_
    intro number inside
    rcases List.mem_append.mp inside with outer | inner
    · exact .inl outer
    · obtain ⟨keyed, other⟩ := List.mem_filter.mp inner
      obtain ⟨key, listed, free⟩ := Expr.mem_freeKeys.mp keyed
      obtain ⟨⟨name, direction⟩, -, rfl⟩ := List.mem_map.mp listed
      obtain rfl : number = item.number := by simpa [Expr.get, Expr.free] using free
      simp at other

/-- A page is a slice of its source and adds no read. -/
theorem addsNoRead_pageSelection (default maximum : Option Nat) (field : String)
    (arguments : ArgumentSet) :
    Adjustment.AddsNoRead (pageSelection default maximum) slot field arguments := by
  intro selection
  refine Drawing.yields_pure ?_
  intro number inside
  left
  split at inside <;> exact inside

/-- A conversion of a scalar adds no read. -/
theorem addsNoRead_convert (kind : ScalarKind) (field : String) (arguments : ArgumentSet) :
    (Extension.convert kind).onScalar.AddsNoRead slot field arguments :=
  fun _ => Drawing.yields_pure fun _ inside => .inl inside

end Extension

/-- A field with built-in extensions reads its own context and the variables if its expression
    does. -/
theorem Field.scoped_of_builtIn {field : Field}
    (own : ∀ number ∈ field.expr.free, number = field.context.number ∨ number = slot.number)
    (reads : Extension.ReadsFrom field.arguments slot)
    (builtIn : ∀ extension ∈ field.extensions, extension.BuiltIn) : field.Scoped slot where
  own := own
  beforeSelection extension inside := by
    cases builtIn extension inside with
    | filter => exact Extension.addsNoRead_filterSource reads field.name
    | sort => exact Extension.addsNoRead_sortSource field.name field.arguments
    | paging | convert => exact Extension.addsNoRead_none field.name field.arguments
  afterSelection extension inside := by
    cases builtIn extension inside with
    | paging default maximum =>
      exact Extension.addsNoRead_pageSelection default maximum field.name field.arguments
    | filter | sort | convert => exact Extension.addsNoRead_none field.name field.arguments
  onScalar extension inside := by
    cases builtIn extension inside with
    | convert kind => exact Extension.addsNoRead_convert kind field.name field.arguments
    | filter | sort | paging => exact Extension.addsNoRead_none field.name field.arguments

/-! ## Objects and selections -/

/-- An object reads what its members read. -/
theorem Contributions.readsOnly_object {members : Contributions}
    (reads : members.Each fun _ expr => expr.ReadsOnly allowed) (title : String) :
    (Expr.object title members).ReadsOnly allowed := by
  intro number inside
  obtain ⟨⟨name, expr⟩, listed, free⟩ := Expr.mem_freeFields.mp inside
  exact reads name expr listed number free

/-- A selection reads what its source reads, and what its members read beside the placeholder
    that the selection binds. -/
theorem SelectionSource.readsOnly_select {found : SelectionSource} {name : String} {isList : Bool}
    {members : Contributions} (source : found.source.ReadsOnly allowed)
    (each : members.Each fun _ expr => expr.ReadsOnly (allowAlso allowed found.element)) :
    (found.select name isList members).ReadsOnly allowed := by
  have body := Contributions.readsOnly_object each (found.element.shape.objectName?.getD name)
  have both : (found.select name isList members).free = found.source.free ++
      (Expr.object (found.element.shape.objectName?.getD name) members).free.filter
        (· ≠ found.element.number) := by
    cases isList <;> rfl
  intro number inside
  rw [both] at inside
  rcases List.mem_append.mp inside with outer | inner
  · exact source number outer
  · obtain ⟨free, other⟩ := List.mem_filter.mp inner
    exact (body number free).resolve_right (by simpa using other)

/-! ## What a pass reads -/

/-- Where a pass puts what was written over a context may be read: the replacement, if there
    is one, else the placeholder that stands in for the context. -/
structure PassOptions.Allowed (options : PassOptions) (base? : Option Placeholder)
    (context : Placeholder) (allowed : Nat → Prop) : Prop where
  replacement : ∀ replacement ∈ options.replacement?, replacement.ReadsOnly allowed
  base : options.replacement? = none → allowed (base?.getD context).number

section Field

variable {field : Field} {base? : Option Placeholder} {options : PassOptions}

/-- An expression over the context of a field reads what is allowed where it is moved. -/
theorem Field.readsOnly_relocate {expr : Expr} (given : allowed slot.number)
    (place : options.Allowed base? field.context allowed)
    (own : ∀ number ∈ expr.free, number = field.context.number ∨ number = slot.number) :
    (field.relocate base? options expr).ReadsOnly allowed := by
  -- Where the context is allowed nothing need be moved, and what is moved leaves it.
  have stays (here : allowed field.context.number) : expr.ReadsOnly allowed := by
    intro number inside
    rcases own number inside with rfl | rfl
    · exact here
    · exact given
  have moved (source : Expr) (reads : source.ReadsOnly allowed) :
      (expr.substitute field.context source).ReadsOnly allowed := by
    intro number inside
    rcases Expr.free_substitute inside with ⟨free, other⟩ | new
    · rw [(own number free).resolve_left other]
      exact given
    · exact reads number new
  unfold Field.relocate
  cases replaced : options.replacement? with
  | some replacement => exact moved replacement (place.replacement replacement replaced)
  | none =>
    have here := place.base replaced
    cases base? with
    | none => exact stays here
    | some base =>
      simp only
      split
      · rename_i same
        rw [Option.getD_some, Placeholder.is_iff.mp same] at here
        exact stays here
      · apply moved
        intro number inside
        obtain rfl : number = base.number := by simpa [Expr.free] using inside
        exact here

/-- The chains that feed the services of a field read what is allowed. -/
theorem Field.readsOnly_contributeExtracted (given : allowed slot.number)
    (place : options.Allowed base? field.context allowed) :
    (field.contributeExtracted base? options).Each fun _ expr => expr.ReadsOnly allowed := by
  intro name expr inside
  obtain ⟨path, node, chained, -, rfl⟩ := field.exists_chain_of_extracted inside
  apply Field.readsOnly_relocate given place
  intro number read
  rw [Expr.free_of_chain? chained, List.mem_singleton] at read
  exact .inl read

/-- What a pass knows of a field is read from its replacement. -/
theorem Field.readsOnly_known? (place : options.Allowed base? field.context allowed) {known : Expr}
    (knows : field.known? options = some known) : known.ReadsOnly allowed := by
  unfold Field.known? at knows
  obtain ⟨replacement, replaced, own⟩ := Option.bind_eq_some_iff.mp knows
  have reads := place.replacement replacement replaced
  split at own
  · cases own
    exact reads
  · unfold Field.replaced? at own
    split at own
    · cases own
    · obtain ⟨shape, -, rfl⟩ := Option.map_eq_some_iff.mp own
      exact reads

/-- What a scalar contributes reads what is allowed. -/
theorem Field.readsOnly_contributeScalar (within : field.Scoped slot)
    (given : allowed slot.number) (place : options.Allowed base? field.context allowed) :
    Drawing.Yields (Contributions.Each fun _ expr => expr.ReadsOnly allowed)
      (field.contributeScalar base? options) := by
  unfold Field.contributeScalar
  split
  · exact Drawing.yields_pure (Field.readsOnly_contributeExtracted given place)
  · simp only
    split
    · rename_i known knows
      exact Drawing.yields_pure
        (Contributions.each_singleton (Field.readsOnly_known? place knows))
    · have adjusted := Extension.readsOnly_adjustAll given within.onScalar
        (Field.readsOnly_relocate given place within.own)
      exact adjusted.bind fun value reads =>
        Drawing.yields_pure (Contributions.each_singleton reads)

/-- The source of a selection reads what is allowed, and its members read from a replacement
    that the selection binds or, from data, from the element of the field. -/
theorem Field.readsOnly_drawSource {element : Placeholder} {isList : Bool}
    (within : field.Scoped slot) (given : allowed slot.number)
    (place : options.Allowed base? field.context allowed) :
    Drawing.Yields (fun found => found.source.ReadsOnly allowed ∧
        (found.replacement? = none ∧ found.element = element ∨
          found.replacement? = some (.read found.element)))
      (field.drawSource element isList base? options) := by
  unfold Field.drawSource
  simp only
  split
  · rename_i known knows
    exact (Drawing.yields_true _).bind fun fresh _ =>
      Drawing.yields_pure ⟨Field.readsOnly_known? place knows, .inr rfl⟩
  · have adjusted := Extension.readsOnly_adjustAll given within.beforeSelection
      (Field.readsOnly_relocate given place within.own)
    exact adjusted.bind fun source reads => Drawing.yields_pure ⟨reads, .inl ⟨rfl, rfl⟩⟩

end Field

/-- What an outline contributes to any pass reads what is allowed where its fields are put.

    Proof: induction on the outline. Below a selection the placeholder that it binds is
    allowed too; the members are moved there, whether it is the element that they were
    written over or a fresh one. -/
theorem Outline.WrittenOver.readsOnly_contribute {context : Placeholder} {outline : Outline}
    {base? : Option Placeholder} {options : PassOptions} (written : outline.WrittenOver context)
    (within : ∀ field ∈ outline.fields, field.Scoped slot) (given : allowed slot.number)
    (place : options.Allowed base? context allowed) :
    Drawing.Yields (Contributions.Each fun _ expr => expr.ReadsOnly allowed)
      (outline.contribute options base?) := by
  induction written generalizing base? options allowed with
  | scalar =>
    simp only [contribute]
    exact Field.readsOnly_contributeScalar (within _ (by simp [fields])) given place
  | @selection field element isList children selects lists below ih =>
    have own : field.Scoped slot := within field (by simp [fields])
    have scopedBelow : ∀ child ∈ children, ∀ field ∈ child.fields, field.Scoped slot := by
      intro child inside field deeper
      exact within field (List.mem_cons_of_mem _ (mem_allFields.mpr ⟨child, inside, deeper⟩))
    simp only [contribute]
    split
    · exact Drawing.yields_pure (Field.readsOnly_contributeExtracted given place)
    · refine (Field.readsOnly_drawSource own given place).bind fun found reading => ?_
      obtain ⟨source, standing⟩ := reading
      let inner : PassOptions := ⟨options.leavingOut, found.replacement?, false⟩
      have placeBelow : inner.Allowed none element (allowAlso allowed found.element) := by
        constructor
        · intro replacement replaced number inside
          rcases standing with ⟨nothing, -⟩ | own
          · rw [show inner.replacement? = none from nothing] at replaced
            cases replaced
          · rw [show inner.replacement? = some (.read found.element) from own] at replaced
            cases replaced
            exact .inr (by simpa [Expr.free] using inside)
        · intro fromData
          rcases standing with ⟨-, same⟩ | own
          · rw [same]
            exact .inr rfl
          · rw [show inner.replacement? = some (.read found.element) from own] at fromData
            cases fromData
      have members : Drawing.Yields
          (Contributions.Each fun _ expr => expr.ReadsOnly (allowAlso allowed found.element))
          (contributeAll inner none children) := by
        apply each_contributeAll
        intro child inside
        exact ih child inside (scopedBelow child inside) (.inl given) placeBelow
      refine members.bind fun contributions reads => ?_
      split
      · exact Drawing.yields_pure Contributions.each_nil
      · have selected := @SelectionSource.readsOnly_select _ found field.name isList _ source
          reads.firsts
        split
        · have adjusted :=
            Extension.readsOnly_adjustAll given own.afterSelection selected
          exact adjusted.bind fun value still =>
            Drawing.yields_pure (Contributions.each_singleton still)
        · exact Drawing.yields_pure (Contributions.each_singleton selected)
  | @spread field origin inner below ih =>
    simp only [contribute]
    apply each_contributeAll
    intro child inside
    have scopedBelow : ∀ field ∈ child.fields, field.Scoped slot := by
      intro field deeper
      exact within field (List.mem_cons_of_mem _ (mem_allFields.mpr ⟨child, inside, deeper⟩))
    exact ih child inside scopedBelow given ⟨place.replacement, place.base⟩

/-! ## Stages -/

/-- All calls, and all faults but that of an unbound placeholder. -/
def Effects.bound : Effects where
  calls _ := True
  faults fault := ∀ name, fault ≠ .unboundPlaceholder name
  typeMismatch _ _ _ _ := by simp
  conversion _ _ _ := by simp

/-- A stage over a placeholder that reads only this placeholder and the variables, so that no
    run of it meets an unbound placeholder. -/
structure Stage.Closed (stage : Stage) (root slot : Placeholder) : Prop where
  stands : stage.slot = root
  reads : stage.expr.ReadsOnly fun number => number = root.number ∨ number = slot.number
  bound : ∀ executable ∈ stage.executable?, ∀ value supplied provider name,
    (executable.runWith value supplied provider).result ≠ .error (.unboundPlaceholder name)

/-- A query whose first stage is closed over a root and whose second stage, if there is one, is
    closed over the value of the first. -/
structure Query.Closed (query : Query) (root slot : Placeholder) : Prop where
  first : query.first.Closed root slot
  second : ∀ stage ∈ query.second?, stage.Closed stage.slot slot
  bound : ∀ value supplied provider name,
    (query.runWith value supplied provider).result ≠ .error (.unboundPlaceholder name)

/-- A stage compiled from an expression over a placeholder and the variables is closed: a run
    binds both. -/
theorem Stage.closed_compile {root : Placeholder} {expr : Expr} {noExecution : Bool}
    (reads : expr.ReadsOnly fun number => number = root.number ∨ number = slot.number) :
    (Stage.compile root expr slot noExecution).Closed root slot := by
  refine ⟨rfl, reads, ?_⟩
  intro executable made value supplied provider name
  simp only [Stage.compile] at made
  split at made
  · cases made
  · cases made
    have admitted : Expr.Admitted Effects.bound provider
        [(slot.number, supplied), (root.number, value)] expr := by
      constructor
      · intro read free unbound
        simp only [Environment.value?] at unbound
        rcases reads read.number free with same | same
        · split at unbound
          · cases unbound
          · simp [same] at unbound
        · simp [same] at unbound
      · intro node inside capability calls
        exact ⟨fun _ _ => trivial, fun _ _ => by simp, fun _ _ _ => by simp⟩
    intro raised
    exact (Expr.evaluate_within expr admitted).fault _ raised name rfl

/-- A query of closed stages is closed. -/
theorem Query.closed_of_stages {query : Query} {root : Placeholder}
    (first : query.first.Closed root slot)
    (second : ∀ stage ∈ query.second?, stage.Closed stage.slot slot) :
    query.Closed root slot := by
  refine ⟨first, second, ?_⟩
  intro value supplied provider name raised
  unfold Query.runWith at raised
  split at raised
  · cases raised
  · rename_i executable made
    rcases Outcome.bind_result_eq_error.mp raised with early | ⟨middle, -, late⟩
    · exact first.bound executable made value supplied provider name early
    · split at late
      · rename_i last madeToo
        obtain ⟨stage, listed, compiled⟩ := Option.bind_eq_some_iff.mp madeToo
        rw [map_eq_pure_bind] at late
        rcases Outcome.bind_result_eq_error.mp late with raised | ⟨result, -, done⟩
        · exact (second stage listed).bound last compiled middle supplied provider name raised
        · cases done
      · cases late

namespace SelectionTree

variable {practice : Practice} {tree : SelectionTree} {supply : Nat}

/-- All fields of a tree read their own context and the variables only, as do their hooks
    beside what they are given. -/
def Scoped (tree : SelectionTree) : Prop :=
  ∀ address field, tree.field? address = some field → field.Scoped tree.variablesSlot

/-- Closed resolvers and built-in extensions read nothing else. -/
theorem Sealed.scoped (closed : tree.Sealed supply)
    (builtIn : ∀ address field, tree.field? address = some field →
      ∀ extension ∈ field.extensions, extension.BuiltIn) : tree.Scoped := by
  intro address field stored
  have own := closed.fields address field stored
  exact Field.scoped_of_builtIn own.free own.reads (builtIn address field stored)

/-- A pass over source data puts the query fields over the root. -/
theorem allowed_fromData {options : PassOptions} (fromData : options.replacement? = none)
    (context slot : Placeholder) :
    options.Allowed none context fun number => number = context.number ∨ number = slot.number where
  replacement replacement replaced := by
    rw [fromData] at replaced
    cases replaced
  base _ := .inl rfl

/-- A pass that reads from a placeholder puts every field over it. -/
theorem allowed_replaced {options : PassOptions} {merged : Placeholder}
    (replaced : options.replacement? = some (.read merged)) (context slot : Placeholder) :
    options.Allowed none context fun number => number = merged.number ∨ number = slot.number where
  replacement replacement same := by
    rw [replaced] at same
    cases same
    intro number inside
    exact .inl (by simpa [Expr.free] using inside)
  base fromData := by
    rw [replaced] at fromData
    cases fromData

/-- A pass over an operation reads what is allowed where its fields are put. -/
theorem readsOnly_operationPass (placed : tree.Placed) (acyclic : tree.Acyclic)
    (within : tree.Scoped) {options : PassOptions} {allowed : Nat → Prop}
    (given : allowed tree.variablesSlot.number)
    (place : options.Allowed none tree.root allowed) :
    Drawing.Yields (Expr.ReadsOnly allowed) (tree.operationPass options) := by
  have contributions : Drawing.Yields (Contributions.Each fun _ expr => expr.ReadsOnly allowed)
      (Outline.contributeAll options none tree.queryOutlines) := by
    apply Outline.each_contributeAll
    intro outline inside
    refine (writtenOver_queryOutlines placed acyclic outline inside).readsOnly_contribute ?_ given
      place
    intro field found
    obtain ⟨address, stored⟩ :=
      field_of_mem_queryOutlines (Outline.mem_allFields.mpr ⟨outline, inside, found⟩)
    exact within address field stored
  exact contributions.bind fun gathered reads =>
    Drawing.yields_pure (Contributions.readsOnly_object reads.firsts _)

/-- The stages of an operation are closed over its root and over the value of the first. -/
theorem closed_compile (placed : tree.Placed) (acyclic : tree.Acyclic) (within : tree.Scoped)
    (noExecution : Bool) :
    Drawing.Yields (fun query => query.Closed tree.root tree.variablesSlot)
      (tree.compile noExecution) := by
  unfold compile
  split
  · have pass := @readsOnly_operationPass _ placed acyclic within .withoutServices _ (.inr rfl)
      (allowed_fromData rfl tree.root tree.variablesSlot)
    refine pass.bind fun pureExpr reads => (Drawing.yields_true _).bind fun merged _ => ?_
    have merging := @readsOnly_operationPass _ placed acyclic within (.merging (.read merged)) _
      (.inr rfl) (allowed_replaced rfl tree.root tree.variablesSlot)
    refine merging.bind fun fullExpr readsToo => Drawing.yields_pure ?_
    apply Query.closed_of_stages (Stage.closed_compile reads)
    rintro stage ⟨⟩
    exact Stage.closed_compile readsToo
  · have pass := @readsOnly_operationPass _ placed acyclic within .full _ (.inr rfl)
      (allowed_fromData rfl tree.root tree.variablesSlot)
    refine pass.bind fun expr reads => Drawing.yields_pure ?_
    apply Query.closed_of_stages (Stage.closed_compile reads)
    rintro stage ⟨⟩

/-- What a field contributes under its own name reads what is allowed where it is put. -/
theorem readsOnly_ownContribution (placed : tree.Placed) (acyclic : tree.Acyclic)
    (within : tree.Scoped) {address : Address} {field : Field} {outline : Outline}
    (stored : tree.field? address = some field) (outlined : tree.outline? address = some outline)
    (name : String) {options : PassOptions} {allowed : Nat → Prop}
    (given : allowed tree.variablesSlot.number)
    (place : options.Allowed none field.context allowed) :
    Drawing.Yields (fun expr? => ∀ expr ∈ expr?, expr.ReadsOnly allowed)
      (ownContribution outline name options) := by
  have written := writtenOver_outlineWithin placed stored outlined
    (acyclic.isFinite_outline outlined)
  have contributions : Drawing.Yields (Contributions.Each fun _ expr => expr.ReadsOnly allowed)
      (outline.contribute options none) := by
    refine written.readsOnly_contribute ?_ given place
    intro field found
    obtain ⟨address, stored⟩ := field_of_mem_outlineWithin outlined field found
    exact within address field stored
  refine contributions.bind fun gathered reads => Drawing.yields_pure ?_
  intro expr found
  exact reads.firsts name expr (Members.mem_of_value? found)

/-- What is allowed of an expression is allowed of it or of a read in its place. -/
theorem readsOnly_getD {expr? : Option Expr} {merged slot : Placeholder}
    (reads : ∀ expr ∈ expr?, expr.ReadsOnly fun number =>
      number = merged.number ∨ number = slot.number) :
    (expr?.getD (.read merged)).ReadsOnly fun number =>
      number = merged.number ∨ number = slot.number := by
  cases expr? with
  | some expr => exact reads expr rfl
  | none =>
    intro number inside
    exact .inl (by simpa [Expr.free] using inside)

/-- The stages of a mutation's selection are closed over its result and over the value of the
    first. -/
theorem closed_compileSelection (placed : tree.Placed) (acyclic : tree.Acyclic)
    (within : tree.Scoped) {address : Address} {field : Field} {outline : Outline}
    (stored : tree.field? address = some field) (outlined : tree.outline? address = some outline)
    (name : String) (noExecution : Bool) :
    Drawing.Yields (fun query => query.Closed field.context tree.variablesSlot)
      (tree.compileSelection outline name field.context noExecution) := by
  have single : Drawing.Yields (fun query => query.Closed field.context tree.variablesSlot)
      (do
        let expr ← ownContribution outline name .full
        pure (tree.query noExecution (field.context, expr.getD (.read field.context)) none)) := by
    have own := @readsOnly_ownContribution _ placed acyclic within _ _ _ stored outlined name .full
      _ (.inr rfl) (allowed_fromData rfl field.context tree.variablesSlot)
    refine own.bind fun expr? reads => Drawing.yields_pure ?_
    apply Query.closed_of_stages (Stage.closed_compile (readsOnly_getD reads))
    rintro stage ⟨⟩
  unfold compileSelection
  split
  · have pass := @readsOnly_ownContribution _ placed acyclic within _ _ _ stored outlined name
      .withoutServices _ (.inr rfl) (allowed_fromData rfl field.context tree.variablesSlot)
    refine pass.bind fun expr? reads => ?_
    cases expr? with
    | none => exact single
    | some pureExpr =>
      refine (Drawing.yields_true _).bind fun merged _ => ?_
      have merging := @readsOnly_ownContribution _ placed acyclic within _ _ _ stored outlined name
        { PassOptions.merging (.read merged) with direct := true } _ (.inr rfl)
        (allowed_replaced rfl field.context tree.variablesSlot)
      refine merging.bind fun expr readsToo => Drawing.yields_pure ?_
      apply Query.closed_of_stages (Stage.closed_compile (reads pureExpr rfl))
      rintro stage ⟨⟩
      exact Stage.closed_compile (readsOnly_getD readsToo)
  · exact single

/-- Compiled stages are closed. In every built tree that is acyclic and whose fields and hooks
    read only their own context and the variables, the compilations of the operation and of
    every mutation are defined. The first stage reads only its root, the root of the operation
    or the result of the mutation, and the variables; the second reads only the value of the
    first and the variables; and no run of a stage or of the query fails for an unbound
    placeholder. -/
theorem Built.stages_closed (built : tree.Built practice supply) (acyclic : tree.Acyclic)
    (within : tree.Scoped) (noExecution : Bool) :
    (∃ drawing, tree.compile? noExecution = some drawing ∧
      Drawing.Yields (fun query => query.Closed tree.root tree.variablesSlot) drawing) ∧
    ∀ address, ∃ drawing, tree.compileMutation? address noExecution = some drawing ∧
      Drawing.Yields (fun compiled => ∀ query, compiled = .ok query →
        ∃ selection, tree.mutation? address = .ok selection ∧
          query.Closed selection.result tree.variablesSlot) drawing := by
  constructor
  · exact ⟨_, acyclic.compile? noExecution, closed_compile built.placed acyclic within noExecution⟩
  · intro address
    refine ⟨_, acyclic.compileMutation? address noExecution, ?_⟩
    unfold compileMutation
    split
    · exact Drawing.yields_pure (by simp)
    · rename_i selection outline selected outlined
      obtain ⟨field, stored, kind⟩ : ∃ field, tree.field? address = some field ∧
          field.kind = .mutation selection := by
        unfold mutation? at selected
        split at selected
        · cases selected
        · rename_i field stored
          split at selected
          · rename_i own kind
            cases selected
            exact ⟨field, stored, kind⟩
          · cases selected
      have result := (built.mutation_plain stored kind).1
      rw [← result]
      refine (closed_compileSelection built.placed acyclic within stored outlined _ noExecution).map
        fun query closed => ?_
      rintro _ ⟨⟩
      exact ⟨selection, selected, by rwa [← result]⟩
    · exact Drawing.yields_pure (by simp)

/-! ## An operation with a fragment and a mutation -/

/-- A mutation that returns a film. -/
def addFilm : Mutation where
  name := "addFilm"
  description? := none
  deprecation? := none
  returns := ratedFilm
  parameters := []
  hasArguments := false
  bindings := []
  validators := []
  procedure := ⟨⟨"MovieMutations"⟩, false, fun state _ => ⟨.ok state, []⟩⟩
  instance? := none
  defaultInstance? := none

/-- A fragment of titles and ratings, spread in a list of films and in what a mutation returns. -/
def addedFilms : SelectionTree where
  root := ⟨0, "ctx", .any⟩
  variablesSlot := ⟨1, "vars", .any⟩
  bound := .empty
  fields := ⟨#[
    { name := "title"
      kind := .scalar
      expr := .member (.read ⟨2, "Rated", ratedFilm⟩) "title" (.scalar .string)
      context := ⟨2, "Rated", ratedFilm⟩
      arguments := ArgumentSet.empty.readVariablesFrom ⟨1, "vars", .any⟩ },
    { name := "rating"
      kind := .scalar
      expr := .service ⟨"Ratings"⟩ "rating"
        [(Expr.read ⟨2, "Rated", ratedFilm⟩).get "id"] (.scalar .int) fun state _ => .ok state
      context := ⟨2, "Rated", ratedFilm⟩
      arguments := ArgumentSet.empty.readVariablesFrom ⟨1, "vars", .any⟩ },
    { name := "films"
      kind := .list ⟨3, "films", ratedFilm⟩
      expr := .member (.read ⟨0, "ctx", .any⟩) "films" (.list ratedFilm)
      context := ⟨0, "ctx", .any⟩
      arguments := ArgumentSet.empty.readVariablesFrom ⟨1, "vars", .any⟩
      children := [⟨3⟩] },
    { spreadField "Rated" ⟨0⟩ ⟨3, "films", ratedFilm⟩ with parent? := some ⟨2⟩ },
    { name := "addFilm"
      kind := .mutation
        ⟨addFilm, .empty, none, ⟨4, "addFilm", ratedFilm⟩, some ⟨5, "addFilm", ratedFilm⟩⟩
      expr := .read ⟨4, "addFilm", ratedFilm⟩
      context := ⟨4, "addFilm", ratedFilm⟩
      children := [⟨5⟩] },
    { spreadField "Rated" ⟨0⟩ ⟨5, "addFilm", ratedFilm⟩ with parent? := some ⟨4⟩ }]⟩
  roots := [⟨2⟩, ⟨4⟩]
  fragments := ⟨#[{ name := "Rated", slot := ⟨2, "Rated", ratedFilm⟩, fields := [⟨0⟩, ⟨1⟩] }]⟩

/-- Callers who select films with their titles and ratings and spread as they like. -/
def filmFragmentPractice : Practice where
  offers := filmPractice.offers

/-- The fragment is declared and filled, then spread below the films and below the mutation. -/
theorem built_addedFilms : addedFilms.Built filmFragmentPractice 6 := by
  have start : Built filmFragmentPractice (drawSelectionTree .any 0).1 2 := .start .any 0
  have declared := start.declareFragment "Rated" ratedFilm
  have title := @Built.select _ _ _ _ (.fragment ⟨0⟩) titleDefinition .empty none ⟨0⟩ declared
    (by simp [filmFragmentPractice, filmPractice]) rfl
  have rating := @Built.select _ _ _ _ (.fragment ⟨0⟩) ratingDefinition .empty none ⟨1⟩ title
    (by simp [filmFragmentPractice, filmPractice]) rfl
  have films := @Built.select _ _ _ _ .operation filmsDefinition .empty none ⟨2⟩ rating
    (by simp [filmFragmentPractice, filmPractice]) rfl
  have spread := @Built.spread _ _ _ _ (.field ⟨2⟩) "Rated" ⟨3⟩ ⟨0⟩ films (by decide +kernel)
    trivial rfl
  have mutation := @Built.selectMutation _ _ _ _ addFilm .empty none ⟨4⟩ spread rfl
  exact @Built.spread _ _ addedFilms _ (.field ⟨4⟩) "Rated" ⟨5⟩ ⟨0⟩ mutation (by decide +kernel)
    trivial rfl

/-- The fragment does not lead back to itself. -/
theorem acyclic_addedFilms : addedFilms.Acyclic := by
  apply built_addedFilms.placed.acyclic_iff_outlines.mpr
  intro address outline outlined
  obtain ⟨_ | _ | _ | _ | _ | _ | index⟩ := address <;> cases outlined <;> decide

/-- Both the operation and the mutation have two stages, and all of them are closed. -/
theorem stages_closed_addedFilms :
    addedFilms.Acyclic ∧ addedFilms.Scoped ∧
      (addedFilms.compile false 6).1.second?.isSome = true ∧
      (addedFilms.compile false 6).1.Closed ⟨0, "ctx", .any⟩ ⟨1, "vars", .any⟩ ∧
      ∃ query, (addedFilms.compileMutation ⟨4⟩ false 6).1 = .ok query ∧
        query.second?.isSome = true ∧
        query.Closed ⟨4, "addFilm", ratedFilm⟩ ⟨1, "vars", .any⟩ := by
  have within : addedFilms.Scoped := by
    apply (built_addedFilms.isSealed closed_filmPractice).scoped
    intro address field stored extension inside
    obtain ⟨_ | _ | _ | _ | _ | _ | index⟩ := address <;> cases stored <;> cases inside
  obtain ⟨operation, mutation⟩ := built_addedFilms.stages_closed acyclic_addedFilms within false
  refine ⟨acyclic_addedFilms, within, by decide, ?_, _, rfl, by decide, ?_⟩
  · obtain ⟨drawing, compiled, closed⟩ := operation
    rw [acyclic_addedFilms.compile? false] at compiled
    obtain rfl := Option.some.inj compiled
    exact closed 6
  · obtain ⟨drawing, compiled, closed⟩ := mutation ⟨4⟩
    rw [acyclic_addedFilms.compileMutation? ⟨4⟩ false] at compiled
    obtain rfl := Option.some.inj compiled
    obtain ⟨selection, selected, whole⟩ := closed 6 _ rfl
    cases selected
    exact whole

end SelectionTree

end StagedQuery
