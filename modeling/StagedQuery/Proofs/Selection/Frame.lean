import StagedQuery.Query
import StagedQuery.Proofs.Expr.Objects
import StagedQuery.Proofs.Selection.Closed
import StagedQuery.Proofs.Selection.Contributions

/-!
# Frames

What stays the same while a selection is evaluated is its frame: the variables, the
provider, the placeholders over which fields are written, and what the hooks of fields do.
In a frame a field has a value over a value of its context. A pass that moves the field to
the placeholder of another owner finds the same value there, if both have the same value.

A selection is evaluated by selecting members from the value of its source or from each
item of it, and the hooks of the field act before and after.
-/

namespace StagedQuery

/-! ## Selecting from a value -/

/-- Selects members from a value, or from the items of a list. Nothing is selected from
    null. -/
def selectFrom (isList : Bool) (body : Value → Outcome Value) (source : Value) : Outcome Value :=
  if isList then
    withItems "map" (pure source) fun items => Value.list <$> mapItems body items
  else if source.isNull then pure .null else body source

/-- A selection from null is null, and its body is not evaluated. -/
theorem selectFrom_null (isList : Bool) (body : Value → Outcome Value) :
    selectFrom isList body .null = pure .null := by
  cases isList <;> rfl

/-- Members are selected from a value itself, unless it is null. -/
theorem selectFrom_of_ne_null {body : Value → Outcome Value} {source : Value}
    (present : source ≠ .null) : selectFrom false body source = body source := by
  cases source with
  | null => exact absurd rfl present
  | _ => rfl

/-- A selection from a list is the list of what its body makes of the items. -/
theorem selectFrom_list (body : Value → Outcome Value) (items : List Value) :
    selectFrom true body (.list items) = Value.list <$> mapItems body items := rfl

/-- What is built of named values is an object. -/
theorem object_of_ofPairs {α : Type} {outcome : Outcome α} {pairs : α → List (String × Value)}
    {result : Value} (built : ((fun found => Value.ofPairs (pairs found)) <$> outcome).result =
      .ok result) : ∃ members, result = .object members := by
  obtain ⟨found, -, same⟩ := Outcome.map_result_eq_ok.mp built
  exact ⟨_, same.symm⟩

/-- The expression of a selection selects its members from the value of its source. -/
theorem SelectionSource.evaluate_select (found : SelectionSource) (name : String) (isList : Bool)
    (members : Members Expr) (provider : Provider) (env : Environment) :
    (found.select name isList members).evaluate provider env =
      found.source.evaluate provider env >>= selectFrom isList fun item =>
        Expr.evaluateObject provider members (env.bind found.element item) := by
  unfold select
  cases isList with
  | true =>
    simp only [↓reduceIte, Expr.evaluate]
    rw [withItems_eq_bind]
    rfl
  | false =>
    simp only [Bool.false_eq_true, ↓reduceIte, Expr.evaluate]
    rfl

/-- Members of what a placeholder reads are selected from the value of the placeholder. -/
theorem SelectionSource.evaluate_select_read {slot element : Placeholder} {source : Value}
    {env : Environment} (given : env.value? slot = some source) (replacement? : Option Expr)
    (fromData : Bool) (name : String) (isList : Bool) (members : Members Expr)
    (provider : Provider) :
    ((SelectionSource.mk (.read slot) element replacement? fromData).select name isList
        members).evaluate provider env =
      selectFrom isList (fun item =>
        Expr.evaluateObject provider members (env.bind element item)) source := by
  simp only [evaluate_select, Expr.evaluate, given, pure_bind]

/-- The shape of a selection of some members. -/
def selectionShape (title : String) (isList : Bool) (members : Members Expr) : Shape :=
  let object := Shape.ofPairs title (Expr.fieldShapes members)
  if isList then .list object else object

/-- The shape of a selection is the shape of its object, or of a list of such objects. -/
theorem SelectionSource.shape_select (found : SelectionSource) (name : String) (isList : Bool)
    (members : Members Expr) : (found.select name isList members).shape =
      selectionShape (found.element.shape.objectName?.getD name) isList members := by
  cases isList <;> rfl

/-! ## Frames -/

/-- What stays the same throughout the evaluation of a selection: the placeholder and the
    value of the variables, the provider, the placeholders of owners, and the first number
    that no field mentions. -/
structure Frame where
  slot : Placeholder
  supplied : Value
  provider : Provider
  owners : Placeholder → Prop
  supply : Nat
  actions : Field → Actions
  slot_lt : slot.number < supply
  owner_ne : ∀ owner, owners owner → owner.number ≠ slot.number
  /-- No owner declares a member under the name of a chain. -/
  plain : ∀ owner, owners owner → ∀ path, owner.shape.hasMember (extractedName path) = false

namespace Frame

variable {frame : Frame} {field : Field} {env : Environment} {context base : Placeholder}
  {value : Value}

/-- A field that may be evaluated in a frame. -/
structure Fits (frame : Frame) (field : Field) : Prop where
  unreserved : isReserved field.name = false
  closed : field.Closed frame.slot frame.owners frame.supply
  acts : field.ActsBy frame.slot frame.supplied frame.provider (frame.actions field)
  context : frame.owners field.context
  element : ∀ slot, field.element? = some slot → frame.owners slot

/-- The value of a field over a value of its context, before any hook. -/
def valueOf (frame : Frame) (field : Field) (value : Value) : Outcome Value :=
  field.expr.evaluate frame.provider
    [(frame.slot.number, frame.supplied), (field.context.number, value)]

/-- An environment that gives a placeholder a value and the variables theirs. -/
structure Gives (frame : Frame) (env : Environment) (base : Placeholder) (value : Value) :
    Prop where
  base : env.value? base = some value
  supplied : env.value? frame.slot = some frame.supplied

/-- Below a binder of another placeholder the variables keep their value. -/
theorem gives_bind (supplied : env.value? frame.slot = some frame.supplied) {slot : Placeholder}
    (apart : slot.number ≠ frame.slot.number) (item : Value) :
    frame.Gives (env.bind slot item) slot item where
  base := by simp [Environment.value?_bind]
  supplied := by rw [Environment.value?_bind, if_neg apart, supplied]

/-- Apart from the context the variables are all that an expression reads. -/
theorem agree_of_supplied {expr : Expr}
    (free : ∀ number ∈ expr.free, number = context.number ∨ number = frame.slot.number)
    {env' : Environment} (supplied : env.value? frame.slot = some frame.supplied)
    (suppliedToo : env'.value? frame.slot = some frame.supplied) :
    ∀ slot : Placeholder, slot.number ∈ expr.free → slot.number ≠ context.number →
      env.value? slot = env'.value? slot := by
  intro slot inside different
  have same := (free slot.number inside).resolve_left different
  rw [Environment.value?_congr same, Environment.value?_congr same, supplied, suppliedToo]

/-- Two environments that give the same to an expression's own context and variables. -/
theorem agreeOn_of_gives {expr : Expr}
    (free : ∀ number ∈ expr.free, number = field.context.number ∨ number = frame.slot.number)
    {env' : Environment} (gives : frame.Gives env field.context value)
    (alike : frame.Gives env' field.context value) :
    Environment.AgreeOn expr.free env env' := by
  intro slot inside
  by_cases same : slot.number = field.context.number
  · rw [Environment.value?_congr same, Environment.value?_congr same, gives.base, alike.base]
  · exact agree_of_supplied free gives.supplied alike.supplied slot inside same

/-- The environment in which a field is evaluated on its own. -/
theorem gives_own (fits : frame.Fits field) (value : Value) :
    frame.Gives [(frame.slot.number, frame.supplied), (field.context.number, value)]
      field.context value where
  base := by
    have apart := frame.owner_ne field.context fits.context
    simp [Environment.value?, Ne.symm apart]
  supplied := by simp [Environment.value?]

/-- An expression of a field that is moved by a pass over source data to the placeholder that
    stands in for its context has the outcome that it has over the context itself. -/
theorem evaluate_relocate (fits : frame.Fits field) {expr : Expr}
    (free : ∀ number ∈ expr.free, number = field.context.number ∨ number = frame.slot.number)
    (binds : expr.Binds fun number => number < frame.supply ∧ number ≠ frame.slot.number ∧
      ∀ owner, frame.owners owner → number ≠ owner.number)
    {base? : Option Placeholder} {options : PassOptions} (fromData : options.replacement? = none)
    (owned : frame.owners (base?.getD field.context))
    (gives : frame.Gives env (base?.getD field.context) value) :
    (field.relocate base? options expr).evaluate frame.provider env =
      expr.evaluate frame.provider
        [(frame.slot.number, frame.supplied), (field.context.number, value)] := by
  have own := gives_own fits value
  have stays (gives : frame.Gives env field.context value) :
      expr.evaluate frame.provider env = expr.evaluate frame.provider
        [(frame.slot.number, frame.supplied), (field.context.number, value)] :=
    Expr.evaluate_congr expr (agreeOn_of_gives free gives own) (.refl _ expr)
  unfold Field.relocate
  rw [fromData]
  cases base? with
  | none => exact stays gives
  | some base =>
    simp only [Option.getD_some] at owned gives ⊢
    split
    · rename_i same
      apply stays
      constructor
      · rw [← Environment.value?_congr (Placeholder.is_iff.mp same), gives.base]
      · exact gives.supplied
    · have binders : expr.Binds fun number =>
          number ≠ field.context.number ∧ number ≠ base.number := by
        refine binds.mono ?_
        rintro number ⟨-, -, clear⟩
        exact ⟨clear _ fits.context, clear _ owned⟩
      have carriesNothing : Expr.Carries base.shape value value := by
        intro path declared
        simp [frame.plain base owned path] at declared
      exact Expr.evaluate_substitute_read expr binders own.base gives.base
        (agree_of_supplied free own.supplied gives.supplied) carriesNothing fun _ _ _ _ => .inr rfl

end Frame

/-- What a frame is made over: placeholders of owners apart from that of the variables, and
    fields that are closed over them. -/
structure Frame.Ground (slot : Placeholder) (owners : Placeholder → Prop) (fields : Field → Prop)
    (supply : Nat) : Prop where
  drawn : slot.number < supply
  apart : ∀ owner, owners owner → owner.number ≠ slot.number
  memberNames : ∀ owner, owners owner → ∀ name, owner.shape.hasMember name = true →
    isReserved name = false
  fieldNames : ∀ field, fields field → isReserved field.name = false
  closed : ∀ field, fields field → field.Closed slot owners supply
  contexts : ∀ field, fields field → owners field.context
  elements : ∀ field, fields field → ∀ slot, field.element? = some slot → owners slot

/-- A ground whose fields have hooks that are built in. -/
structure Frame.Basis (slot : Placeholder) (owners : Placeholder → Prop) (fields : Field → Prop)
    (supply : Nat) : Prop extends Frame.Ground slot owners fields supply where
  builtIn : ∀ field, fields field → ∀ extension ∈ field.extensions, extension.BuiltIn

section Ground

variable {slot : Placeholder} {owners : Placeholder → Prop} {fields : Field → Prop} {supply : Nat}

/-- No owner of a ground declares a member under the name of a chain. -/
theorem Frame.Ground.plain (ground : Frame.Ground slot owners fields supply) (owner : Placeholder)
    (owned : owners owner) (path : List String) :
    owner.shape.hasMember (extractedName path) = false := by
  apply Bool.eq_false_iff.mpr
  intro declared
  have unreserved := ground.memberNames owner owned _ declared
  rw [isReserved_extractedName] at unreserved
  cases unreserved

/-- The frame over a ground in which the hooks of fields do what they are said to. -/
def Frame.Ground.frame (ground : Frame.Ground slot owners fields supply) (supplied : Value)
    (provider : Provider) (actions : Field → Actions) : Frame where
  slot := slot
  supplied := supplied
  provider := provider
  owners := owners
  supply := supply
  actions := actions
  slot_lt := ground.drawn
  owner_ne := ground.apart
  plain := ground.plain

/-- A field of a ground fits its frame if its hooks act as they are said to. -/
theorem Frame.Ground.fits (ground : Frame.Ground slot owners fields supply) {supplied : Value}
    {provider : Provider} {actions : Field → Actions} {field : Field} (known : fields field)
    (acts : field.ActsBy slot supplied provider (actions field)) :
    (ground.frame supplied provider actions).Fits field where
  unreserved := ground.fieldNames field known
  closed := ground.closed field known
  acts := acts
  context := ground.contexts field known
  element := ground.elements field known

/-- If each field does something, what fields do can be chosen so that fields outside of the
    ground cut nothing. -/
theorem Frame.exists_actions {does : Field → Actions → Prop}
    (each : ∀ field, fields field → ∃ actions, does field actions) :
    ∃ actions : Field → Actions, (∀ field, fields field → does field (actions field)) ∧
      ∀ field, ¬fields field → (actions field).cuts = [] := by
  have chosen (field : Field) : ∃ actions : Actions,
      (fields field → does field actions) ∧ (¬fields field → actions.cuts = []) := by
    by_cases known : fields field
    · obtain ⟨actions, done⟩ := each field known
      exact ⟨actions, fun _ => done, fun unknown => absurd known unknown⟩
    · exact ⟨⟨pure, pure, []⟩, fun found => absurd found known, fun _ => rfl⟩
  obtain ⟨actions, does⟩ := Classical.axiomOfChoice chosen
  exact ⟨actions, fun field => (does field).1, fun field => (does field).2⟩

/-- Over a basis there is a frame for any variables and any provider, which all fields fit and
    in which a field without paging is not cut.

    Proof: the hooks of each field act, and what they do is chosen field by field. -/
theorem Frame.Basis.exists_frame (basis : Frame.Basis slot owners fields supply)
    (supplied : Value) (provider : Provider) :
    ∃ frame : Frame, frame.slot = slot ∧ frame.supplied = supplied ∧ frame.provider = provider ∧
      frame.owners = owners ∧ frame.supply = supply ∧
      (∀ field, fields field → frame.Fits field) ∧
      ∀ field, (fields field → ∀ extension ∈ field.extensions, ¬extension.Pages) →
        (frame.actions field).cuts = [] := by
  obtain ⟨actions, acts, others⟩ := exists_actions (fun field known =>
    Field.exists_actsBy (basis.builtIn field known) (basis.closed field known).reads)
  refine ⟨basis.frame supplied provider actions, rfl, rfl, rfl, rfl, rfl,
    fun field known => basis.fits known (acts field known).1, ?_⟩
  intro field pageless
  by_cases known : fields field
  · exact (acts field known).2 (pageless known)
  · exact others field known

end Ground

/-! ## Fields that are evaluated from data -/

namespace Frame

variable {frame : Frame} {field : Field} {env : Environment} {base? : Option Placeholder}
  {options : PassOptions} {value : Value} {supply : Nat}

/-- The expression of a field has the value of the field where a pass moves it. -/
def Moves (frame : Frame) (field : Field) (base? : Option Placeholder) (options : PassOptions)
    (env : Environment) (value : Value) : Prop :=
  (field.relocate base? options field.expr).evaluate frame.provider env =
    frame.valueOf field value

/-- A pass over source data moves fields. -/
theorem moves_of_fromData (fits : frame.Fits field) (fromData : options.replacement? = none)
    (owned : frame.owners (base?.getD field.context))
    (gives : frame.Gives env (base?.getD field.context) value) :
    frame.Moves field base? options env value :=
  evaluate_relocate fits fits.closed.free fits.closed.binds fromData owned gives

/-- A scalar that is evaluated from data contributes its value after its hooks. -/
theorem contributeScalar_fromData (fits : frame.Fits field)
    (stays : (options.leavingOut && field.callsService) = false)
    (unknown : field.known? options = none) (moves : frame.Moves field base? options env value)
    (supplied : env.value? frame.slot = some frame.supplied) (passed : frame.supply ≤ supply) :
    ∃ expr, (field.contributeScalar base? options supply).1 = [(field.name, expr)] ∧
      expr.evaluate frame.provider env =
        frame.valueOf field value >>= (frame.actions field).onScalar := by
  unfold Field.known? at unknown
  unfold Field.contributeScalar
  simp only [stays, Bool.false_eq_true, ↓reduceIte, unknown]
  refine ⟨_, rfl, ?_⟩
  rw [← moves]
  exact fits.acts.onScalar.evaluate _ _ _ (Nat.lt_of_lt_of_le frame.slot_lt passed) supplied

/-- The source of a selection that is evaluated from data has its value after its hooks. -/
theorem drawSource_fromData (fits : frame.Fits field) {element : Placeholder} {isList : Bool}
    (unknown : field.known? options = none) (moves : frame.Moves field base? options env value)
    (supplied : env.value? frame.slot = some frame.supplied) (passed : frame.supply ≤ supply) :
    ∃ source after, field.drawSource element isList base? options supply =
        (⟨source, element, none, true⟩, after) ∧ frame.supply ≤ after ∧
      source.evaluate frame.provider env =
        frame.valueOf field value >>= (frame.actions field).before := by
  unfold Field.known? at unknown
  unfold Field.drawSource
  simp only [unknown]
  refine ⟨_, _, rfl, Nat.le_trans passed (fits.acts.before.passed _ _), ?_⟩
  rw [← moves]
  exact fits.acts.before.evaluate _ _ _ (Nat.lt_of_lt_of_le frame.slot_lt passed) supplied

end Frame

/-! ## Settings -/

/-- What a query is executed with: the placeholder and the value of the variables, the provider,
    and the first number that no field mentions. -/
structure Setting where
  slot : Placeholder
  supplied : Value
  provider : Provider
  supply : Nat

/-- An expression, after hooks of one kind of a field's extensions, has a result over a value of
    the field's context, wherever the hooks draw placeholders from. -/
def Setting.Finds (setting : Setting) (pick : Extension → Adjustment) (field : Field)
    (expr : Expr) (value result : Value) : Prop :=
  ∀ supply, setting.supply ≤ supply →
    ((Extension.adjustAll pick field.name field.arguments field.extensions expr supply).1.evaluate
      setting.provider
      [(setting.slot.number, setting.supplied), (field.context.number, value)]).result = .ok result

/-- What stays the same while a query is executed in a frame. -/
def Frame.setting (frame : Frame) : Setting :=
  ⟨frame.slot, frame.supplied, frame.provider, frame.supply⟩

/-- Hooks that act find what they make of the value of an expression, and nothing else. -/
theorem Frame.finds_iff {frame : Frame} {field : Field} (fits : frame.Fits field)
    {pick : Extension → Adjustment} {action : Value → Outcome Value}
    (acts : Acts (Extension.adjustAll pick field.name field.arguments field.extensions)
      frame.slot frame.supplied frame.provider action) {expr : Expr} {value result : Value} :
    frame.setting.Finds pick field expr value result ↔
      (expr.evaluate frame.provider [(frame.slot.number, frame.supplied),
        (field.context.number, value)] >>= action).result = .ok result := by
  have evaluated (supply : Nat) (passed : frame.supply ≤ supply) :=
    acts.evaluate expr supply _ (Nat.lt_of_lt_of_le frame.slot_lt passed)
      (gives_own fits value).supplied
  constructor
  · intro found
    exact (congrArg Outcome.result (evaluated _ (Nat.le_refl _))).symm.trans
      (found _ (Nat.le_refl _))
  · intro found supply passed
    exact (congrArg Outcome.result (evaluated supply passed)).trans found

end StagedQuery
