import StagedQuery.Selection.Tree
import StagedQuery.Proofs.Drawing
import StagedQuery.Proofs.Expr.Purity
import StagedQuery.Proofs.Outcome

/-!
# What the built-in extensions do to values

A built-in hook wraps an expression. What it makes of the expression is an action on the
value: the outcome is that of the expression followed by the action, whatever the
expression, the supply and the environment are, as long as the variables are bound. The
actions after a selection are cuts, which drop and take items of a list by their place.
-/

namespace StagedQuery

/-! ## Cuts -/

/-- A cut of a list: how many items to drop and how many of the rest to take. -/
abbrev Cut := Nat × Option Nat

/-- The items that a cut leaves. -/
def cutOnce {α : Type} (cut : Cut) (items : List α) : List α :=
  let rest := items.drop cut.1
  match cut.2 with
  | some count => rest.take count
  | none => rest

/-- The items that some cuts leave, one after the other. -/
def cutItems {α : Type} (cuts : List Cut) (items : List α) : List α :=
  cuts.foldl (fun left cut => cutOnce cut left) items

/-- What some cuts make of a value: null stays null, and only lists can be cut. -/
def cutValue (cuts : List Cut) (value : Value) : Outcome Value :=
  cuts.foldlM (fun left cut => withItems "slice" (pure left) fun items =>
    pure (.list (cutOnce cut items))) value

/-- Without a cut any value stays as it is, and nothing fails. -/
theorem cutValue_nil (value : Value) : cutValue [] value = pure value := rfl

/-- To cut nothing is to do nothing. -/
theorem cutValue_nil_eq : cutValue [] = pure := funext cutValue_nil

/-- Null stays null under any cuts. -/
theorem cutValue_null (cuts : List Cut) : cutValue cuts .null = pure .null := by
  induction cuts with
  | nil => rfl
  | cons cut rest ih => exact ih

/-- A list is cut to the items that the cuts leave. -/
theorem cutValue_list (cuts : List Cut) (items : List Value) :
    cutValue cuts (.list items) = pure (.list (cutItems cuts items)) := by
  induction cuts generalizing items with
  | nil => rfl
  | cons cut rest ih => exact ih (cutOnce cut items)

/-- Cuts act one after the other. -/
theorem cutValue_append (left right : List Cut) (value : Value) :
    cutValue (left ++ right) value = cutValue left value >>= cutValue right := by
  unfold cutValue
  rw [List.foldlM_append]

/-- An object is cut by no cut at all. -/
theorem cutValue_object {cuts : List Cut} {members : List (String × Value)} {value : Value}
    (succeeded : (cutValue cuts (.object members)).result = .ok value) :
    cuts = [] ∧ value = .object members := by
  cases cuts with
  | nil => exact ⟨rfl, (Except.ok.inj succeeded).symm⟩
  | cons cut rest => cases succeeded

/-- A list operation on an outcome is the operation on its value. -/
theorem withItems_eq_bind (operation : String) (source : Outcome Value)
    (body : List Value → Outcome Value) :
    withItems operation source body =
      source >>= fun value => withItems operation (pure value) body := by
  simp only [withItems, bind_assoc, pure_bind]

/-- A slice cuts the value of its source. -/
theorem Expr.evaluate_slice (source : Expr) (skip : Nat) (take : Option Nat) (provider : Provider)
    (env : Environment) : (Expr.slice source skip take).evaluate provider env =
      source.evaluate provider env >>= cutValue [(skip, take)] := by
  simp only [Expr.evaluate]
  rw [withItems_eq_bind]
  refine congrArg _ (funext fun value => ?_)
  simp only [cutValue, List.foldlM_cons, List.foldlM_nil, bind_pure]
  rfl

/-! ## Where arguments read the variables from -/

/-- The same arguments, reading variables from another placeholder if they read any. -/
def ArgumentSet.rereadFrom (arguments : ArgumentSet) (slot : Placeholder) : ArgumentSet :=
  { arguments with placeholder? := arguments.placeholder?.map fun _ => slot }

namespace Extension

/-- Bound arguments read variables from a placeholder, if they read any. -/
def ReadsFrom (arguments : ArgumentSet) (slot : Placeholder) : Prop :=
  ∀ read ∈ arguments.placeholder?, read.number = slot.number

/-- Arguments that were moved to a placeholder read from it. -/
theorem readsFrom_rereadFrom (arguments : ArgumentSet) (slot : Placeholder) :
    ReadsFrom (arguments.rereadFrom slot) slot := by
  intro read reads
  obtain ⟨before, -, rfl⟩ := Option.map_eq_some_iff.mp reads
  rfl

/-- Arguments that read from a placeholder are what they are when they read from one of that
    number. -/
theorem ReadsFrom.exists_rereadFrom {arguments : ArgumentSet} {slot : Placeholder}
    (reads : ReadsFrom arguments slot) :
    ∃ read : Placeholder, read.number = slot.number ∧ arguments.rereadFrom read = arguments := by
  obtain ⟨values, sources, none | read⟩ := arguments
  · exact ⟨slot, rfl, rfl⟩
  · exact ⟨read, reads read rfl, rfl⟩

end Extension

/-! ## Actions -/

/-- An adjustment acts on the values of expressions: it wraps any expression so that its
    outcome is followed by the action, and it takes nothing back that was drawn. -/
structure Acts (adjust : Expr → Drawing Expr) (slot : Placeholder) (supplied : Value)
    (provider : Provider) (action : Value → Outcome Value) : Prop where
  passed : ∀ expr supply, supply ≤ (adjust expr supply).2
  evaluate : ∀ expr supply env, slot.number < supply → env.value? slot = some supplied →
    (adjust expr supply).1.evaluate provider env = expr.evaluate provider env >>= action

section Acts

variable {slot : Placeholder} {supplied : Value} {provider : Provider}

/-- Only the number of the placeholder matters. -/
theorem Acts.of_number_eq {adjust : Expr → Drawing Expr} {action : Value → Outcome Value}
    {other : Placeholder} (acts : Acts adjust slot supplied provider action)
    (same : slot.number = other.number) : Acts adjust other supplied provider action where
  passed := acts.passed
  evaluate expr supply env below bound :=
    acts.evaluate expr supply env (same ▸ below) ((Environment.value?_congr same).trans bound)

/-- An adjustment acts in one way only.

    Proof: the action shows on constants. -/
theorem Acts.unique {adjust : Expr → Drawing Expr} {action action' : Value → Outcome Value}
    (acts : Acts adjust slot supplied provider action)
    (actsToo : Acts adjust slot supplied provider action') : action = action' := by
  funext value
  have bound : Environment.value? [(slot.number, supplied)] slot = some supplied := by
    simp [Environment.value?]
  have one := acts.evaluate (.constant value) (slot.number + 1) _ (Nat.lt_succ_self _) bound
  have two := actsToo.evaluate (.constant value) (slot.number + 1) _ (Nat.lt_succ_self _) bound
  exact one.symm.trans two

/-- An adjustment acts in the same way wherever its arguments read the variables from. -/
def ActsAnywhere (adjust : ArgumentSet → Expr → Drawing Expr) (arguments : ArgumentSet)
    (supplied : Value) (provider : Provider) (action : Value → Outcome Value) : Prop :=
  ∀ slot, Acts (adjust (arguments.rereadFrom slot)) slot supplied provider action

/-- Changing nothing acts by nothing. -/
theorem acts_none (field : String) (arguments : ArgumentSet) :
    Acts (Adjustment.none field arguments) slot supplied provider pure where
  passed _ _ := Nat.le_refl _
  evaluate expr _ env _ _ := (bind_pure (expr.evaluate provider env)).symm

/-- Adjustments that act in turn act together. -/
theorem Acts.foldlM_cons {first : Expr → Drawing Expr} {rest : Expr → Drawing Expr}
    {action later : Value → Outcome Value} (head : Acts first slot supplied provider action)
    (tail : Acts rest slot supplied provider later) :
    Acts (fun expr => first expr >>= rest) slot supplied provider
      (fun value => action value >>= later) where
  passed expr supply := Nat.le_trans (head.passed expr supply) (tail.passed _ _)
  evaluate expr supply env below bound := by
    rw [Drawing.run_bind,
      tail.evaluate _ _ env (Nat.lt_of_lt_of_le below (head.passed expr supply)) bound,
      head.evaluate expr supply env below bound, bind_assoc]

/-- Hooks that act anywhere, applied in order, act anywhere together. -/
theorem Extension.exists_acts_adjustAll {pick : Extension → Adjustment} {field : String}
    {arguments : ArgumentSet} {extensions : List Extension}
    (each : ∀ extension ∈ extensions,
      ∃ action, ActsAnywhere (pick extension field) arguments supplied provider action) :
    ∃ action, ActsAnywhere (adjustAll pick field · extensions) arguments supplied provider
      action := by
  induction extensions with
  | nil => exact ⟨pure, fun slot => acts_none field (arguments.rereadFrom slot)⟩
  | cons first rest ih =>
    obtain ⟨action, head⟩ := each first (by simp)
    obtain ⟨later, tail⟩ := ih fun extension inside => each extension (by simp [inside])
    exact ⟨_, fun slot => (head slot).foldlM_cons (tail slot)⟩

end Acts

/-! ## The built-in hooks -/

/-- The extensions that the library brings. -/
inductive Extension.BuiltIn : Extension → Prop where
  | filter : BuiltIn Extension.filter
  | sort : BuiltIn Extension.sort
  | paging (default maximum : Option Nat) : BuiltIn (Extension.paging default maximum)
  | convert (kind : ScalarKind) : BuiltIn (Extension.convert kind)

namespace Extension

variable {slot : Placeholder} {supplied : Value} {provider : Provider}

/-- The expression of an input object's member reads nothing but the variables. -/
theorem free_memberExpr {arguments : ArgumentSet} (reads : ReadsFrom arguments slot)
    (member name : String) :
    ∀ number ∈ (arguments.memberExpr member name).free, number = slot.number := by
  have convertRead_free (type : ArgumentType) (read : Expr) :
      (ArgumentSet.convertRead type read).free = read.free := by
    unfold ArgumentSet.convertRead
    split <;> rfl
  have variable_free {read : Expr} {type : ArgumentType}
      (found : arguments.variableRead? member = some (read, type)) :
      ∀ number ∈ read.free, number = slot.number := by
    unfold ArgumentSet.variableRead? at found
    split at found
    · rename_i own source given known
      cases found
      simpa [Expr.get, Expr.free] using reads own given
    · cases found
  unfold ArgumentSet.memberExpr
  split
  · rename_i read type found
    have inside (inner : String) : (read.get inner).free = read.free := rfl
    split
    · rw [convertRead_free, inside]
      exact variable_free found
    · rw [inside]
      exact variable_free found
  · simp [Expr.free]

/-- It calls no service. -/
theorem callsOnly_memberExpr {known : Capability → Prop} (arguments : ArgumentSet)
    (member name : String) : (arguments.memberExpr member name).CallsOnly known := by
  have convertRead_calls {type : ArgumentType} {read : Expr} (calls : read.CallsOnly known) :
      (ArgumentSet.convertRead type read).CallsOnly known := by
    unfold ArgumentSet.convertRead
    split
    · rwa [Expr.callsOnly_convert]
    · exact calls
  unfold ArgumentSet.memberExpr ArgumentSet.variableRead?
  split
  · rename_i read type found
    split at found
    · cases found
      split <;> simp [convertRead_calls]
    · cases found
  · exact Expr.callsOnly_of_silent rfl

/-- A conjunction of tests with the same outcomes has the same outcome. -/
theorem evaluate_conjunction_congr {α : Type} {env env' : Environment} {tests tests' : α → Expr}
    {names : List α}
    (each : ∀ name ∈ names,
      (tests name).evaluate provider env = (tests' name).evaluate provider env') :
    (conjunction (names.map tests)).evaluate provider env =
      (conjunction (names.map tests')).evaluate provider env' := by
  have joined (rest : List α) (first first' : Expr)
      (same : first.evaluate provider env = first'.evaluate provider env')
      (each : ∀ name ∈ rest,
        (tests name).evaluate provider env = (tests' name).evaluate provider env') :
      ((rest.map tests).foldl (.binary .and) first).evaluate provider env =
        ((rest.map tests').foldl (.binary .and) first').evaluate provider env' := by
    induction rest generalizing first first' with
    | nil => exact same
    | cons name rest ih =>
      refine ih _ _ ?_ fun other inside => each other (by simp [inside])
      simp only [Expr.evaluate]
      rw [same, each name (by simp)]
  cases names with
  | nil => rfl
  | cons name rest =>
    exact joined rest _ _ (each name (by simp)) fun other inside => each other (by simp [inside])

/-- The members that a filter compares: those that are not null. -/
def comparedMembers (arguments : ArgumentSet) : List String :=
  (boundMembers arguments "filter").filterMap fun (name, value) =>
    if value.isNull then none else some name

/-- The test of an item of a filter for one wanted member. -/
def filterTest (arguments : ArgumentSet) (item : Placeholder) (name : String) : Expr :=
  .binary .equal ((Expr.read item).get name) (arguments.memberExpr "filter" name)

/-- A filter that compares nothing keeps its source, any other one tests the items. -/
theorem filterSource_eq (field : String) (arguments : ArgumentSet) :
    filterSource field arguments = fun source =>
      if (comparedMembers arguments).isEmpty then pure source
      else source.drawElement "item" >>= fun item =>
        pure (.filter source item
          (conjunction ((comparedMembers arguments).map (filterTest arguments item)))) :=
  rfl

/-- Whether an item of a filter passes the tests for the wanted members. -/
def passesFilter (provider : Provider) (arguments : ArgumentSet) (names : List String)
    (item : Placeholder) (env : Environment) (value : Value) : Outcome Value :=
  (conjunction (names.map (filterTest arguments item))).evaluate provider (env.bind item value)

/-- Below the binder of an item, the read of a member is the member of the item. -/
theorem evaluate_itemMember (env : Environment) (item : Placeholder) (value : Value)
    (name : String) : ((Expr.read item).get name).evaluate provider (env.bind item value) =
      pure (value.member name) := by
  simp [Expr.get, Expr.evaluate, Environment.value?_bind]

/-- A test is evaluated below the binder of the item, where the variables are still bound. -/
theorem evaluate_filterTest {arguments : ArgumentSet} (reads : ReadsFrom arguments slot)
    {env : Environment} (bound : env.value? slot = some supplied) {item : Placeholder}
    (apart : item.number ≠ slot.number) (value : Value) (name : String) :
    (filterTest arguments item name).evaluate provider (env.bind item value) =
      (arguments.memberExpr "filter" name).evaluate provider [(slot.number, supplied)] >>=
        fun wanted => pure (.bool ((value.member name).looseSame wanted)) := by
  have agree : Environment.AgreeOn (arguments.memberExpr "filter" name).free
      (env.bind item value) [(slot.number, supplied)] := by
    intro read free
    have same := free_memberExpr reads "filter" name read.number free
    rw [Environment.value?_congr same, Environment.value?_congr same,
      Environment.value?_bind, if_neg apart, bound]
    simp [Environment.value?]
  have wanted := Expr.evaluate_congr (arguments.memberExpr "filter" name) agree
    (Expr.ProvidersAgree.refl provider _)
  simp only [filterTest, Expr.evaluate, evaluate_itemMember, wanted, pure_bind]
  rfl

/-- The value of a member does not depend on where the variables are read from. -/
theorem evaluate_memberExpr_rereadFrom (arguments : ArgumentSet) (member name : String)
    (slot slot' : Placeholder) :
    ((arguments.rereadFrom slot).memberExpr member name).evaluate provider
        [(slot.number, supplied)] =
      ((arguments.rereadFrom slot').memberExpr member name).evaluate provider
        [(slot'.number, supplied)] := by
  have converted (type : ArgumentType) {read read' : Expr} {env env' : Environment}
      (same : read.evaluate provider env = read'.evaluate provider env') :
      (ArgumentSet.convertRead type read).evaluate provider env =
        (ArgumentSet.convertRead type read').evaluate provider env' := by
    unfold ArgumentSet.convertRead
    split
    · simp only [Expr.evaluate, same]
    · exact same
  have read (origin : String) (slot : Placeholder) :
      ((Expr.read slot).get origin).evaluate provider [(slot.number, supplied)] =
        pure (supplied.member origin) := by
    simp [Expr.get, Expr.evaluate, Environment.value?]
  have memberOf (origin inner : String) (slot : Placeholder) :
      (((Expr.read slot).get origin).get inner).evaluate provider [(slot.number, supplied)] =
        pure ((supplied.member origin).member inner) := by
    rw [Expr.get, Expr.evaluate, read, pure_bind]
  obtain ⟨values, sources, none | _⟩ := arguments
  · rfl
  · simp only [ArgumentSet.rereadFrom, Option.map_some, ArgumentSet.memberExpr,
      ArgumentSet.variableRead?]
    cases sources.value? member with
    | none => rfl
    | some source =>
      simp only
      split
      · exact converted _ ((memberOf _ _ slot).trans (memberOf _ _ slot').symm)
      · exact (memberOf _ _ slot).trans (memberOf _ _ slot').symm

/-- Whether an item passes depends on its value and on the values of the variables only. -/
theorem passesFilter_congr {slot slot' : Placeholder} (arguments : ArgumentSet)
    (names : List String) {env env' : Environment} (bound : env.value? slot = some supplied)
    (bound' : env'.value? slot' = some supplied) {item item' : Placeholder}
    (apart : item.number ≠ slot.number) (apart' : item'.number ≠ slot'.number) :
    passesFilter provider (arguments.rereadFrom slot) names item env =
      passesFilter provider (arguments.rereadFrom slot') names item' env' := by
  funext value
  apply evaluate_conjunction_congr
  intro name _
  rw [evaluate_filterTest (readsFrom_rereadFrom arguments slot) bound apart,
    evaluate_filterTest (readsFrom_rereadFrom arguments slot') bound' apart',
    evaluate_memberExpr_rereadFrom arguments "filter" name slot slot']

/-- The filter acts: it keeps the items that pass every test. Any placeholders of the item and
    of the variables will do, so the action is that of the first two numbers. -/
theorem exists_acts_filterSource (arguments : ArgumentSet) (field : String) :
    ∃ action, ActsAnywhere (filterSource field) arguments supplied provider action := by
  let variablesSlot : Placeholder := ⟨0, "vars", .any⟩
  let wanted := comparedMembers arguments
  have names (slot : Placeholder) : comparedMembers (arguments.rereadFrom slot) = wanted := rfl
  unfold ActsAnywhere
  simp only [filterSource_eq, names]
  cases empty : wanted.isEmpty with
  | true =>
    simp only [↓reduceIte]
    exact ⟨pure, fun slot => acts_none field (arguments.rereadFrom slot)⟩
  | false =>
    simp only [Bool.false_eq_true, ↓reduceIte]
    refine ⟨fun value => withItems "filter" (pure value) fun items => do
      let kept ← keepItems (passesFilter provider (arguments.rereadFrom variablesSlot) wanted
        ⟨1, "item", .any⟩ [(0, supplied)]) items
      pure (.list kept), fun slot => ⟨fun expr supply => Nat.le_succ supply, ?_⟩⟩
    intro expr supply env below bound
    have same (shape : Shape) :
        passesFilter provider (arguments.rereadFrom slot) wanted ⟨supply, "item", shape⟩ env =
          passesFilter provider (arguments.rereadFrom variablesSlot) wanted ⟨1, "item", .any⟩
            [(0, supplied)] := by
      apply passesFilter_congr arguments wanted bound rfl
      · exact Nat.ne_of_gt below
      · exact Nat.one_ne_zero
    simp only [Drawing.run_bind, Drawing.run_pure, Expr.evaluate]
    rw [withItems_eq_bind]
    refine congrArg _ (funext fun value => ?_)
    refine congrArg _ (funext fun items => ?_)
    exact congrArg (keepItems · items >>= fun kept => pure (Value.list kept)) (same _)

/-- The members that a sort compares, each with its direction. -/
def sortedMembers (arguments : ArgumentSet) : List (String × Direction) :=
  (boundMembers arguments "sort").filterMap fun (name, value) =>
    value.text?.map fun text =>
      (name, if text = "DESC" then Direction.descending else Direction.ascending)

/-- A sort that compares nothing keeps its source, any other one orders the items. -/
theorem sortSource_eq (field : String) (arguments : ArgumentSet) :
    sortSource field arguments = fun source =>
      if (sortedMembers arguments).isEmpty then pure source
      else source.drawElement "item" >>= fun item =>
        pure (.sort source item ((sortedMembers arguments).map fun key =>
          ((Expr.read item).get key.1, key.2))) :=
  rfl

/-- The values of sort keys are members of the item. -/
theorem evaluateKeys_sort {env : Environment} (item : Placeholder) (value : Value)
    (keys : List (String × Direction)) :
    Expr.evaluateKeys provider (keys.map fun key => ((Expr.read item).get key.1, key.2))
      (env.bind item value) = pure (keys.map fun key => value.member key.1) := by
  induction keys with
  | nil => rfl
  | cons key rest ih =>
    simp only [List.map_cons, Expr.evaluateKeys, evaluate_itemMember, ih, pure_bind]

/-- The sort acts: it orders the items by their members. -/
theorem exists_acts_sortSource (field : String) (arguments : ArgumentSet) :
    ∃ action, ActsAnywhere (sortSource field) arguments supplied provider action := by
  let wanted := sortedMembers arguments
  have keys (slot : Placeholder) : sortedMembers (arguments.rereadFrom slot) = wanted := rfl
  unfold ActsAnywhere
  simp only [sortSource_eq, keys]
  cases empty : wanted.isEmpty with
  | true =>
    simp only [↓reduceIte]
    exact ⟨pure, fun slot => acts_none field (arguments.rereadFrom slot)⟩
  | false =>
    simp only [Bool.false_eq_true, ↓reduceIte]
    refine ⟨fun value => withItems "sort" (pure value) fun items => do
      let keyed ← mapItems (fun item => pure (wanted.map fun key => item.member key.1, item)) items
      let sorted := sortItems
        (fun left right => compareKeys (wanted.map Prod.snd) left.1 right.1) keyed
      pure (.list (sorted.map Prod.snd)), fun slot => ⟨fun expr supply => Nat.le_succ supply, ?_⟩⟩
    intro expr supply env _ _
    simp only [Drawing.run_bind, Drawing.run_pure, Expr.evaluate, evaluateKeys_sort, pure_bind]
    rw [withItems_eq_bind]
    simp only [List.map_map]
    rfl

/-- A page is a cut or the whole selection. -/
theorem exists_cut_pageSelection (default maximum : Option Nat) (field : String)
    (arguments : ArgumentSet) :
    ∃ cuts, ActsAnywhere (pageSelection default maximum field) arguments supplied provider
        (cutValue cuts) := by
  let skip := ((boundInt? arguments "skip").bind natural?).getD 0
  let take := pageSize arguments default maximum
  have skipped (slot : Placeholder) :
      ((boundInt? (arguments.rereadFrom slot) "skip").bind natural?).getD 0 = skip := rfl
  have taken (slot : Placeholder) :
      pageSize (arguments.rereadFrom slot) default maximum = take := rfl
  unfold ActsAnywhere pageSelection
  simp only [skipped, taken]
  split
  · exact ⟨[], fun slot => acts_none field (arguments.rereadFrom slot)⟩
  · refine ⟨[(skip, take)], fun slot => ⟨fun _ _ => Nat.le_refl _, fun expr supply env _ _ => ?_⟩⟩
    exact Expr.evaluate_slice expr skip take provider env

/-- A conversion acts: it converts the value. -/
theorem acts_convert (kind : ScalarKind) (field : String) (arguments : ArgumentSet) :
    Acts ((Extension.convert kind).onScalar field arguments) slot supplied provider
      fun value => match value.convert? kind with
        | some converted => pure converted
        | none => .fail (.conversion value.display kind) :=
  ⟨fun _ _ => Nat.le_refl _, fun _ _ _ _ _ => rfl⟩

end Extension

/-! ## The hooks of a field -/

/-- What the hooks of a field do to values: before and after its members are selected, and
    to a scalar. -/
structure Actions where
  before : Value → Outcome Value
  onScalar : Value → Outcome Value
  cuts : List Cut

/-- The hooks of a field act so, and those after a selection keep its shape. -/
structure Field.ActsBy (field : Field) (slot : Placeholder) (supplied : Value)
    (provider : Provider) (actions : Actions) : Prop where
  before : Acts (Extension.adjustAll Extension.beforeSelection field.name field.arguments
    field.extensions) slot supplied provider actions.before
  onScalar : Acts (Extension.adjustAll Extension.onScalar field.name field.arguments
    field.extensions) slot supplied provider actions.onScalar
  after : Acts (Extension.adjustAll Extension.afterSelection field.name field.arguments
    field.extensions) slot supplied provider (cutValue actions.cuts)
  shape : ∀ expr supply, (Extension.adjustAll Extension.afterSelection field.name field.arguments
    field.extensions expr supply).1.shape = expr.shape

section ActsBy

variable {field : Field} {slot : Placeholder} {supplied : Value} {provider : Provider}
  {actions actions' : Actions}

/-- Only the number of the placeholder matters. -/
theorem Field.ActsBy.of_number_eq {other : Placeholder}
    (acts : field.ActsBy slot supplied provider actions) (same : slot.number = other.number) :
    field.ActsBy other supplied provider actions where
  before := acts.before.of_number_eq same
  onScalar := acts.onScalar.of_number_eq same
  after := acts.after.of_number_eq same
  shape := acts.shape

/-- The hooks of fields with the same name, extensions and arguments act alike. -/
theorem Field.ActsBy.congr {field' : Field} (acts : field.ActsBy slot supplied provider actions)
    (name : field.name = field'.name) (extensions : field.extensions = field'.extensions)
    (arguments : field.arguments = field'.arguments) :
    field'.ActsBy slot supplied provider actions := by
  obtain ⟨before, onScalar, after, shape⟩ := acts
  rw [name, extensions, arguments] at before onScalar after shape
  exact ⟨before, onScalar, after, shape⟩

/-- The hooks of a field act in one way only. -/
theorem Field.ActsBy.unique (acts : field.ActsBy slot supplied provider actions)
    (actsToo : field.ActsBy slot supplied provider actions') :
    actions.before = actions'.before ∧ actions.onScalar = actions'.onScalar ∧
      cutValue actions.cuts = cutValue actions'.cuts :=
  ⟨acts.before.unique actsToo.before, acts.onScalar.unique actsToo.onScalar,
    acts.after.unique actsToo.after⟩

end ActsBy

namespace Extension

variable {slot : Placeholder} {supplied : Value} {provider : Provider} {extension : Extension}

/-- An extension that cuts pages. -/
def Pages (extension : Extension) : Prop :=
  ∃ default maximum, extension = .paging default maximum

/-- Only paging does anything after a selection, and it cuts. -/
theorem BuiltIn.exists_cut (builtIn : extension.BuiltIn) (field : String)
    (arguments : ArgumentSet) :
    ∃ cuts, ActsAnywhere (extension.afterSelection field) arguments supplied provider
        (cutValue cuts) ∧ (¬extension.Pages → cuts = []) := by
  have nothing : ∃ cuts, ActsAnywhere (Adjustment.none field) arguments supplied provider
      (cutValue cuts) ∧ (¬extension.Pages → cuts = []) :=
    ⟨[], fun slot => acts_none field (arguments.rereadFrom slot), fun _ => rfl⟩
  cases builtIn with
  | filter => exact nothing
  | sort => exact nothing
  | paging default maximum =>
    obtain ⟨cuts, acts⟩ := exists_cut_pageSelection default maximum field arguments
    exact ⟨cuts, acts, fun pageless => absurd ⟨default, maximum, rfl⟩ pageless⟩
  | convert kind => exact nothing

/-- Cuts after a selection, one extension after the other, are cuts. -/
theorem exists_cut_adjustAll {extensions : List Extension}
    (builtIn : ∀ extension ∈ extensions, extension.BuiltIn) (field : String)
    (arguments : ArgumentSet) :
    ∃ cuts, ActsAnywhere (adjustAll afterSelection field · extensions) arguments supplied provider
        (cutValue cuts) ∧ ((∀ extension ∈ extensions, ¬extension.Pages) → cuts = []) := by
  induction extensions with
  | nil =>
    exact ⟨[], fun slot => acts_none field (arguments.rereadFrom slot), fun _ => rfl⟩
  | cons first rest ih =>
    obtain ⟨cuts, head, none⟩ := (builtIn first (by simp)).exists_cut field arguments
    obtain ⟨later, tail, noneToo⟩ :=
      ih fun extension inside => builtIn extension (by simp [inside])
    refine ⟨cuts ++ later, ?_, ?_⟩
    · intro slot
      have both := (head slot).foldlM_cons (tail slot)
      rwa [show (fun value => cutValue cuts value >>= cutValue later) = cutValue (cuts ++ later)
        from funext fun value => (cutValue_append cuts later value).symm] at both
    · intro pageless
      rw [none (pageless first (by simp)),
        noneToo fun extension inside => pageless extension (by simp [inside]), List.append_nil]

/-- What a built-in extension makes of a selection has the shape of the selection. -/
theorem BuiltIn.shape_afterSelection (builtIn : extension.BuiltIn) (field : String)
    (arguments : ArgumentSet) (expr : Expr) (supply : Nat) :
    (extension.afterSelection field arguments expr supply).1.shape = expr.shape := by
  cases builtIn with
  | paging default maximum =>
    simp only [Extension.paging, Extension.pageSelection, Drawing.run_pure]
    split <;> rfl
  | filter | sort | convert => rfl

/-- So has what built-in extensions make of it one after the other. -/
theorem shape_adjustAll {extensions : List Extension}
    (builtIn : ∀ extension ∈ extensions, extension.BuiltIn) (field : String)
    (arguments : ArgumentSet) (expr : Expr) (supply : Nat) :
    (adjustAll afterSelection field arguments extensions expr supply).1.shape = expr.shape := by
  induction extensions generalizing expr supply with
  | nil => rfl
  | cons first rest ih =>
    simp only [adjustAll, List.foldlM_cons, Drawing.run_bind]
    exact (ih (fun extension inside => builtIn extension (by simp [inside])) _ _).trans
      ((builtIn first (by simp)).shape_afterSelection field arguments expr supply)

end Extension

/-- The hooks of a field with built-in extensions act, and wherever its arguments read the
    variables from they act in the same way. Without paging nothing is cut. -/
theorem Field.exists_actsBy_anywhere {field : Field} {supplied : Value} {provider : Provider}
    (builtIn : ∀ extension ∈ field.extensions, extension.BuiltIn) :
    ∃ actions, (∀ slot, Field.ActsBy { field with arguments := field.arguments.rereadFrom slot }
        slot supplied provider actions) ∧
      ((∀ extension ∈ field.extensions, ¬extension.Pages) → actions.cuts = []) := by
  obtain ⟨before, actsBefore⟩ : ∃ action, ActsAnywhere
      (Extension.adjustAll Extension.beforeSelection field.name · field.extensions)
      field.arguments supplied provider action := by
    apply Extension.exists_acts_adjustAll
    intro extension inside
    cases builtIn extension inside with
    | filter => exact Extension.exists_acts_filterSource field.arguments field.name
    | sort => exact Extension.exists_acts_sortSource field.name field.arguments
    | paging | convert =>
      exact ⟨pure, fun slot => acts_none field.name (field.arguments.rereadFrom slot)⟩
  obtain ⟨onScalar, actsOnScalar⟩ : ∃ action, ActsAnywhere
      (Extension.adjustAll Extension.onScalar field.name · field.extensions)
      field.arguments supplied provider action := by
    apply Extension.exists_acts_adjustAll
    intro extension inside
    cases builtIn extension inside with
    | convert kind =>
      exact ⟨_, fun slot =>
        Extension.acts_convert kind field.name (field.arguments.rereadFrom slot)⟩
    | filter | sort | paging =>
      exact ⟨pure, fun slot => acts_none field.name (field.arguments.rereadFrom slot)⟩
  obtain ⟨cuts, actsAfter, none⟩ :=
    Extension.exists_cut_adjustAll builtIn field.name field.arguments
  exact ⟨⟨before, onScalar, cuts⟩, fun slot =>
    ⟨actsBefore slot, actsOnScalar slot, actsAfter slot,
      Extension.shape_adjustAll builtIn field.name (field.arguments.rereadFrom slot)⟩, none⟩

/-- The hooks of a field with built-in extensions act. Without paging nothing is cut. -/
theorem Field.exists_actsBy {field : Field} {slot : Placeholder} {supplied : Value}
    {provider : Provider} (builtIn : ∀ extension ∈ field.extensions, extension.BuiltIn)
    (reads : Extension.ReadsFrom field.arguments slot) :
    ∃ actions, field.ActsBy slot supplied provider actions ∧
      ((∀ extension ∈ field.extensions, ¬extension.Pages) → actions.cuts = []) := by
  obtain ⟨actions, acts, none⟩ := @Field.exists_actsBy_anywhere field supplied provider builtIn
  obtain ⟨read, same, kept⟩ := reads.exists_rereadFrom
  have own := acts read
  rw [kept] at own
  exact ⟨actions, own.of_number_eq same, none⟩

/-! ## The services that hooks call -/

section Services

variable {known : Capability → Prop}

/-- An adjustment of a field calls services of certain capabilities only, if it is given an
    expression that does. -/
def Adjustment.CallsOnly (known : Capability → Prop) (adjust : Adjustment) (field : String)
    (arguments : ArgumentSet) : Prop :=
  ∀ expr, expr.CallsOnly known →
    Drawing.Yields (Expr.CallsOnly known) (adjust field arguments expr)

/-- All hooks of an extension of a field call services of certain capabilities only. -/
structure Extension.CallsOnly (known : Capability → Prop) (extension : Extension)
    (field : String) (arguments : ArgumentSet) : Prop where
  beforeSelection : extension.beforeSelection.CallsOnly known field arguments
  afterSelection : extension.afterSelection.CallsOnly known field arguments
  onScalar : extension.onScalar.CallsOnly known field arguments

/-- What an adjustment makes of an expression without services calls none either. -/
def Adjustment.AddsNoService (adjust : Adjustment) : Prop :=
  ∀ field arguments expr, expr.hasServices = false →
    Drawing.Yields (fun adjusted => adjusted.hasServices = false) (adjust field arguments expr)

/-- None of the hooks of an extension adds a service. -/
structure Extension.AddsNoService (extension : Extension) : Prop where
  beforeSelection : extension.beforeSelection.AddsNoService
  afterSelection : extension.afterSelection.AddsNoService
  onScalar : extension.onScalar.AddsNoService

/-- An adjustment adds no service if it calls those of no capability. -/
theorem Adjustment.addsNoService_iff {adjust : Adjustment} :
    adjust.AddsNoService ↔
      ∀ field arguments, adjust.CallsOnly (fun _ => False) field arguments := by
  simp only [AddsNoService, CallsOnly, Drawing.Yields, Expr.callsOnly_false_iff]

/-- An extension adds no service if its hooks call those of no capability. -/
theorem Extension.addsNoService_iff {extension : Extension} :
    extension.AddsNoService ↔
      ∀ field arguments, extension.CallsOnly (fun _ => False) field arguments := by
  constructor
  · rintro ⟨before, after, scalar⟩ field arguments
    exact ⟨Adjustment.addsNoService_iff.mp before field arguments,
      Adjustment.addsNoService_iff.mp after field arguments,
      Adjustment.addsNoService_iff.mp scalar field arguments⟩
  · intro calls
    exact ⟨Adjustment.addsNoService_iff.mpr fun field arguments =>
        (calls field arguments).beforeSelection,
      Adjustment.addsNoService_iff.mpr fun field arguments =>
        (calls field arguments).afterSelection,
      Adjustment.addsNoService_iff.mpr fun field arguments => (calls field arguments).onScalar⟩

namespace Extension

/-- Adjustments one after the other call what each of them calls. -/
theorem callsOnly_adjustAll {pick : Extension → Adjustment}
    {extensions : List Extension} {field : String} {arguments : ArgumentSet}
    (each : ∀ extension ∈ extensions, (pick extension).CallsOnly known field arguments)
    {expr : Expr} (calls : expr.CallsOnly known) :
    Drawing.Yields (Expr.CallsOnly known) (adjustAll pick field arguments extensions expr) := by
  induction extensions generalizing expr with
  | nil => exact Drawing.yields_pure calls
  | cons first rest ih =>
    simp only [adjustAll, List.foldlM_cons]
    exact (each first (by simp) expr calls).bind fun adjusted still =>
      ih (fun extension inside => each extension (by simp [inside])) still

/-! ## The built-in hooks call no service -/

/-- A conjunction of tests calls what the tests call. -/
theorem callsOnly_conjunction {tests : List Expr} (each : ∀ test ∈ tests, test.CallsOnly known) :
    (conjunction tests).CallsOnly known := by
  have joined (rest : List Expr) (first : Expr) (calls : first.CallsOnly known)
      (each : ∀ test ∈ rest, test.CallsOnly known) :
      (rest.foldl (.binary .and) first).CallsOnly known := by
    induction rest generalizing first with
    | nil => exact calls
    | cons test rest ih =>
      have both : (Expr.binary .and first test).CallsOnly known := by
        simp [calls, each test (by simp)]
      exact ih _ both fun other inside => each other (by simp [inside])
  cases tests with
  | nil => exact Expr.callsOnly_of_silent rfl
  | cons first rest =>
    exact joined rest first (each first (by simp)) fun test inside => each test (by simp [inside])

variable {field : String} {arguments : ArgumentSet}

/-- The adjustment that changes nothing calls nothing of its own. -/
theorem callsOnly_none : Adjustment.none.CallsOnly known field arguments := by
  intro expr calls
  exact Drawing.yields_pure calls

/-- A filter compares members with bound arguments, and neither is a call. -/
theorem callsOnly_filterSource : Adjustment.CallsOnly known filterSource field arguments := by
  intro expr calls
  rw [filterSource_eq]
  split
  · exact Drawing.yields_pure calls
  · refine (Drawing.yields_true _).bind fun item _ => Drawing.yields_pure ?_
    rw [Expr.callsOnly_filter]
    refine ⟨calls, callsOnly_conjunction ?_⟩
    intro test inside
    obtain ⟨name, -, rfl⟩ := List.mem_map.mp inside
    simp [filterTest, callsOnly_memberExpr]

/-- A sort reads members of its items and calls nothing. -/
theorem callsOnly_sortSource : Adjustment.CallsOnly known sortSource field arguments := by
  intro expr calls
  rw [sortSource_eq]
  split
  · exact Drawing.yields_pure calls
  · refine (Drawing.yields_true _).bind fun item _ => Drawing.yields_pure ?_
    rw [Expr.callsOnly_sort]
    refine ⟨calls, ?_⟩
    intro key inside
    obtain ⟨⟨name, direction⟩, -, rfl⟩ := List.mem_map.mp inside
    simp

/-- A page is a slice of its source and calls nothing. -/
theorem callsOnly_pageSelection (default maximum : Option Nat) :
    Adjustment.CallsOnly known (pageSelection default maximum) field arguments := by
  intro expr calls
  refine Drawing.yields_pure ?_
  split
  · exact calls
  · rwa [Expr.callsOnly_slice]

/-- A conversion of a scalar calls nothing. -/
theorem callsOnly_convert (kind : ScalarKind) :
    (Extension.convert kind).onScalar.CallsOnly known field arguments := by
  intro expr calls
  apply Drawing.yields_pure
  rwa [Expr.callsOnly_convert]

/-- The built-in extensions call services of no capability of their own. -/
theorem BuiltIn.callsOnly {extension : Extension} (builtIn : extension.BuiltIn) :
    extension.CallsOnly known field arguments := by
  cases builtIn with
  | filter => exact ⟨callsOnly_filterSource, callsOnly_none, callsOnly_none⟩
  | sort => exact ⟨callsOnly_sortSource, callsOnly_none, callsOnly_none⟩
  | paging default maximum =>
    exact ⟨callsOnly_none, callsOnly_pageSelection default maximum, callsOnly_none⟩
  | convert kind => exact ⟨callsOnly_none, callsOnly_none, callsOnly_convert kind⟩

/-- The built-in extensions add no service. -/
theorem BuiltIn.addsNoService {extension : Extension} (builtIn : extension.BuiltIn) :
    extension.AddsNoService :=
  addsNoService_iff.mpr fun _ _ => builtIn.callsOnly

end Extension

end Services

end StagedQuery
