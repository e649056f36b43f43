import StagedQuery.Proofs.Expr.Renaming
import StagedQuery.Proofs.Selection.Frame
import StagedQuery.Proofs.Selection.PureStage

/-!
# Resolvers that do not look at their context

A resolver is parametric if it writes the same expression over every context, up to the
placeholders that it binds itself and up to the shapes that it states. What it writes over
a placeholder of a fragment and what it writes over the owner of a spread are then the same
computation.

Such a resolver is closed: a placeholder that it read besides its context and the variables
could be chosen as the context of another call.
-/

namespace StagedQuery

/-- A resolver that binds only what it draws and writes the same over every context, where
    the variables are read from either of two placeholders. -/
structure FieldDefinition.Parametric (definition : FieldDefinition) (slot slot' : Placeholder) :
    Prop extends definition.BindsOwn where
  alike : ∀ context context' (plain : ArgumentSet) supply supply',
    DrawnApart context slot supply → DrawnApart context' slot' supply' →
    Expr.Renamed [(context.number, context'.number), (slot.number, slot'.number)]
      (definition.resolve (.read context) (plain.readVariablesFrom slot) supply).1
      (definition.resolve (.read context') (plain.readVariablesFrom slot') supply').1

namespace FieldDefinition

variable {definition : FieldDefinition} {slot slot' : Placeholder}

/-- What is the same up to renaming for two placeholders is so the other way round. -/
theorem Parametric.swap (parametric : definition.Parametric slot slot') :
    definition.Parametric slot' slot where
  toBindsOwn := parametric.toBindsOwn
  alike context context' plain supply supply' drawn drawn' :=
    (parametric.alike context' context plain supply' supply drawn' drawn).swap

/-- Parametric resolvers are closed.

    Proof: the same expression is compared with one over a context that has the number of the
    stray read. There the number stands for the context, on the other side for itself. -/
theorem Parametric.closedOver (parametric : definition.Parametric slot slot') :
    definition.ClosedOver slot where
  toBindsOwn := parametric.toBindsOwn
  free context plain supply drawn number inside := by
    by_contra stray
    obtain ⟨other, otherSlot⟩ := not_or.mp stray
    let chosen := if number = slot'.number then slot'.number + 1 else number
    have drawn' : DrawnApart ⟨chosen, "", .any⟩ slot' (max chosen slot'.number + 1) := by
      constructor
      · exact Nat.lt_succ_of_le (Nat.le_max_left _ _)
      · exact Nat.lt_succ_of_le (Nat.le_max_right _ _)
      · show chosen ≠ slot'.number
        simp only [chosen]
        split
        · omega
        · assumption
    obtain ⟨number', -, paired⟩ :=
      (parametric.alike _ _ plain _ _ drawn drawn').exists_free inside
    obtain ⟨same, -⟩ | ⟨-, apart, ⟨same, -⟩ | ⟨-, apartSlot, rfl⟩⟩ := paired
    · exact other same
    · exact otherSlot same
    · exact apart (if_neg apartSlot).symm

/-- A resolver that draws nothing and builds the same over every parent is parametric. -/
theorem parametric_ofResolver {name : String} {shape : Shape} {build : Expr → Expr}
    (binds : ∀ context allowed, (build (.read context)).Binds allowed)
    (alike : ∀ pairs left right, Expr.Renamed pairs left right →
      Expr.Renamed pairs (build left) (build right)) :
    (ofResolver name shape fun parent _ => pure (build parent)).Parametric slot slot' where
  passed _ _ supply := Nat.le_refl supply
  binds context _ _ := binds context _
  alike _ _ _ _ _ _ _ := alike _ _ _ (.read (.inl ⟨rfl, rfl⟩))

/-- A resolver that reads a member of its parent is parametric. -/
theorem parametric_ofMember (name : String) (shape : Shape) :
    (ofMember name shape).Parametric slot slot' := by
  apply parametric_ofResolver
  · intro context allowed
    exact Expr.binds_of_chain? (Expr.chain?_member context name shape) allowed
  · intro pairs left right same
    exact same.member name shape shape

end FieldDefinition

/-! ## Fields that select one definition -/

/-- A field selects a definition with some arguments: it is what the definition draws over the
    context of the field, wherever the field stands. -/
def Field.Selects (field : Field) (definition : FieldDefinition) (plain : ArgumentSet)
    (slot : Placeholder) : Prop :=
  ∃ supply parent? children, DrawnApart field.context slot supply ∧
    field = { (SelectionTree.drawSelected definition field.context (plain.readVariablesFrom slot)
      supply).1 with parent?, children }

/-- Two frames do not tell two fields apart: the fields have one name, both call services or
    neither does, they have one value over each value of their contexts, and their hooks act
    alike. -/
structure Frame.SeesAlike (frame frame' : Frame) (field field' : Field) : Prop where
  name : field.name = field'.name
  callsService : field.callsService = field'.callsService
  valueOf : frame.valueOf field = frame'.valueOf field'
  before : (frame.actions field).before = (frame'.actions field').before
  onScalar : (frame.actions field).onScalar = (frame'.actions field').onScalar
  cuts : cutValue (frame.actions field).cuts = cutValue (frame'.actions field').cuts

/-- Expressions that are the same up to their contexts and the placeholders of the variables
    have one value over each value of their contexts. -/
theorem Frame.valueOf_eq_of_renamed {frame frame' : Frame} {field field' : Field}
    (renamed : Expr.Renamed [(field.context.number, field'.context.number),
      (frame.slot.number, frame'.slot.number)] field.expr field'.expr)
    (fits : frame.Fits field) (fits' : frame'.Fits field')
    (supplied : frame.supplied = frame'.supplied) (provider : frame.provider = frame'.provider) :
    frame.valueOf field = frame'.valueOf field' := by
  funext value
  have own := Frame.gives_own fits value
  have own' := Frame.gives_own fits' value
  unfold Frame.valueOf
  rw [← provider]
  refine renamed.evaluate ?_
  intro slot slot' inside paired
  rcases paired with ⟨same, same'⟩ | ⟨other, -, ⟨same, same'⟩ | ⟨otherSlot, -, -⟩⟩
  · refine ⟨value, ?_, ?_⟩
    · rw [Environment.value?_congr same, own.base]
    · rw [Environment.value?_congr same', own'.base]
  · refine ⟨frame.supplied, ?_, ?_⟩
    · rw [Environment.value?_congr same, own.supplied]
    · rw [Environment.value?_congr same', own'.supplied, supplied]
  · exact absurd (fits.closed.free slot.number inside) (not_or.mpr ⟨other, otherSlot⟩)

/-- The built-in hooks of fields that differ only in where they read the variables from act
    alike. -/
theorem Frame.actions_alike {frame frame' : Frame} {field field' : Field} {plain : ArgumentSet}
    (fits : frame.Fits field) (fits' : frame'.Fits field')
    (builtIn : ∀ extension ∈ field.extensions, extension.BuiltIn)
    (name : field.name = field'.name) (extensions : field.extensions = field'.extensions)
    (arguments : field.arguments = plain.readVariablesFrom frame.slot)
    (arguments' : field'.arguments = plain.readVariablesFrom frame'.slot)
    (supplied : frame.supplied = frame'.supplied) (provider : frame.provider = frame'.provider) :
    (frame.actions field).before = (frame'.actions field').before ∧
      (frame.actions field).onScalar = (frame'.actions field').onScalar ∧
      cutValue (frame.actions field).cuts = cutValue (frame'.actions field').cuts := by
  obtain ⟨actions, acts, -⟩ :=
    @Field.exists_actsBy_anywhere field frame.supplied frame.provider builtIn
  have hooks : field.ActsBy frame.slot frame.supplied frame.provider actions := by
    refine (acts frame.slot).congr rfl rfl ?_
    rw [arguments]
    rfl
  have hooks' : field'.ActsBy frame'.slot frame'.supplied frame'.provider actions := by
    rw [← supplied, ← provider]
    refine (acts frame'.slot).congr name extensions ?_
    rw [arguments, arguments']
    rfl
  obtain ⟨before, onScalar, cuts⟩ := fits.acts.unique hooks
  obtain ⟨before', onScalar', cuts'⟩ := fits'.acts.unique hooks'
  exact ⟨before.trans before'.symm, onScalar.trans onScalar'.symm, cuts.trans cuts'.symm⟩

namespace Field.Selects

variable {definition : FieldDefinition} {plain : ArgumentSet} {slot slot' : Placeholder}
  {field field' : Field}

/-- Such fields are of the same kind: neither is a spread, and either both select members, of
    the same kind of value, or neither does. -/
theorem kinds (selects : field.Selects definition plain slot)
    (selects' : field'.Selects definition plain slot') :
    (∀ fragment, field.kind ≠ .spread fragment ∧ field'.kind ≠ .spread fragment) ∧
      field.element?.isSome = field'.element?.isSome ∧
      SelectionTree.selectsList field = SelectionTree.selectsList field' := by
  obtain ⟨supply, parent?, children, -, made⟩ := selects
  obtain ⟨supply', parent?', children', -, made'⟩ := selects'
  have plainKind := (SelectionTree.drawKind_plain definition.name definition.shape
    (definition.resolve (.read field.context) (plain.readVariablesFrom slot) supply).2).1
  have plainKind' := (SelectionTree.drawKind_plain definition.name definition.shape
    (definition.resolve (.read field'.context) (plain.readVariablesFrom slot') supply').2).1
  rw [made, made']
  refine ⟨fun fragment => ⟨plainKind fragment, plainKind' fragment⟩, ?_⟩
  simp only [SelectionTree.drawSelected, Drawing.run_bind, Drawing.run_pure, Field.element?,
    SelectionTree.selectsList]
  cases definition.shape <;> exact ⟨rfl, rfl⟩

/-- Fields that select a parametric definition with built-in extensions are not told apart.

    Proof: their expressions are the same up to their contexts and variables, which have the
    same values in both frames, and their hooks act in one way wherever the variables are read
    from. -/
theorem seesAlike {frame frame' : Frame} (selects : field.Selects definition plain frame.slot)
    (selects' : field'.Selects definition plain frame'.slot)
    (parametric : definition.Parametric frame.slot frame'.slot)
    (fits : frame.Fits field) (fits' : frame'.Fits field')
    (builtIn : ∀ extension ∈ field.extensions, extension.BuiltIn)
    (supplied : frame.supplied = frame'.supplied) (provider : frame.provider = frame'.provider) :
    frame.SeesAlike frame' field field' := by
  obtain ⟨supply, parent?, children, drawn, made⟩ := selects
  obtain ⟨supply', parent?', children', drawn', made'⟩ := selects'
  have expr : field.expr = (definition.resolve (.read field.context)
      (plain.readVariablesFrom frame.slot) supply).1 := by rw [made]; rfl
  have expr' : field'.expr = (definition.resolve (.read field'.context)
      (plain.readVariablesFrom frame'.slot) supply').1 := by rw [made']; rfl
  have renamed : Expr.Renamed [(field.context.number, field'.context.number),
      (frame.slot.number, frame'.slot.number)] field.expr field'.expr := by
    rw [expr, expr']
    exact parametric.alike _ _ plain _ _ drawn drawn'
  have name : field.name = field'.name := by rw [made, made']; rfl
  have extensions : field.extensions = field'.extensions := by rw [made, made']; rfl
  have arguments : field.arguments = plain.readVariablesFrom frame.slot := by rw [made]; rfl
  have arguments' : field'.arguments = plain.readVariablesFrom frame'.slot := by rw [made']; rfl
  obtain ⟨before, onScalar, cuts⟩ := Frame.actions_alike fits fits' builtIn name extensions
    arguments arguments' supplied provider
  exact
    { name
      callsService := by
        rw [Field.callsService_eq, Field.callsService_eq, renamed.hasServices]
      valueOf := Frame.valueOf_eq_of_renamed renamed fits fits' supplied provider
      before
      onScalar
      cuts }

end Field.Selects

end StagedQuery
