import StagedQuery.Mutation.Declaration
import StagedQuery.Proofs.Argument.Structure
import StagedQuery.Proofs.Members

/-!
# What building mutations registers

A declaration is checked before anything is registered. Then its exposed fields are taken one
by one, and each registers the input object types that it mentions, unless their names are
taken. A name may be taken by a type whose own fields are still being registered: such a type is
not met again below itself, since a type of its name would mention fewer types than itself.

So the registry only grows, and if types of one name are equal, then after each build it has every
type that an exposed field mentions and every type that a registered type mentions.
-/

namespace StagedQuery

/-! ## Mentioned types -/

namespace ArgumentType

mutual

/-- The input object types that a type mentions, through lists and fields at every depth. -/
def mentions : ArgumentType → List InputShape
  | .scalar _ _ => []
  | .enumeration _ _ _ => []
  | .input name fields _ => ⟨name, fields⟩ :: mentionsBelow fields
  | .list item _ => item.mentions

/-- The input object types that some fields mention. -/
def mentionsBelow : List (InputField ArgumentType) → List InputShape
  | [] => []
  | ⟨_, _, type⟩ :: rest => type.mentions ++ mentionsBelow rest

end

/-- Fields mention what the types of the fields mention. -/
theorem mem_mentionsBelow {shape : InputShape} {fields : List (InputField ArgumentType)} :
    shape ∈ mentionsBelow fields ↔ ∃ field ∈ fields, shape ∈ field.type.mentions := by
  induction fields with
  | nil => simp [mentionsBelow]
  | cons first rest ih => simp [mentionsBelow, ih]

/-- What the type of one field mentions is mentioned by all fields, in its order. -/
theorem sublist_mentionsBelow {field : InputField ArgumentType}
    {fields : List (InputField ArgumentType)} (inside : field ∈ fields) :
    field.type.mentions.Sublist (mentionsBelow fields) := by
  induction fields with
  | nil => cases inside
  | cons first rest ih =>
    rcases List.mem_cons.mp inside with rfl | later
    · exact List.sublist_append_left _ _
    · exact (ih later).trans (List.sublist_append_right _ _)

end ArgumentType

/-- The input object types that an input object type mentions, without itself. -/
def InputShape.mentions (shape : InputShape) : List InputShape :=
  ArgumentType.mentionsBelow shape.fields

/-- Their names. -/
def InputShape.mentionedNames (shape : InputShape) : List String :=
  shape.mentions.map InputShape.name

/-- What a mentioned type mentions is mentioned behind it. -/
theorem ArgumentType.mentions_of_mem {type : ArgumentType} {shape : InputShape}
    (inside : shape ∈ type.mentions) : (shape :: shape.mentions).Sublist type.mentions := by
  induction type using ArgumentType.induction with
  | scalar | enumeration => cases inside
  | input name fields presence each =>
    rcases List.mem_cons.mp inside with rfl | deeper
    · exact List.Sublist.refl _
    · obtain ⟨field, listed, found⟩ := mem_mentionsBelow.mp deeper
      exact ((each field listed found).trans (sublist_mentionsBelow listed)).cons _
  | list item presence ih => exact ih inside

/-- What a mentioned type mentions is mentioned behind it among the types of some fields. -/
theorem ArgumentType.mentionsBelow_of_mem {fields : List (InputField ArgumentType)}
    {shape : InputShape} (inside : shape ∈ mentionsBelow fields) :
    (shape :: shape.mentions).Sublist (mentionsBelow fields) := by
  obtain ⟨field, listed, found⟩ := mem_mentionsBelow.mp inside
  exact (mentions_of_mem found).trans (sublist_mentionsBelow listed)

/-- A type mentions more types than any type that it mentions. -/
theorem InputShape.length_mentionedNames_lt {shape inner : InputShape}
    (inside : inner ∈ shape.mentions) :
    inner.mentionedNames.length < shape.mentionedNames.length := by
  have fewer := (ArgumentType.mentionsBelow_of_mem inside).length_le
  rw [mentionedNames, mentionedNames, List.length_map, List.length_map]
  exact fewer

namespace InputTypes

open ArgumentType

variable {before middle after registry : InputTypes} {shapes more : List InputShape}
  {known : InputShape → Prop}

/-! ## Growth -/

/-- An added type is found under its name; what is found under other names stays. -/
theorem type?_add (registry : InputTypes) (shape : InputShape) (name : String) :
    (registry.add shape).type? name =
      if shape.name = name then some shape else registry.type? name := by
  unfold type? add
  split
  · rename_i same
    rw [← same, Members.value?_put_self]
  · rename_i different
    exact Members.value?_put_of_ne _ _ (Ne.symm different)

/-- A name is taken exactly if there is a type under it. -/
theorem has_iff {name : String} : registry.has name = true ↔
    ∃ shape, registry.type? name = some shape :=
  Option.isSome_iff_exists

/-- A registry has grown by some of the listed types: it holds what it held before, and what it
    holds beside is one of these types under its name. -/
structure Grown (shapes : List InputShape) (before after : InputTypes) : Prop where
  keeps : ∀ name shape, before.type? name = some shape → after.type? name = some shape
  origin : ∀ name shape, after.type? name = some shape →
    before.type? name = some shape ∨ shape ∈ shapes ∧ shape.name = name

/-- A registry has grown from itself by nothing. -/
theorem Grown.refl (shapes : List InputShape) (registry : InputTypes) :
    Grown shapes registry registry :=
  ⟨fun _ _ => id, fun _ _ => .inl⟩

/-- Growth by types of one list adds up. -/
theorem Grown.trans (first : Grown shapes before middle) (second : Grown shapes middle after) :
    Grown shapes before after where
  keeps name shape held := second.keeps name shape (first.keeps name shape held)
  origin name shape held := by
    rcases second.origin name shape held with earlier | new
    · exact first.origin name shape earlier
    · exact .inr new

/-- Growth by some types is growth by more types. -/
theorem Grown.mono (grown : Grown shapes before after) (wider : shapes ⊆ more) :
    Grown more before after where
  keeps := grown.keeps
  origin name shape held := (grown.origin name shape held).imp_right (.imp_left (wider ·))

/-- A taken name stays taken when a registry grows. -/
theorem Grown.has (grown : Grown shapes before after) {name : String}
    (taken : before.has name = true) : after.has name = true := by
  obtain ⟨shape, held⟩ := has_iff.mp taken
  exact has_iff.mpr ⟨shape, grown.keeps name shape held⟩

/-- A type whose name is new is added to what is there. -/
theorem grown_add {shape : InputShape} (fresh : registry.has shape.name ≠ true) :
    Grown [shape] registry (registry.add shape) := by
  constructor
  · intro name other held
    rw [type?_add, if_neg, held]
    rintro rfl
    exact fresh (has_iff.mpr ⟨other, held⟩)
  · intro name other held
    rw [type?_add] at held
    split at held
    · rename_i same
      cases held
      exact .inr ⟨List.mem_singleton_self _, same⟩
    · exact .inl held

/-- Fields are registered one by one. -/
theorem registerFields_cons (registry : InputTypes) (field : InputField ArgumentType)
    (rest : List (InputField ArgumentType)) :
    registry.registerFields (field :: rest) = (registry.register field.type).registerFields rest :=
  rfl

/-- Fields grow a registry by the types that they mention, if each of them does. -/
theorem grown_registerFields_of_each {fields : List (InputField ArgumentType)}
    (each : ∀ field ∈ fields, ∀ registry : InputTypes,
      Grown field.type.mentions registry (registry.register field.type))
    (registry : InputTypes) :
    Grown (mentionsBelow fields) registry (registry.registerFields fields) := by
  induction fields generalizing registry with
  | nil => exact .refl _ _
  | cons first rest ih =>
    have head := each first (by simp) registry
    have tail := ih (fun field inside => each field (by simp [inside]))
      (registry.register first.type)
    rw [registerFields_cons]
    exact (head.mono (List.subset_append_left _ _)).trans
      (tail.mono (List.subset_append_right _ _))

/-- Registering a type takes nothing away, and adds types that it mentions. -/
theorem grown_register (type : ArgumentType) (registry : InputTypes) :
    Grown type.mentions registry (registry.register type) := by
  induction type using ArgumentType.induction generalizing registry with
  | scalar | enumeration => exact .refl _ _
  | input name fields presence each =>
    simp only [register]
    split
    · exact .refl _ _
    · rename_i fresh
      have own : Grown [⟨name, fields⟩] registry (registry.add ⟨name, fields⟩) := grown_add fresh
      exact (own.mono (by simp [mentions])).trans
        ((grown_registerFields_of_each each _).mono (List.subset_cons_self _ _))
  | list item presence ih => exact ih registry

/-- Fields take nothing away from a registry, and add types that they mention. -/
theorem grown_registerFields (registry : InputTypes) (fields : List (InputField ArgumentType)) :
    Grown (mentionsBelow fields) registry (registry.registerFields fields) :=
  grown_registerFields_of_each (fun field _ => grown_register field.type) registry

/-! ## Coverage -/

/-- The names of the listed types are taken. -/
def Covers (registry : InputTypes) (shapes : List InputShape) : Prop :=
  ∀ shape ∈ shapes, registry.has shape.name = true

/-- Of the listed types, those whose names are taken have everything registered that they
    mention. -/
def Finished (registry : InputTypes) (shapes : List InputShape) : Prop :=
  ∀ shape ∈ shapes, registry.has shape.name = true → registry.Covers shape.mentions

/-- Types of one name mention types of the same names. -/
def Consistent (known : InputShape → Prop) : Prop :=
  ∀ shape other, known shape → known other → shape.name = other.name →
    shape.mentionedNames = other.mentionedNames

/-- What is covered stays covered when a registry grows. -/
theorem Covers.grown (covers : before.Covers shapes) (grown : Grown more before after) :
    after.Covers shapes :=
  fun shape inside => grown.has (covers shape inside)

/-- Whether the mentioned types are covered goes by their names. -/
theorem covers_congr {shape other : InputShape} (same : shape.mentionedNames = other.mentionedNames)
    (covers : registry.Covers other.mentions) : registry.Covers shape.mentions := by
  intro inner inside
  have named : inner.name ∈ other.mentionedNames := same ▸ List.mem_map_of_mem inside
  obtain ⟨counterpart, listed, equal⟩ := List.mem_map.mp named
  exact equal ▸ covers counterpart listed

/-- What was finished stays finished where a registry has grown by types that are covered. -/
theorem Finished.grown (consistent : Consistent known) (finished : before.Finished shapes)
    (grown : Grown more before after) (covered : ∀ shape ∈ more, after.Covers shape.mentions)
    (each : ∀ shape ∈ shapes, known shape) (eachToo : ∀ shape ∈ more, known shape) :
    after.Finished shapes := by
  intro shape inside taken
  obtain ⟨held, there⟩ := has_iff.mp taken
  rcases grown.origin shape.name held there with earlier | ⟨added, named⟩
  · exact (finished shape inside (has_iff.mpr ⟨held, earlier⟩)).grown grown
  · exact covers_congr (consistent shape held (each shape inside) (eachToo held added) named.symm)
      (covered held added)

/-- Fields register the types that they mention, if each of them does. -/
theorem covers_registerFields_of_each (consistent : Consistent known)
    {fields : List (InputField ArgumentType)}
    (each : ∀ field ∈ fields, ∀ registry : InputTypes, registry.Finished field.type.mentions →
      (registry.register field.type).Covers field.type.mentions)
    (all : ∀ shape ∈ mentionsBelow fields, known shape) (registry : InputTypes)
    (finished : registry.Finished (mentionsBelow fields)) :
    (registry.registerFields fields).Covers (mentionsBelow fields) := by
  induction fields generalizing registry with
  | nil => exact fun shape inside => nomatch inside
  | cons first rest ih =>
    obtain ⟨allFirst, allRest⟩ := List.forall_mem_append.mp all
    have covered := each first (by simp) registry fun shape inside =>
      finished shape (List.mem_append_left _ inside)
    have stillFinished : (registry.register first.type).Finished (mentionsBelow rest) := by
      refine Finished.grown consistent
        (fun shape inside => finished shape (List.mem_append_right _ inside))
        (grown_register first.type registry) ?_ allRest allFirst
      intro shape inside inner deeper
      exact covered inner ((mentions_of_mem inside).subset (List.mem_cons_of_mem _ deeper))
    rw [registerFields_cons]
    intro shape inside
    rcases List.mem_append.mp inside with own | later
    · exact (grown_registerFields _ rest).has (covered shape own)
    · exact ih (fun field listed => each field (by simp [listed])) allRest _ stillFinished shape
        later

/-- Registering a type registers every type that it mentions, provided that the registry has
    nothing unfinished among these.

    Proof: induction on the type. Below a type that was added, no type of its name is met: it
    would mention types of the same names, and so as many as the type itself. -/
theorem covers_register (consistent : Consistent known) (type : ArgumentType)
    (all : ∀ shape ∈ type.mentions, known shape) (registry : InputTypes)
    (finished : registry.Finished type.mentions) :
    (registry.register type).Covers type.mentions := by
  induction type using ArgumentType.induction generalizing registry with
  | scalar | enumeration => exact fun shape inside => nomatch inside
  | input name fields presence each =>
    simp only [mentions, List.forall_mem_cons] at all
    obtain ⟨own, allBelow⟩ := all
    simp only [register]
    split
    · rename_i taken
      exact List.forall_mem_cons.mpr ⟨taken, finished _ List.mem_cons_self taken⟩
    · rename_i fresh
      have added : Grown [⟨name, fields⟩] registry (registry.add ⟨name, fields⟩) := grown_add fresh
      have named : (registry.add ⟨name, fields⟩).has name = true :=
        has_iff.mpr ⟨_, by rw [type?_add, if_pos rfl]⟩
      have stillFinished : (registry.add ⟨name, fields⟩).Finished (mentionsBelow fields) := by
        intro shape inside taken
        obtain ⟨held, there⟩ := has_iff.mp taken
        rcases added.origin shape.name held there with earlier | ⟨new, same⟩
        · exact (finished shape (List.mem_cons_of_mem _ inside)
            (has_iff.mpr ⟨held, earlier⟩)).grown added
        · rw [List.mem_singleton.mp new] at same
          have fewer := @InputShape.length_mentionedNames_lt ⟨name, fields⟩ shape inside
          rw [consistent shape ⟨name, fields⟩ (allBelow shape inside) own same.symm] at fewer
          exact absurd fewer (Nat.lt_irrefl _)
      have below := covers_registerFields_of_each consistent
        (fun field listed registry => each field listed
          (fun shape found => allBelow shape (mem_mentionsBelow.mpr ⟨field, listed, found⟩))
          registry)
        allBelow _ stillFinished
      exact List.forall_mem_cons.mpr ⟨(grown_registerFields _ fields).has named, below⟩
  | list item presence ih => exact ih all registry finished

/-- Registering fields registers every type that they mention, provided that the registry has
    nothing unfinished among these. -/
theorem covers_registerFields (consistent : Consistent known)
    {fields : List (InputField ArgumentType)} (all : ∀ shape ∈ mentionsBelow fields, known shape)
    (registry : InputTypes) (finished : registry.Finished (mentionsBelow fields)) :
    (registry.registerFields fields).Covers (mentionsBelow fields) :=
  covers_registerFields_of_each consistent
    (fun field listed => covers_register consistent field.type fun shape found =>
      all shape (mem_mentionsBelow.mpr ⟨field, listed, found⟩))
    all registry finished

end InputTypes

/-! ## Builds -/

namespace MutationDeclaration

/-- An exposed field becomes an argument. If the input types are to be registered, those that
    the field mentions are, in a registry that is kept whatever happens afterwards. -/
def expose (schemaName : String → String) (registering : Bool) (field : InputField ArgumentType) :
    ExceptT CompileFault (StateM InputTypes) Binding := do
  if registering then modify (·.register field.type)
  pure ⟨schemaName field.member, field.member, field.type⟩

/-- The construction of a mutation step by step: the checks, then the exposed fields in order. A
    refusal undoes nothing. -/
def construct (declaration : MutationDeclaration) (schemaName : String → String)
    (registering : Bool) : ExceptT CompileFault (StateM InputTypes) Mutation := do
  match declaration.objection? with
  | some reason => throw (.invalidMutation declaration.name reason)
  | none =>
    let bindings ← declaration.exposedFields.mapM (expose schemaName registering)
    pure
      { name := declaration.name
        description? := declaration.description?
        deprecation? := declaration.deprecation?
        returns := declaration.returns
        parameters := declaration.parameters
        hasArguments := declaration.arguments?.isSome
        bindings := bindings
        validators := declaration.validators
        procedure := declaration.procedure
        instance? := declaration.instance?
        defaultInstance? := declaration.defaultInstance? }

/-- A step that succeeds hands its value and its state on to the rest. -/
theorem run_bind_of_ok {ε σ α β : Type} {first : ExceptT ε (StateM σ) α}
    {next : α → ExceptT ε (StateM σ) β} {state state' : σ} {value : α}
    (done : first.run.run state = (.ok value, state')) :
    (first >>= next).run.run state = (next value).run.run state' := by
  rw [ExceptT.run_bind, StateT.run_bind, done]
  rfl

/-- Exposing a field never fails. It registers the type of the field if input types are to be
    registered. -/
theorem run_expose (schemaName : String → String) (registering : Bool)
    (field : InputField ArgumentType) (registry : InputTypes) :
    (expose schemaName registering field).run.run registry =
      (.ok ⟨schemaName field.member, field.member, field.type⟩,
        if registering then registry.register field.type else registry) := by
  cases registering <;> rfl

/-- The fields are exposed one by one, and the registry passes from each to the next. -/
theorem run_exposeAll (schemaName : String → String) (registering : Bool)
    (fields : List (InputField ArgumentType)) (registry : InputTypes) :
    (fields.mapM (expose schemaName registering)).run.run registry =
      (.ok (fields.map fun field => ⟨schemaName field.member, field.member, field.type⟩),
        if registering then registry.registerFields fields else registry) := by
  induction fields generalizing registry with
  | nil => cases registering <;> rfl
  | cons field rest ih =>
    rw [List.mapM_cons, run_bind_of_ok (run_expose schemaName registering field registry),
      run_bind_of_ok (ih _)]
    cases registering <;> rfl

/-- A refused declaration leaves the registry as it was. Any other one leads to the mutation and
    the registry that the declaration is built to. -/
theorem run_construct (declaration : MutationDeclaration) (schemaName : String → String)
    (registering : Bool) (registry : InputTypes) :
    (declaration.construct schemaName registering).run.run registry =
      match declaration.build registry schemaName registering with
      | .ok (mutation, registered) => (.ok mutation, registered)
      | .error fault => (.error fault, registry) := by
  unfold construct build
  cases declaration.objection? with
  | some reason => rfl
  | none => exact run_bind_of_ok (run_exposeAll schemaName registering _ registry)

end MutationDeclaration

/-- A declaration to be built: how its arguments are named, and whether the input types that they
    mention are registered. -/
structure Construction where
  declaration : MutationDeclaration
  schemaName : String → String
  registering : Bool

namespace Construction

/-- The result of a construction and the registry that it leaves behind. -/
def run (construction : Construction) (registry : InputTypes) :
    Except CompileFault Mutation × InputTypes :=
  (construction.declaration.construct construction.schemaName construction.registering).run.run
    registry

/-- The input object types that the exposed fields of a construction mention. -/
def mentions (construction : Construction) : List InputShape :=
  ArgumentType.mentionsBelow construction.declaration.exposedFields

/-- A declaration is built to the result of its construction and the registry left behind. -/
theorem build_eq (construction : Construction) (registry : InputTypes) :
    construction.declaration.build registry construction.schemaName construction.registering =
      (construction.run registry).1.map (·, (construction.run registry).2) := by
  unfold run
  rw [MutationDeclaration.run_construct]
  cases construction.declaration.build registry construction.schemaName construction.registering
    <;> rfl

/-- A construction is refused and leaves the registry as it was, or it leads to a mutation and
    the exposed fields are registered if they are to be. -/
theorem run_cases (construction : Construction) (registry : InputTypes) :
    (∃ fault, construction.run registry = (.error fault, registry)) ∨
      ∃ mutation, construction.run registry = (.ok mutation,
        if construction.registering then
          registry.registerFields construction.declaration.exposedFields
        else registry) := by
  unfold run
  rw [MutationDeclaration.run_construct]
  unfold MutationDeclaration.build
  cases construction.declaration.objection? with
  | some reason => exact .inl ⟨_, rfl⟩
  | none => exact .inr ⟨_, rfl⟩

variable {construction : Construction} {registry : InputTypes}

/-- A refused construction leaves the registry as it was. -/
theorem unchanged_of_refused {fault : CompileFault}
    (refused : (construction.run registry).1 = .error fault) :
    (construction.run registry).2 = registry := by
  rcases construction.run_cases registry with ⟨other, whole⟩ | ⟨mutation, whole⟩
  · exact congrArg Prod.snd whole
  · cases refused.symm.trans (congrArg Prod.fst whole)

/-- A construction that does not register input types leaves the registry as it was. -/
theorem unchanged_of_not_registering (quiet : construction.registering = false) :
    (construction.run registry).2 = registry := by
  rcases construction.run_cases registry with ⟨other, whole⟩ | ⟨mutation, whole⟩
  · exact congrArg Prod.snd whole
  · simpa [quiet] using congrArg Prod.snd whole

/-- A construction that leads to a mutation and registers input types has registered those of its
    exposed fields. -/
theorem registers_of_built {mutation : Mutation}
    (built : (construction.run registry).1 = .ok mutation)
    (registering : construction.registering = true) :
    (construction.run registry).2 =
      registry.registerFields construction.declaration.exposedFields := by
  rcases construction.run_cases registry with ⟨other, whole⟩ | ⟨mutation, whole⟩
  · cases built.symm.trans (congrArg Prod.fst whole)
  · simpa [registering] using congrArg Prod.snd whole

end Construction

namespace InputTypes

open ArgumentType

variable {registry : InputTypes} {known : InputShape → Prop}

/-- The registry that constructions leave behind that run one after the other. -/
def after (registry : InputTypes) (constructions : List Construction) : InputTypes :=
  constructions.foldl (fun registry construction => (construction.run registry).2) registry

/-- A registry between two constructions: it has types of a certain kind under their names, and
    with each of them everything that the type mentions. -/
structure Settled (known : InputShape → Prop) (registry : InputTypes) : Prop where
  known : ∀ name shape, registry.type? name = some shape → known shape ∧ shape.name = name
  closed : ∀ name shape, registry.type? name = some shape → registry.Covers shape.mentions

/-- An empty registry is settled. -/
theorem settled_empty (known : InputShape → Prop) : empty.Settled known := by
  constructor
  · intro name shape held
    cases held
  · intro name shape held
    cases held

/-- Nothing is unfinished in a settled registry. -/
theorem Settled.finished (settled : registry.Settled known) (consistent : Consistent known)
    {shapes : List InputShape} (all : ∀ shape ∈ shapes, known shape) :
    registry.Finished shapes := by
  intro shape inside taken
  obtain ⟨held, there⟩ := has_iff.mp taken
  obtain ⟨heldKnown, named⟩ := settled.known shape.name held there
  exact covers_congr (consistent shape held (all shape inside) heldKnown named.symm)
    (settled.closed shape.name held there)

/-- A settled registry is settled again when fields have been registered. -/
theorem Settled.registerFields (settled : registry.Settled known) (consistent : Consistent known)
    {fields : List (InputField ArgumentType)} (all : ∀ shape ∈ mentionsBelow fields, known shape) :
    (registry.registerFields fields).Settled known := by
  have grown := grown_registerFields registry fields
  have covered := covers_registerFields consistent all registry (settled.finished consistent all)
  constructor
  · intro name shape held
    rcases grown.origin name shape held with earlier | ⟨added, named⟩
    · exact settled.known name shape earlier
    · exact ⟨all shape added, named⟩
  · intro name shape held
    rcases grown.origin name shape held with earlier | ⟨added, named⟩
    · exact (settled.closed name shape earlier).grown grown
    · intro inner inside
      exact covered inner ((mentionsBelow_of_mem added).subset (List.mem_cons_of_mem _ inside))

/-- One construction leaves a settled registry settled. -/
theorem Settled.run (settled : registry.Settled known) (consistent : Consistent known)
    {construction : Construction} (all : ∀ shape ∈ construction.mentions, known shape) :
    (construction.run registry).2.Settled known := by
  rcases construction.run_cases registry with ⟨fault, refused⟩ | ⟨mutation, built⟩
  · rwa [refused]
  · rw [built]
    simp only
    split
    · exact settled.registerFields consistent all
    · exact settled

/-- So do constructions that run one after the other. -/
theorem Settled.after (settled : registry.Settled known) (consistent : Consistent known)
    {constructions : List Construction}
    (all : ∀ construction ∈ constructions, ∀ shape ∈ construction.mentions, known shape) :
    (registry.after constructions).Settled known := by
  induction constructions generalizing registry with
  | nil => exact settled
  | cons construction rest ih =>
    obtain ⟨own, others⟩ := List.forall_mem_cons.mp all
    exact ih (settled.run consistent own) others

/-- A type is registered under its name, as an equal type. -/
def Registers (equal : InputShape → InputShape → Prop) (registry : InputTypes)
    (shape : InputShape) : Prop :=
  ∃ held, registry.type? shape.name = some held ∧ equal held shape

/-- In a settled registry a known type whose name is taken is registered as an equal type. -/
theorem Settled.registers {equal : InputShape → InputShape → Prop}
    (settled : registry.Settled known)
    (same : ∀ shape other, known shape → known other → shape.name = other.name → equal shape other)
    {shape : InputShape} (own : known shape) (taken : registry.has shape.name = true) :
    registry.Registers equal shape := by
  obtain ⟨held, there⟩ := has_iff.mp taken
  obtain ⟨heldKnown, named⟩ := settled.known shape.name held there
  exact ⟨held, there, same held shape heldKnown own named⟩

/-- Constructions run one after the other on a registry that is empty at first, and types of one
    name that their exposed fields mention are equal, in a sense in which equal types mention
    types of the same names. A construction that is refused leaves the registry as it was, and so
    does one that registers nothing. Any other one keeps every registered type and registers each
    type that a field of its arguments mentions at any depth, unless the field is ignored. Each
    type that a registered type mentions is registered, too. -/
theorem registration_closed {equal : InputShape → InputShape → Prop}
    (names : ∀ shape other, equal shape other → shape.mentionedNames = other.mentionedNames)
    (earlier : List Construction) (construction : Construction)
    (consistent : ∀ first ∈ construction :: earlier, ∀ second ∈ construction :: earlier,
      ∀ shape ∈ first.mentions, ∀ other ∈ second.mentions, shape.name = other.name →
        equal shape other) :
    let before := empty.after earlier
    let result := (construction.run before).1
    let after := (construction.run before).2
    construction.declaration.build before construction.schemaName construction.registering =
        result.map (·, after) ∧
    (∀ fault, result = .error fault → after = before) ∧
    (construction.registering = false → after = before) ∧
    (∀ mutation, result = .ok mutation → construction.registering = true →
      (∀ name shape, before.type? name = some shape → after.type? name = some shape) ∧
      ∀ arguments, construction.declaration.arguments? = some arguments →
        ∀ field ∈ arguments.fields, field.member ∉ construction.declaration.ignored →
          ∀ shape ∈ field.type.mentions, after.Registers equal shape) ∧
    ∀ name held, after.type? name = some held →
      ∀ shape ∈ held.mentions, after.Registers equal shape := by
  intro before result after
  let known (shape : InputShape) : Prop := ∃ one ∈ construction :: earlier, shape ∈ one.mentions
  have same (shape other : InputShape) (own : known shape) (ownToo : known other)
      (named : shape.name = other.name) : equal shape other := by
    obtain ⟨first, listed, inside⟩ := own
    obtain ⟨second, listedToo, insideToo⟩ := ownToo
    exact consistent first listed second listedToo shape inside other insideToo named
  have agree : Consistent known := fun shape other own ownToo named =>
    names shape other (same shape other own ownToo named)
  have settledBefore : before.Settled known :=
    (settled_empty known).after agree fun one listed shape inside =>
      ⟨one, List.mem_cons_of_mem _ listed, inside⟩
  have exposed : ∀ shape ∈ construction.mentions, known shape := fun shape inside =>
    ⟨construction, List.mem_cons_self, inside⟩
  have settledAfter : after.Settled known := settledBefore.run agree exposed
  refine ⟨construction.build_eq before, fun _ => Construction.unchanged_of_refused,
    Construction.unchanged_of_not_registering, ?_, ?_⟩
  · intro mutation built registering
    have registered : after = before.registerFields construction.declaration.exposedFields :=
      Construction.registers_of_built built registering
    refine ⟨registered ▸ (grown_registerFields before _).keeps, ?_⟩
    intro arguments declared field listed wanted shape inside
    have shown : field ∈ construction.declaration.exposedFields := by
      simp [MutationDeclaration.exposedFields, declared, listed, wanted]
    have mentioned : shape ∈ construction.mentions := mem_mentionsBelow.mpr ⟨field, shown, inside⟩
    have covered := covers_registerFields agree exposed before
      (settledBefore.finished agree exposed) shape mentioned
    exact settledAfter.registers same (exposed shape mentioned) (registered ▸ covered)
  · intro name held there shape inside
    obtain ⟨one, listed, found⟩ := (settledAfter.known name held there).1
    have own : known shape :=
      ⟨one, listed, (mentionsBelow_of_mem found).subset (List.mem_cons_of_mem _ inside)⟩
    exact settledAfter.registers same own (settledAfter.closed name held there shape inside)

end InputTypes

namespace Construction

/-- An input object type of persons. -/
def personInput : InputShape :=
  ⟨"PersonInput", [⟨"name", "name", .scalar .string ArgumentType.optional⟩]⟩

/-- An input object type of roles, each with the person who plays it. -/
def roleInput : InputShape :=
  ⟨"RoleInput", [⟨"actor", "actor", .input personInput.name personInput.fields ⟨true, none⟩⟩]⟩

/-- A construction of a mutation whose arguments are some fields. The internal note is ignored. -/
def ofFields (parameters : List Parameter) (fields : List (InputField ArgumentType)) :
    Construction where
  declaration :=
    { name := "addFilm"
      procedure := ⟨⟨"Films"⟩, false, fun _ _ => ⟨.ok .null, []⟩⟩
      parameters := parameters
      arguments? := some ⟨"FilmArguments", fields⟩
      ignored := ["note"] }
  schemaName := id
  registering := true

/-- A person is registered with a first mutation, and a second one is refused since none of its
    parameters receives arguments. A third one then registers the roles, to which persons belong,
    and leaves out what only an ignored field mentions. -/
theorem registration_closed_roles :
    let person := .input personInput.name personInput.fields ArgumentType.optional
    let role := .input roleInput.name roleInput.fields ArgumentType.optional
    let first := ofFields [.arguments] [⟨"director", "director", person⟩]
    let refused := ofFields [] [⟨"cast", "cast", .list role ArgumentType.optional⟩]
    let construction := ofFields [.arguments]
      [⟨"cast", "cast", .list role ArgumentType.optional⟩, ⟨"director", "director", person⟩,
        ⟨"note", "note", .input "NoteInput" [] ArgumentType.optional⟩]
    let before := InputTypes.empty.after [first, refused]
    let after := (construction.run before).2
    before = InputTypes.empty.after [first] ∧
    before.types.names = ["PersonInput"] ∧ after.types.names = ["PersonInput", "RoleInput"] ∧
    after.Registers Eq roleInput ∧ after.Registers Eq personInput := by
  intro person role first refused construction before after
  have among : ∀ one ∈ [construction, first, refused], ∀ shape ∈ one.mentions,
      shape = roleInput ∨ shape = personInput := by
    simp [construction, first, refused, person, role, ofFields, mentions, roleInput, personInput,
      MutationDeclaration.exposedFields, ArgumentType.mentions, ArgumentType.mentionsBelow]
  have closed := @InputTypes.registration_closed Eq (by rintro shape _ rfl; rfl)
    [first, refused] construction (by
      intro one listed another listedToo shape inside other insideToo named
      rcases among one listed shape inside with rfl | rfl <;>
        rcases among another listedToo other insideToo with rfl | rfl
      · rfl
      · exact absurd named (by decide)
      · exact absurd named (by decide)
      · rfl)
  obtain ⟨-, -, -, registers, inner⟩ := closed
  obtain ⟨-, exposed⟩ := registers _ rfl rfl
  have registered : after.Registers Eq roleInput :=
    exposed _ rfl ⟨"cast", "cast", .list role ArgumentType.optional⟩ (by simp) (by decide) roleInput
      (by simp [role, roleInput, ArgumentType.mentions])
  obtain ⟨held, there, rfl⟩ := registered
  refine ⟨rfl, by decide, by decide, ⟨_, there, rfl⟩, inner _ _ there personInput ?_⟩
  simp [InputShape.mentions, roleInput, personInput, ArgumentType.mentions,
    ArgumentType.mentionsBelow]

end Construction

end StagedQuery
