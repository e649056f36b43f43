import StagedQuery.Proofs.Selection.Hollow

/-!
# Two stages refine one full pass

The query fields of a tree suit a frame over the root placeholder, so a full pass over the
tree evaluates to their meaning. A compiled query of two stages refines that meaning: where
the full pass succeeds, the query yields the same value, unless its first stage fails. Where
the full pass succeeds, the first stage fails exactly if a hollow selection does on a value
that is reached: the full pass never looks at the source of such a selection.
-/

namespace StagedQuery

open Outcome

/-- The first stage of a query fails with a fault, and the query with it. -/
def Query.FirstFails (query : Query) (root supplied : Value) (provider : Provider)
    (fault : ExecutionFault) : Prop :=
  ∃ stage ∈ query.first.executable?,
    (stage.runWith root supplied provider).result = .error fault ∧
      (query.runWith root supplied provider).result = .error fault

namespace SelectionTree

variable {practice : Practice} {tree : SelectionTree} {supply : Nat}

/-- A tree as callers are expected to build it: nothing leads back to itself, no selection
    repeats a name after its spreads are expanded, no name begins as the names of chains
    do, and all extensions are built in. -/
structure Regular (tree : SelectionTree) : Prop where
  acyclic : tree.Acyclic
  distinct : ((Outline.expandedAll tree.queryOutlines).map Field.name).Nodup
  distinctBelow : Outline.DistinctBelow tree.queryOutlines
  fieldNames : ∀ address field, tree.field? address = some field → isReserved field.name = false
  memberNames : ∀ owner, tree.Owns owner → ∀ name, owner.shape.hasMember name = true →
    isReserved name = false
  builtIn : ∀ address field, tree.field? address = some field →
    ∀ extension ∈ field.extensions, extension.BuiltIn

/-- A tree that is regular but for its extensions, which may be any. -/
structure Orderly (tree : SelectionTree) : Prop where
  acyclic : tree.Acyclic
  distinct : ((Outline.expandedAll tree.queryOutlines).map Field.name).Nodup
  distinctBelow : Outline.DistinctBelow tree.queryOutlines
  fieldNames : ∀ address field, tree.field? address = some field → isReserved field.name = false
  memberNames : ∀ owner, tree.Owns owner → ∀ name, owner.shape.hasMember name = true →
    isReserved name = false

/-- With given variables and a provider, the hooks of each field act on values. -/
def HooksAct (tree : SelectionTree) (supplied : Value) (provider : Provider) : Prop :=
  ∀ address field, tree.field? address = some field →
    ∃ actions, field.ActsBy tree.variablesSlot supplied provider actions

/-- A regular tree is orderly. -/
theorem Regular.orderly (regular : tree.Regular) : tree.Orderly :=
  ⟨regular.acyclic, regular.distinct, regular.distinctBelow, regular.fieldNames,
    regular.memberNames⟩

/-- Built-in extensions add no service. -/
theorem Regular.hooksAddNoService (regular : tree.Regular) : tree.HooksAddNoService :=
  fun address field stored extension inside =>
    (regular.builtIn address field stored extension inside).addsNoService

/-- Built-in extensions act. -/
theorem Regular.hooksAct (regular : tree.Regular) (closed : tree.Sealed supply) (supplied : Value)
    (provider : Provider) : tree.HooksAct supplied provider := by
  intro address field stored
  obtain ⟨actions, acts, -⟩ := Field.exists_actsBy (regular.builtIn address field stored)
    (closed.fields address field stored).reads
  exact ⟨actions, acts⟩

/-! ## Outlines suit the frame of their tree -/

/-- A frame over the variables and the owners of a tree, which all its fields fit. -/
structure FramedBy (tree : SelectionTree) (frame : Frame) : Prop where
  slot : frame.slot = tree.variablesSlot
  owners : frame.owners = tree.Owns
  fits : ∀ address field, tree.field? address = some field → frame.Fits field

/-- The outlines of the query fields suit a frame of the tree over the root. -/
theorem suits_queryOutlines {frame : Frame} (placed : tree.Placed) (framed : tree.FramedBy frame)
    (orderly : tree.Orderly) :
    ∀ outline ∈ tree.queryOutlines, outline.Suits frame tree.root := by
  intro outline inside
  apply (writtenOver_queryOutlines placed orderly.acyclic outline inside).suits
  · intro field found
    obtain ⟨address, stored⟩ :=
      field_of_mem_queryOutlines (Outline.mem_allFields.mpr ⟨outline, inside, found⟩)
    exact framed.fits address field stored
  · exact Outline.distinctBelow_iff.mp orderly.distinctBelow outline inside

/-- The owners and the fields of an orderly tree with closed fields are a ground for frames. -/
theorem Orderly.ground (orderly : tree.Orderly) (closed : tree.Sealed supply) :
    Frame.Ground tree.variablesSlot tree.Owns
      (fun field => ∃ address, tree.field? address = some field) supply where
  drawn := closed.slot
  apart := fun owner owns => (closed.owners owner owns).2
  memberNames := orderly.memberNames
  fieldNames := fun field ⟨address, stored⟩ => orderly.fieldNames address field stored
  closed := fun field ⟨address, stored⟩ => closed.fields address field stored
  contexts := fun _ ⟨_, stored⟩ => .context stored
  elements := fun _ ⟨_, stored⟩ _ selects => .element stored selects

/-- An orderly tree with closed fields has a frame over any variables and any provider with
    which its hooks act. -/
theorem Orderly.exists_frame (orderly : tree.Orderly) (closed : tree.Sealed supply)
    {supplied : Value} {provider : Provider} (acts : tree.HooksAct supplied provider) :
    ∃ frame : Frame, frame.supplied = supplied ∧ frame.provider = provider ∧
      frame.supply = supply ∧ tree.FramedBy frame := by
  have each (field : Field) (known : ∃ address, tree.field? address = some field) :
      ∃ actions, field.ActsBy tree.variablesSlot supplied provider actions := by
    obtain ⟨address, stored⟩ := known
    exact acts address field stored
  obtain ⟨actions, acts, -⟩ := Frame.exists_actions each
  refine ⟨(orderly.ground closed).frame supplied provider actions, rfl, rfl, rfl, rfl, rfl, ?_⟩
  intro address field stored
  exact (orderly.ground closed).fits ⟨address, stored⟩ (acts field ⟨address, stored⟩)

/-- A regular tree with closed fields has a frame over any variables and any provider, in
    which a field without paging is not cut. -/
theorem Regular.exists_frame (regular : tree.Regular) (closed : tree.Sealed supply)
    (supplied : Value) (provider : Provider) :
    ∃ frame : Frame, frame.supplied = supplied ∧ frame.provider = provider ∧
      frame.supply = supply ∧ tree.FramedBy frame ∧
      ∀ field, ((∃ address, tree.field? address = some field) →
        ∀ extension ∈ field.extensions, ¬extension.Pages) → (frame.actions field).cuts = [] := by
  have basis : Frame.Basis tree.variablesSlot tree.Owns
      (fun field => ∃ address, tree.field? address = some field) supply :=
    ⟨regular.orderly.ground closed,
      fun field ⟨address, stored⟩ => regular.builtIn address field stored⟩
  obtain ⟨frame, slot, given, asked, owners, drawn, fits, uncut⟩ :=
    basis.exists_frame supplied provider
  exact ⟨frame, given, asked, drawn,
    ⟨slot, owners, fun address field stored => fits field ⟨address, stored⟩⟩, uncut⟩

/-! ## Stages -/

/-- The environment of a stage over a tree. -/
def stageEnvironment (tree : SelectionTree) (supplied : Value) (slot : Placeholder)
    (value : Value) : Environment :=
  [(tree.variablesSlot.number, supplied), (slot.number, value)]

/-- A full pass over the query fields, run over a root value with variables. -/
def runFull (tree : SelectionTree) (supply : Nat) (root supplied : Value) (provider : Provider) :
    Outcome Value :=
  ((Executable.ofExpr tree.root (tree.operationPass .full supply).1).withVariables
    tree.variablesSlot).runWith root supplied provider

/-- A pass is evaluated as the object of what the query fields contribute, of each name the
    first. -/
theorem evaluate_operationPass (tree : SelectionTree) (options : PassOptions) (supply : Nat)
    (provider : Provider) (env : Environment) :
    (tree.operationPass options supply).1.evaluate provider env =
      Expr.evaluateObject provider
        (Members.firsts (Outline.contributeAll options none tree.queryOutlines supply).1) env := by
  simp only [operationPass, Drawing.run_bind, Drawing.run_pure, Expr.evaluate,
    Expr.evaluateObject, map_eq_pure_bind]

section Frames

variable {frame : Frame} {root : Value}

/-- In the environment of a stage its placeholder and the variables have their values. -/
theorem gives_stageEnvironment (slot : frame.slot = tree.variablesSlot) {base : Placeholder}
    (apart : base.number ≠ frame.slot.number) (value : Value) :
    frame.Gives (tree.stageEnvironment frame.supplied base value) base value where
  base := by
    rw [slot] at apart
    simp [stageEnvironment, Environment.value?, Ne.symm apart]
  supplied := by simp [stageEnvironment, Environment.value?, slot]

/-- In the environment of a stage over the root, the root and the variables have theirs. -/
theorem gives_root (framed : tree.FramedBy frame) (root : Value) :
    frame.Gives (tree.stageEnvironment frame.supplied tree.root root) tree.root root :=
  gives_stageEnvironment framed.slot (frame.owner_ne tree.root (framed.owners ▸ .root)) root

/-- In the environment of a later stage, what the first has stored is in stock. -/
theorem holds_stageEnvironment (slot : frame.slot = tree.variablesSlot) {stock : Placeholder}
    (unused : frame.supply ≤ stock.number) (stored : Value) :
    frame.Holds (tree.stageEnvironment frame.supplied stock stored) stock stored := by
  have gives := gives_stageEnvironment slot
    (Nat.ne_of_gt (Nat.lt_of_lt_of_le frame.slot_lt unused)) stored
  exact ⟨unused, gives.base, gives.supplied⟩

/-- The full pass evaluates to the meaning of the query fields. -/
theorem runFull_eq (placed : tree.Placed) (framed : tree.FramedBy frame) (orderly : tree.Orderly)
    (passed : frame.supply ≤ supply) :
    tree.runFull supply root frame.supplied frame.provider =
      Value.ofPairs <$> Outline.meaningAll frame tree.queryOutlines root := by
  have suits := suits_queryOutlines placed framed orderly
  have owned : frame.owners ((none : Option Placeholder).getD tree.root) := framed.owners ▸ .root
  have kept := (Outline.firsts_contributeAll (show PassOptions.full.leavingOut = false from rfl)
    orderly.distinct none supply).1
  show (tree.operationPass .full supply).1.evaluate frame.provider
    (tree.stageEnvironment frame.supplied tree.root root) = _
  rw [evaluate_operationPass, kept, Expr.evaluateObject]
  apply congrArg
  apply Outline.evaluate_contributeAll suits passed
  intro outline inside supply passed
  exact (suits outline inside).evaluate_full rfl rfl owned (gives_root framed root) passed

/-- The second stage over what the first has stored evaluates to the meaning of the query
    fields in two stages. -/
theorem evaluate_secondStage (placed : tree.Placed) (framed : tree.FramedBy frame)
    (orderly : tree.Orderly) (passed : frame.supply ≤ supply) {stored : Value}
    (first : (tree.operationPass .withoutServices supply).1.evaluate frame.provider
      (tree.stageEnvironment frame.supplied tree.root root) = pure stored)
    {stock : Placeholder}
    (shape : stock.shape = (tree.operationPass .withoutServices supply).1.shape)
    (unused : frame.supply ≤ stock.number) {later : Nat} (passedLater : frame.supply ≤ later) :
    (tree.operationPass (.merging (.read stock)) later).1.evaluate frame.provider
        (tree.stageEnvironment frame.supplied stock stored) =
      Value.ofPairs <$> Outline.stagedAll frame tree.queryOutlines root := by
  have suits := suits_queryOutlines placed framed orderly
  have owned : frame.owners ((none : Option Placeholder).getD tree.root) := framed.owners ▸ .root
  have gives := gives_root framed root
  rw [evaluate_operationPass] at first
  obtain ⟨stocks, carries⟩ := Outline.stocks_and_carries suits orderly.distinct owned gives first
    tree.operationName
  have declares : Shape.ofPairs tree.operationName (Expr.fieldShapes (Members.firsts
      (Outline.contributeAll .withoutServices none tree.queryOutlines supply).1)) =
        stock.shape := by
    rw [shape]
    rfl
  rw [declares] at stocks carries
  have holds := holds_stageEnvironment framed.slot unused stored
  have kept := (Outline.firsts_contributeAll
    (show (PassOptions.merging (.read stock)).leavingOut = false from rfl)
    orderly.distinct none later).1
  rw [evaluate_operationPass, kept, Expr.evaluateObject]
  refine congrArg _ (Outline.evaluate_contributeAll_merging suits passed passedLater stocks ?_)
  intro outline inside first supply started passed stocks
  exact (suits outline inside).evaluate_merging owned gives started stocks carries holds passed

/-- The first stage has the effect that the query fields have in it. -/
theorem effect_firstStage (placed : tree.Placed) (framed : tree.FramedBy frame)
    (orderly : tree.Orderly) (passed : frame.supply ≤ supply) :
    ((tree.operationPass .withoutServices supply).1.evaluate frame.provider
        (tree.stageEnvironment frame.supplied tree.root root)).effect =
      Outline.preparedAll frame tree.queryOutlines root := by
  have suits := suits_queryOutlines placed framed orderly
  have owned : frame.owners ((none : Option Placeholder).getD tree.root) := framed.owners ▸ .root
  have gives := gives_root framed root
  have kept := @Outline.effect_firsts_contributeAll _ _ _ none _ _ supply suits orderly.distinct
    owned gives
  rw [evaluate_operationPass, Expr.evaluateObject, effect_map]
  exact kept.trans (Outline.stageEffect_contributeAll suits passed fun outline inside _ started =>
    (suits outline inside).stageEffect_contribute owned gives started)

/-- The first stage calls nothing: it either stores a value or fails with a fault, as the query
    fields do in it. -/
theorem firstStage_cases (placed : tree.Placed) (framed : tree.FramedBy frame)
    (orderly : tree.Orderly) (hooks : tree.HooksAddNoService) (passed : frame.supply ≤ supply) :
    let first := (tree.operationPass .withoutServices supply).1.evaluate frame.provider
      (tree.stageEnvironment frame.supplied tree.root root)
    let prepared := Outline.preparedAll frame tree.queryOutlines root
    (∃ stored, first = pure stored ∧ prepared = pure ()) ∨
      ∃ fault, first = fail fault ∧ prepared = fail fault := by
  intro first prepared
  have quiet : first.Quiet := Expr.evaluate_quiet _ (silent_operationPass hooks supply)
  have effect : first.effect = prepared := effect_firstStage placed framed orderly passed
  rw [← effect]
  exact quiet.effect_cases

/-- A query without services runs the full pass. -/
theorem runWith_compile_of_single (noServices : tree.operationHasServices? ≠ some true)
    (supply : Nat) (root supplied : Value) (provider : Provider) :
    (tree.compile false supply).1.runWith root supplied provider =
      some <$> tree.runFull supply root supplied provider := by
  have single : (tree.operationHasServices? == some true) = false := by simpa using noServices
  unfold compile
  rw [single]
  rfl

/-- A tree with services compiles to a pass without them and a merging pass over its value. -/
theorem compile_of_staged (services : tree.operationHasServices? = some true)
    (noExecution : Bool) (supply : Nat) :
    let first := tree.operationPass .withoutServices supply
    let stock : Placeholder := ⟨first.2, "stage1", first.1.shape⟩
    (tree.compile noExecution supply).1 = tree.query noExecution (tree.root, first.1)
      (some (stock, (tree.operationPass (.merging (.read stock)) (first.2 + 1)).1)) := by
  have staged : (tree.operationHasServices? == some true) = true := by simp [services]
  unfold compile
  rw [staged]
  rfl

/-- A query with services runs a pass without services and a merging pass over its value. -/
theorem runWith_compile_of_staged (services : tree.operationHasServices? = some true)
    (supply : Nat) (root supplied : Value) (provider : Provider) :
    let first := tree.operationPass .withoutServices supply
    let stock : Placeholder := ⟨first.2, "stage1", first.1.shape⟩
    (tree.compile false supply).1.first =
        .compile tree.root first.1 tree.variablesSlot false ∧
      (tree.compile false supply).1.runWith root supplied provider =
        first.1.evaluate provider (tree.stageEnvironment supplied tree.root root) >>= fun stored =>
          some <$> (tree.operationPass (.merging (.read stock)) (first.2 + 1)).1.evaluate provider
            (tree.stageEnvironment supplied stock stored) := by
  rw [compile_of_staged services]
  exact ⟨rfl, rfl⟩

/-- What the query fields mean when they are compiled: in two stages after the first has done
    its part if a service is called, else in one. -/
theorem runWith_compile_eq (placed : tree.Placed) (framed : tree.FramedBy frame)
    (orderly : tree.Orderly) (hooks : tree.HooksAddNoService) (compiled : frame.supply ≤ supply) :
    (tree.compile false supply).1.runWith root frame.supplied frame.provider =
      if tree.operationHasServices? = some true then
        Outline.preparedAll frame tree.queryOutlines root >>= fun _ =>
          some <$> Value.ofPairs <$> Outline.stagedAll frame tree.queryOutlines root
      else some <$> Value.ofPairs <$> Outline.meaningAll frame tree.queryOutlines root := by
  split
  · rename_i services
    have drawn : supply ≤ (tree.operationPass .withoutServices supply).2 :=
      Outline.passes_contributeAll (fun outline inside =>
        (suits_queryOutlines placed framed orderly outline inside).passes _ _) supply
    rw [(runWith_compile_of_staged services supply root frame.supplied frame.provider).2]
    rcases @firstStage_cases _ _ _ root placed framed orderly hooks compiled with
      ⟨stored, plain, prepared⟩ | ⟨fault, plain, prepared⟩
    · have enough := Nat.le_trans compiled drawn
      rw [plain, prepared, pure_bind, pure_bind,
        evaluate_secondStage placed framed orderly compiled plain rfl enough
          (Nat.le_succ_of_le enough)]
    · rw [plain, prepared]
      rfl
  · rename_i noServices
    rw [runWith_compile_of_single noServices, runFull_eq placed framed orderly compiled]

/-- A compiled query does not succeed where a hollow selection fails.

    Proof: such a selection has services below it, so there are two stages, and the first
    fails. -/
theorem not_succeeds_compile (placed : tree.Placed) (framed : tree.FramedBy frame)
    (regular : tree.Regular) (compiled : frame.supply ≤ supply) {outline : Outline}
    (inside : outline ∈ tree.queryOutlines) {fault : ExecutionFault}
    (fails : outline.HollowFails frame.setting root fault) :
    ¬((tree.compile false supply).1.runWith root frame.supplied frame.provider).Succeeds := by
  intro succeeds
  have finite := Outline.allFinite_iff.mp regular.acyclic.allFinite_queryOutlines
  have services : tree.operationHasServices? = some true :=
    Outline.anyServices?_of_mem finite inside (fails.hasServices? (finite outline inside))
  rw [runWith_compile_eq placed framed regular.orderly regular.hooksAddNoService compiled,
    if_pos services] at succeeds
  obtain ⟨done, prepared, -⟩ := succeeds_of_bind succeeds
  apply fails.not_succeeds (suits_queryOutlines placed framed regular.orderly outline inside)
  exact Outline.succeeds_preparedAll_iff.mp ⟨done, prepared⟩ outline inside

/-- A compiled query refines the full pass, exactly so if no list is cut, unless a hollow
    selection fails; then the first stage fails with that fault, and no call is started.

    Proof: a single stage has the meaning of the query fields, as the full pass has. Two stages
    have their meaning in two stages, which refines that one, once the first has succeeded. If
    the first fails although the full pass succeeds, one of the query fields fails in it and
    has a meaning. -/
theorem refines_compile {exact : Prop} (placed : tree.Placed) (framed : tree.FramedBy frame)
    (regular : tree.Regular) {passSupply : Nat} (passed : frame.supply ≤ passSupply)
    (compiled : frame.supply ≤ supply)
    (whole : exact → ∀ field, selectsList field = true → (frame.actions field).cuts = []) :
    Refines exact ((tree.compile false supply).1.runWith root frame.supplied frame.provider)
        (some <$> tree.runFull passSupply root frame.supplied frame.provider) ∨
      ∃ outline ∈ tree.queryOutlines, ∃ fault, outline.HollowFails frame.setting root fault ∧
        (tree.compile false supply).1.FirstFails root frame.supplied frame.provider fault ∧
        ((tree.compile false supply).1.runWith root frame.supplied frame.provider).log = [] := by
  have runs := @runWith_compile_eq _ _ _ root placed framed regular.orderly
    regular.hooksAddNoService compiled
  have suits := suits_queryOutlines placed framed regular.orderly
  by_cases services : tree.operationHasServices? = some true
  · rw [if_pos services] at runs
    rcases @firstStage_cases _ _ _ root placed framed regular.orderly
        regular.hooksAddNoService compiled with
      ⟨stored, plain, prepared⟩ | ⟨fault, plain, prepared⟩
    · left
      rw [runs, prepared, pure_bind, runFull_eq placed framed regular.orderly passed]
      exact ((Outline.refines_stagedAll fun outline inside =>
        (suits outline inside).refines_staged whole root).map _).map some
    · rw [prepared] at runs
      by_cases means : (Outline.meaningAll frame tree.queryOutlines root).Succeeds
      · right
        obtain ⟨outline, inside, failed⟩ :=
          Outline.exists_of_preparedAll_error (congrArg Outcome.result prepared)
        have meaning := Outline.succeeds_meaningAll_iff.mp means outline inside
        let executable := (Executable.ofExpr tree.root
          (tree.operationPass .withoutServices supply).1).withVariables tree.variablesSlot
        have stored : executable ∈ (tree.compile false supply).1.first.executable? := by
          rw [(runWith_compile_of_staged services supply root frame.supplied frame.provider).1]
          rfl
        refine ⟨outline, inside, fault, (suits outline inside).hollowFails meaning failed,
          ⟨executable, stored, congrArg Outcome.result plain, ?_⟩, ?_⟩
        · rw [runs]
          rfl
        · rw [runs]
          rfl
      · left
        intro value succeeded
        rw [runFull_eq placed framed regular.orderly passed] at succeeded
        exact absurd (succeeds_of_map (succeeds_of_map ⟨value, succeeded⟩)) means
  · left
    rw [runs, if_neg services, runFull_eq placed framed regular.orderly passed]
    exact refines_refl _

end Frames

/-- Two stages refine the full pass. For every regular tree that was built from closed
    resolvers, both are defined, and where the full pass over a root value succeeds, running
    the compiled query yields the same value, unless a hollow selection fails on a value that
    is reached from the root.

    The exception is exact: if a hollow selection fails, the query does not yield the value;
    its first stage fails with the fault of a hollow selection, and the query with it. -/
theorem Built.execution_refines (built : tree.Built practice supply)
    (closed : ∀ definition, practice.offers definition → definition.Closed)
    (regular : tree.Regular) {passSupply compileSupply : Nat} (passed : supply ≤ passSupply)
    (compiled : supply ≤ compileSupply) (root : Value) (supplied : Variables)
    (provider : Provider) {value : Value}
    (succeeded : (tree.runFull passSupply root supplied.toValue provider).result = .ok value) :
    let setting : Setting := ⟨tree.variablesSlot, supplied.toValue, provider, supply⟩
    let query := (tree.compile false compileSupply).1
    tree.operationPass? .full = some (tree.operationPass .full) ∧
      tree.compile? false = some (tree.compile false) ∧
      ((∀ outline ∈ tree.queryOutlines, ∀ fault, ¬outline.HollowFails setting root fault) ∧
          (query.executeWith root supplied provider).result = .ok (some value) ∨
        ∃ outline ∈ tree.queryOutlines, ∃ fault, outline.HollowFails setting root fault ∧
          query.FirstFails root supplied.toValue provider fault) := by
  intro setting query
  refine ⟨if_pos regular.acyclic.allFinite_queryOutlines, regular.acyclic.compile? false, ?_⟩
  obtain ⟨frame, given, rfl, rfl, framed, -⟩ :=
    regular.exists_frame (built.isSealed closed) supplied.toValue provider
  have same : frame.setting = setting := by
    simp only [setting, Frame.setting, framed.slot, given]
  have refines := @refines_compile _ _ _ root False built.placed framed regular _ passed compiled
    False.elim
  rw [same, given] at refines
  rcases refines with refined | ⟨outline, inside, fault, fails, failed, -⟩
  · left
    have yields : (query.executeWith root supplied frame.provider).result = .ok (some value) :=
      (refined (some value) (map_result_eq_ok.mpr ⟨value, succeeded, rfl⟩)).1
    refine ⟨fun outline inside fault fails => ?_, yields⟩
    rw [← same] at fails
    apply not_succeeds_compile built.placed framed regular compiled inside fails
    rw [given]
    exact ⟨some value, yields⟩
  · exact .inr ⟨outline, inside, fault, fails, failed⟩

/-! ## Two trees -/

/-- A call of a service over an id binds nothing. -/
theorem binds_idService (context : Placeholder) (allowed : Nat → Prop) (method : String)
    (shape : Shape) (answer : ServiceAnswer) :
    (Expr.service ⟨"Ratings"⟩ method [(Expr.read context).get "id"] shape answer).Binds
      allowed := by
  rw [Expr.binds_iff]
  constructor
  · simp [Expr.ownBinder?]
  · intro part inside
    obtain rfl := List.mem_singleton.mp inside
    exact Expr.binds_of_chain? (Expr.chain?_member context _ _) allowed

/-- A resolver that asks a service about an id reads the value that it is given, and nothing
    else. -/
theorem closed_ofIdService (name method : String) (shape : Shape) (answer : ServiceAnswer) :
    (FieldDefinition.ofResolver name shape fun parent _ =>
      pure (.service ⟨"Ratings"⟩ method [parent.get "id"] shape answer)).Closed := by
  apply FieldDefinition.closed_ofResolver
  · intro context number inside
    simpa [Expr.free, Expr.freeAll, Expr.get] using inside
  · intro context allowed
    exact binds_idService context allowed method shape answer

/-- The resolver of ratings reads the film that it is given. -/
theorem closed_ratingDefinition : ratingDefinition.Closed :=
  closed_ofIdService _ _ _ _

/-- The resolvers of the film tree are closed. -/
theorem closed_filmPractice (definition : FieldDefinition)
    (offered : filmPractice.offers definition) : definition.Closed := by
  simp only [filmPractice, List.mem_cons, List.not_mem_nil, or_false] at offered
  rcases offered with rfl | rfl | rfl
  · exact FieldDefinition.closed_ofMember _ _
  · exact FieldDefinition.closed_ofMember _ _
  · exact closed_ratingDefinition

/-- No member of a film begins as the names of chains do. -/
theorem unreserved_of_film {shape : Shape} (film : shape = .any ∨ shape = ratedFilm) (name : String)
    (declared : shape.hasMember name = true) : isReserved name = false := by
  rcases film with same | same <;> rw [same] at declared
  · cases declared
  · have listed := (Members.value?_isSome_iff _ name).mp declared
    simp only [Members.names, List.map_cons, List.map_nil, List.mem_cons, List.not_mem_nil,
      or_false] at listed
    rcases listed with rfl | rfl <;> decide

/-- The film tree is regular. -/
theorem regular_ratedFilms : ratedFilms.Regular where
  acyclic := built_ratedFilms.acyclic (by simp [filmPractice])
  distinct := by decide
  distinctBelow := ⟨⟨by decide, trivial, trivial, trivial⟩, trivial⟩
  fieldNames := by
    intro address field stored
    obtain ⟨_ | _ | _ | index⟩ := address <;> cases stored <;> rfl
  memberNames := by
    have shapes (owner : Placeholder) (owns : ratedFilms.Owns owner) :
        owner.shape = .any ∨ owner.shape = ratedFilm := by
      cases owns with
      | root => exact .inl rfl
      | @context address field stored =>
        obtain ⟨_ | _ | _ | index⟩ := address <;> cases stored
        · exact .inl rfl
        · exact .inr rfl
        · exact .inr rfl
      | @element address field slot stored selects =>
        obtain ⟨_ | _ | _ | index⟩ := address <;> cases stored <;> cases selects
        exact .inr rfl
      | @fragment address fragment stored => cases stored
    intro owner owns
    exact unreserved_of_film (shapes owner owns)
  builtIn := by
    intro address field stored extension inside
    obtain ⟨_ | _ | _ | index⟩ := address <;> cases stored <;> cases inside

/-- One film. -/
def heatRoot : Value :=
  .object [("films", .list [.object [("id", .string "a"), ("title", .string "Heat")]])]

/-- A registry with an instance that answers every rating. -/
def ratingsProvider : Provider :=
  (Capabilities.empty.register ⟨"Ratings"⟩ (.int 5)).provider

/-- Its title and its rating. -/
def heatAnswer : Value :=
  .object [("films", .list [.object [("title", .string "Heat"), ("rating", .int 5)]])]

/-- The full pass rates the film, and so does the query of two stages. -/
theorem execution_refines_ratedFilms :
    ratedFilms.Regular ∧
      (ratedFilms.runFull 3 heatRoot Variables.empty.toValue ratingsProvider).result =
        .ok heatAnswer ∧
      ((ratedFilms.compile false 3).1.executeWith heatRoot .empty ratingsProvider).result =
        .ok (some heatAnswer) := by
  have succeeded : (ratedFilms.runFull 3 heatRoot Variables.empty.toValue ratingsProvider).result =
      .ok heatAnswer := by rfl
  refine ⟨regular_ratedFilms, succeeded, ?_⟩
  obtain ⟨-, -, ⟨-, agrees⟩ | ⟨outline, inside, fault, fails, -⟩⟩ :=
    built_ratedFilms.execution_refines closed_filmPractice regular_ratedFilms (Nat.le_refl 3)
      (Nat.le_refl 3) heatRoot .empty ratingsProvider succeeded
  · exact agrees
  · have hollow := Outline.anyHollow_eq_true.mpr ⟨outline, inside, fails.hasHollow⟩
    exact absurd hollow (by decide)

/-- The reels of a root value. -/
def reelsDefinition : FieldDefinition :=
  .ofMember "reels" (.list .any)

/-- The director of a reel, whom a service knows. -/
def directorDefinition : FieldDefinition :=
  .ofResolver "director" (.object "Person" []) fun _ _ =>
    pure (.service ⟨"Ratings"⟩ "director" [] (.object "Person" []) fun state _ => .ok state)

/-- The directors of reels, of whom nothing is selected. -/
def directedReels : SelectionTree where
  root := ⟨0, "ctx", .any⟩
  variablesSlot := ⟨1, "vars", .any⟩
  bound := .empty
  fields := ⟨#[
    { name := "reels"
      kind := .list ⟨2, "reels", .any⟩
      expr := .member (.read ⟨0, "ctx", .any⟩) "reels" (.list .any)
      context := ⟨0, "ctx", .any⟩
      arguments := ArgumentSet.empty.readVariablesFrom ⟨1, "vars", .any⟩
      children := [⟨1⟩] },
    { name := "director"
      kind := .object ⟨3, "director", .object "Person" []⟩
      expr := .service ⟨"Ratings"⟩ "director" [] (.object "Person" []) fun state _ => .ok state
      context := ⟨2, "reels", .any⟩
      arguments := ArgumentSet.empty.readVariablesFrom ⟨1, "vars", .any⟩
      parent? := some ⟨0⟩ }]⟩
  roots := [⟨0⟩]
  fragments := .empty

/-- Callers who select reels and their directors and spread nothing. -/
def reelPractice : Practice where
  offers definition := definition ∈ [reelsDefinition, directorDefinition]
  admits _ _ _ := False

/-- The reels are selected, then the director of each. -/
theorem built_directedReels : directedReels.Built reelPractice 4 := by
  have start : Built reelPractice (drawSelectionTree .any 0).1 2 := .start .any 0
  have reels := @Built.select _ _ _ _ .operation reelsDefinition .empty none ⟨0⟩ start
    (by simp [reelPractice]) rfl
  exact @Built.select _ _ directedReels _ (.field ⟨0⟩) directorDefinition .empty none ⟨1⟩ reels
    (by simp [reelPractice]) rfl

/-- The resolver of directors reads nothing. -/
theorem closed_directorDefinition : directorDefinition.Closed := by
  apply FieldDefinition.closed_ofResolver
  · intro context number inside
    simp [Expr.free, Expr.freeAll] at inside
  · intro context allowed
    rw [Expr.binds_iff]
    constructor
    · simp [Expr.ownBinder?]
    · exact List.forall_mem_nil _

/-- The resolvers of the tree of directors are closed. -/
theorem closed_reelPractice (definition : FieldDefinition)
    (offered : reelPractice.offers definition) : definition.Closed := by
  simp only [reelPractice, List.mem_cons, List.not_mem_nil, or_false] at offered
  rcases offered with rfl | rfl
  · exact FieldDefinition.closed_ofMember _ _
  · exact closed_directorDefinition

/-- The tree of directors is regular. -/
theorem regular_directedReels : directedReels.Regular where
  acyclic := built_directedReels.acyclic (by simp [reelPractice])
  distinct := by decide
  distinctBelow := ⟨⟨by decide, ⟨by decide, trivial⟩, trivial⟩, trivial⟩
  fieldNames := by
    intro address field stored
    obtain ⟨_ | _ | index⟩ := address <;> cases stored <;> rfl
  memberNames := by
    intro owner owns name declared
    cases owns with
    | root => cases declared
    | @context address field stored =>
      obtain ⟨_ | _ | index⟩ := address <;> cases stored <;> cases declared
    | @element address field slot stored selects =>
      obtain ⟨_ | _ | index⟩ := address <;> cases stored <;> cases selects <;> cases declared
    | @fragment address fragment stored => cases stored
  builtIn := by
    intro address field stored extension inside
    obtain ⟨_ | _ | index⟩ := address <;> cases stored <;> cases inside

/-- Where the reels are no list, the full pass succeeds, for it leaves them out; but the first
    stage keeps a shell of them and fails, and the query with it. -/
theorem execution_fails_directedReels :
    directedReels.Built reelPractice 4 ∧ directedReels.Regular ∧
      (∀ definition, reelPractice.offers definition → definition.Closed) ∧
      (directedReels.runFull 4 (.object [("reels", .int 5)]) Variables.empty.toValue
        ratingsProvider).result = .ok (.object []) ∧
      ((directedReels.compile false 4).1.executeWith (.object [("reels", .int 5)]) .empty
        ratingsProvider).result = .error (.typeMismatch "map" "List" "Int") := by
  exact ⟨built_directedReels, regular_directedReels, closed_reelPractice, by rfl, by rfl⟩

end SelectionTree

end StagedQuery
