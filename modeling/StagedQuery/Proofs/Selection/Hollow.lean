import StagedQuery.Proofs.Selection.Prepared
import StagedQuery.Proofs.Selection.SecondStage

/-!
# Where only the first stage can fail

A selection is hollow if nothing is visible in it, although services are called below it. A
full pass leaves it out, and so does a merging pass, but a pass without services keeps a
shell of it: the source after its hooks, objects without members, and the hooks after the
selection. The shell is evaluated for nothing, and may fail.

Whether the shell of a hollow selection fails is asked on the values that are reached: those
that the sources of the selections above it give. Where the meaning of an outline succeeds,
such a failure is what the first stage fails with if it fails, and it does fail where there
is one.
-/

namespace StagedQuery

open Outcome

namespace Outline

mutual

/-- Whether a selection is hollow or has a hollow selection below it. What stands below a
    field that calls a service itself does not count, for the first stage leaves it out. -/
def hasHollow : Outline → Bool
  | .scalar _ => false
  | .selection field _ _ children =>
    !field.callsService &&
      ((visibleAll children).isEmpty && anyServices? children == some true ||
        anyHollow children)
  | .spread _ fields => anyHollow fields
  | .endless => false

/-- Whether one of some outlines is hollow or has a hollow selection below it. -/
def anyHollow : List Outline → Bool
  | [] => false
  | first :: rest => hasHollow first || anyHollow rest

end

/-- Some outlines have a hollow selection exactly if one of them has. -/
theorem anyHollow_eq_true {outlines : List Outline} :
    anyHollow outlines = true ↔ ∃ outline ∈ outlines, outline.hasHollow = true := by
  induction outlines with
  | nil => simp [anyHollow]
  | cons first rest ih => simp [anyHollow, ih]

end Outline

/-! ## Shells that fail -/

/-- What a pass without services keeps of a selection of which nothing is visible: the source
    after its hooks, an object without members for it or for each item of it, and the hooks
    after a selection. What the members below keep is not part of the shell. -/
def Field.shell (field : Field) (element : Placeholder) (isList : Bool) : Drawing Expr := do
  let source ← Extension.adjustAll Extension.beforeSelection field.name field.arguments
    field.extensions field.expr
  Extension.adjustAll Extension.afterSelection field.name field.arguments field.extensions
    ((SelectionSource.mk source element none true).select field.name isList [])

/-- The shell of a selection fails with a fault over a value of the field's context, wherever
    the hooks draw placeholders from. -/
def Setting.ShellFails (setting : Setting) (field : Field) (element : Placeholder) (isList : Bool)
    (value : Value) (fault : ExecutionFault) : Prop :=
  ∀ supply, setting.supply ≤ supply →
    ((field.shell element isList supply).1.evaluate setting.provider
      [(setting.slot.number, setting.supplied), (field.context.number, value)]).result =
        .error fault

/-- A hollow selection fails on a value that is reached from the value over an outline. The
    selection itself is reached with the value of its context. What stands below another
    selection is reached with the source of that one after its hooks, or with each item of
    it, and the fields of a spread with the value of the spread. Nothing is reached below a
    field that calls a service, for the first stage leaves it out. -/
inductive Outline.HollowFails (setting : Setting) : Outline → Value → ExecutionFault → Prop where
  | own {field : Field} {element : Placeholder} {isList : Bool} {children : List Outline}
      {value : Value} {fault : ExecutionFault} (silent : field.callsService = false)
      (hidden : (visibleAll children).isEmpty = true)
      (services : anyServices? children = some true)
      (fails : setting.ShellFails field element isList value fault) :
      HollowFails setting (.selection field element isList children) value fault
  | member {field : Field} {element : Placeholder} {isList : Bool} {children : List Outline}
      {value source item : Value} {child : Outline} {fault : ExecutionFault}
      (silent : field.callsService = false)
      (found : setting.Finds Extension.beforeSelection field field.expr value source)
      (taken : item ∈ source.targets isList) (inside : child ∈ children)
      (fails : HollowFails setting child item fault) :
      HollowFails setting (.selection field element isList children) value fault
  | spread {field : Field} {fields : List Outline} {value : Value} {child : Outline}
      {fault : ExecutionFault} (inside : child ∈ fields)
      (fails : HollowFails setting child value fault) :
      HollowFails setting (.spread field fields) value fault

/-- The shell of a field that fits a frame selects objects without members from the value of
    the field. -/
theorem Frame.evaluate_shell {frame : Frame} {field : Field} (fits : frame.Fits field)
    (element : Placeholder) (isList : Bool) (value : Value) {supply : Nat}
    (passed : frame.supply ≤ supply) :
    (field.shell element isList supply).1.evaluate frame.provider
        [(frame.slot.number, frame.supplied), (field.context.number, value)] =
      (frame.valueOf field value >>= (frame.actions field).before) >>=
        selectBare isList (frame.actions field).cuts := by
  have given := (gives_own fits value).supplied
  have started := Nat.lt_of_lt_of_le frame.slot_lt passed
  have later := Nat.lt_of_lt_of_le started (fits.acts.before.passed field.expr supply)
  unfold Field.shell selectBare
  simp only [Drawing.run_bind]
  rw [fits.acts.after.evaluate _ _ _ later given, SelectionSource.evaluate_select,
    fits.acts.before.evaluate _ _ _ started given, bind_assoc]
  rfl

/-- In a frame the shell of a field fails as that selection does. -/
theorem Frame.shellFails_iff {frame : Frame} {field : Field} (fits : frame.Fits field)
    {element : Placeholder} {isList : Bool} {value : Value} {fault : ExecutionFault} :
    frame.setting.ShellFails field element isList value fault ↔
      ((frame.valueOf field value >>= (frame.actions field).before) >>=
        selectBare isList (frame.actions field).cuts).result = .error fault := by
  constructor
  · intro fails
    rw [← evaluate_shell fits element isList value (Nat.le_refl _)]
    exact fails _ (Nat.le_refl _)
  · intro failed supply passed
    exact (congrArg Outcome.result (evaluate_shell fits element isList value passed)).trans failed

/-! ## Operations on items -/

section Operations

variable {α : Type} {body : Value → Outcome α} {items : List Value}

/-- A body succeeds for some items exactly if it does for each. -/
theorem succeeds_mapItems_iff :
    (mapItems body items).Succeeds ↔ ∀ item ∈ items, (body item).Succeeds := by
  induction items with
  | nil => simp [mapItems, succeeds_pure]
  | cons item rest ih => rw [mapItems, succeeds_combine_iff, ih, List.forall_mem_cons]

/-- A body that fails for some items fails for one of them. -/
theorem exists_of_mapItems_error {fault : ExecutionFault}
    (failed : (mapItems body items).result = .error fault) :
    ∃ item ∈ items, (body item).result = .error fault := by
  induction items with
  | nil => cases failed
  | cons item rest ih =>
    simp only [mapItems] at failed
    rcases bind_result_eq_error.mp failed with own | ⟨first, -, later⟩
    · exact ⟨item, by simp, own⟩
    · rcases bind_result_eq_error.mp later with others | ⟨_, -, ⟨⟩⟩
      obtain ⟨other, inside, found⟩ := ih others
      exact ⟨other, by simp [inside], found⟩

/-- A selection of objects succeeds, cuts included, exactly if its body succeeds for all that
    members are selected from, and objects without members can be selected. -/
theorem succeeds_selectFrom_iff {isList : Bool} {cuts : List Cut} {source : Value}
    {body : Value → Outcome Value}
    (objects : ∀ item result, (body item).result = .ok result →
      ∃ members, result = .object members) :
    (selectFrom isList body source >>= cutValue cuts).Succeeds ↔
      (∀ item ∈ source.targets isList, (body item).Succeeds) ∧
        (selectBare isList cuts source).Succeeds := by
  rw [← succeeds_effect, effect_selectFrom_eq isList cuts source objects, succeeds_bind_const_iff,
    succeeds_effect, succeeds_effect, succeeds_mapItems_iff]

end Operations

namespace Outline

variable {frame : Frame} {context : Placeholder} {outline : Outline} {outlines : List Outline}
  {field : Field} {element : Placeholder} {isList : Bool} {children : List Outline}
  {value : Value} {fault : ExecutionFault}

/-! ## What succeeds with the meaning of a selection -/

/-- Some outlines have a meaning together exactly if each of them has one. -/
theorem succeeds_meaningAll_iff : (meaningAll frame outlines value).Succeeds ↔
    ∀ outline ∈ outlines, (outline.meaning frame value).Succeeds := by
  induction outlines with
  | nil => simp [meaningAll, succeeds_pure]
  | cons first rest ih => rw [meaningAll, succeeds_combine_iff, ih, List.forall_mem_cons]

/-- Outlines show no name together if none of them does. -/
theorem visibleAll_eq_nil :
    visibleAll outlines = [] ↔ ∀ outline ∈ outlines, outline.visible = [] := by
  induction outlines with
  | nil => simp [visibleAll]
  | cons first rest ih => simp [visibleAll, ih]

/-- An outline of which nothing is visible has a meaning over any value: it means nothing. -/
theorem succeeds_of_hidden (hidden : outline.visible = []) :
    (outline.meaning frame value).Succeeds := by
  induction outline using Outline.induction with
  | scalar field => simp [visible] at hidden
  | selection field element isList children =>
    have none : (visibleAll children).isEmpty = true := by
      by_contra shown
      simp [visible, shown] at hidden
    simp only [meaning, none, ↓reduceIte]
    exact succeeds_pure []
  | spread field fields below =>
    refine succeeds_meaningAll_iff.mpr fun child inside => below child inside ?_
    exact visibleAll_eq_nil.mp hidden child inside
  | endless => exact succeeds_pure []

/-- Where a selection that shows something has a meaning, it has a source, its members have a
    meaning over all that they are selected from, and objects can be selected. -/
theorem exists_source_of_shown (shown : ¬(visibleAll children).isEmpty = true)
    (means : ((Outline.selection field element isList children).meaning frame value).Succeeds) :
    ∃ source, (frame.valueOf field value >>= (frame.actions field).before).result = .ok source ∧
      (∀ item ∈ source.targets isList, ∀ child ∈ children,
        (child.meaning frame item).Succeeds) ∧
      (selectBare isList (frame.actions field).cuts source).Succeeds := by
  simp only [meaning, if_neg shown] at means
  obtain ⟨source, found, later⟩ := succeeds_of_bind means
  rw [← bind_assoc] at later
  obtain ⟨result, cut, -⟩ := succeeds_of_bind later
  obtain ⟨members, bare⟩ :=
    (succeeds_selectFrom_iff fun item result => object_of_ofPairs).mp ⟨result, cut⟩
  refine ⟨source, found, fun item taken => ?_, bare⟩
  exact succeeds_meaningAll_iff.mp (succeeds_of_map (members item taken))

/-- Where a selection has a meaning, its members have one over all that they are selected
    from: if nothing of the selection is visible, then because they mean nothing. -/
theorem succeeds_of_member
    (means : ((Outline.selection field element isList children).meaning frame value).Succeeds)
    {source item : Value}
    (found : (frame.valueOf field value >>= (frame.actions field).before).result = .ok source)
    (taken : item ∈ source.targets isList) :
    ∀ child ∈ children, (child.meaning frame item).Succeeds := by
  by_cases hidden : (visibleAll children).isEmpty = true
  · intro child inside
    exact succeeds_of_hidden (visibleAll_eq_nil.mp (List.isEmpty_iff.mp hidden) child inside)
  · obtain ⟨other, foundToo, members, -⟩ := exists_source_of_shown hidden means
    obtain rfl := Except.ok.inj (found.symm.trans foundToo)
    exact members item taken

/-! ## Hollow selections and the first stage -/

/-- The first stage fails for some outlines only if it fails for one of them. -/
theorem exists_of_preparedAll_error
    (failed : (preparedAll frame outlines value).result = .error fault) :
    ∃ outline ∈ outlines, (outline.prepared frame value).result = .error fault := by
  induction outlines with
  | nil => cases failed
  | cons first rest ih =>
    rcases bind_result_eq_error.mp failed with own | ⟨-, -, later⟩
    · exact ⟨first, by simp, own⟩
    · obtain ⟨outline, inside, found⟩ := ih later
      exact ⟨outline, by simp [inside], found⟩

/-- The first stage succeeds for some outlines exactly if it does for each. -/
theorem succeeds_preparedAll_iff : (preparedAll frame outlines value).Succeeds ↔
    ∀ outline ∈ outlines, (outline.prepared frame value).Succeeds := by
  induction outlines with
  | nil => simp [preparedAll, succeeds_pure]
  | cons first rest ih =>
    rw [List.forall_mem_cons, ← ih]
    exact succeeds_bind_const_iff

/-- If the first stage fails for some outlines on some items, it fails for one of the outlines on
    one of the items. -/
theorem exists_of_tried_error {items : List Value}
    (failed : (mapItems (preparedAll frame outlines) items).effect.result = .error fault) :
    ∃ item ∈ items, ∃ outline ∈ outlines, (outline.prepared frame item).result = .error fault := by
  obtain ⟨item, inside, failed⟩ := exists_of_mapItems_error (effect_result_eq_error.mp failed)
  exact ⟨item, inside, exists_of_preparedAll_error failed⟩

/-- The first stage succeeds for some outlines on some items exactly if it does for each outline
    on each item. -/
theorem succeeds_tried_iff {items : List Value} :
    (mapItems (preparedAll frame outlines) items).effect.Succeeds ↔
      ∀ item ∈ items, ∀ outline ∈ outlines, (outline.prepared frame item).Succeeds := by
  simp only [succeeds_effect, succeeds_mapItems_iff, succeeds_preparedAll_iff]

/-- Members that are selected in the first stage are tried on all that they are selected from;
    apart from that, objects without members are selected. -/
theorem effect_selectFrom_preparedAll (isList : Bool) (cuts : List Cut) (source : Value) :
    (selectFrom isList (fun item => (fun _ => Value.ofPairs []) <$>
        preparedAll frame children item) source >>= cutValue cuts).effect =
      (mapItems (preparedAll frame children) (source.targets isList)).effect >>= fun _ =>
        (selectBare isList cuts source).effect := by
  rw [effect_selectFrom_eq isList cuts source fun item result => object_of_ofPairs]
  congr 1
  exact effect_mapItems (fun item => effect_map _ _) _

/-- What the first stage does for a selection that it keeps: it finds the source, tries the
    members on all that they are selected from, and selects objects without members. -/
theorem prepared_of_kept (silent : field.callsService = false)
    (kept : (visibleAll children).isEmpty = true → anyServices? children = some true) :
    (Outline.selection field element isList children).prepared frame value =
      (frame.valueOf field value >>= (frame.actions field).before) >>= fun source =>
        (mapItems (preparedAll frame children) (source.targets isList)).effect >>= fun _ =>
          (selectBare isList (frame.actions field).cuts source).effect := by
  have tried : ((visibleAll children).isEmpty && anyServices? children != some true) = false := by
    by_contra skipped
    simp at skipped
    exact skipped.2 (kept (by simpa using skipped.1))
  simp only [prepared, silent, tried, Bool.false_eq_true, ↓reduceIte]
  refine bind_congr fun source => ?_
  rw [← effect_bind, effect_selectFrom_preparedAll]

/-- If the first stage fails for an outline that has a meaning, a hollow selection fails with
    that fault on a value that is reached.

    Proof: induction on the outline. A selection that shows something has its source, its
    items and its cuts from the meaning, so one of its members fails. A selection that shows
    nothing means nothing and asks nothing of its members; it fails itself, or one of them. -/
theorem Suits.hollowFails (suits : Suits frame context outline)
    (means : (outline.meaning frame value).Succeeds)
    (failed : (outline.prepared frame value).result = .error fault) :
    outline.HollowFails frame.setting value fault := by
  induction suits generalizing value with
  | @scalar field fits =>
    exfalso
    simp only [meaning] at means
    obtain ⟨result, found, -⟩ := succeeds_of_bind means
    simp only [prepared] at failed
    split at failed
    · cases failed
    · rw [effect_result_eq_error, found] at failed
      cases failed
  | @selection field element isList children fits selects lists distinct below ih =>
    by_cases calls : field.callsService = true
    · simp only [prepared, calls, ↓reduceIte] at failed
      cases failed
    have silent : field.callsService = false := by simpa using calls
    have kept : (visibleAll children).isEmpty = true → anyServices? children = some true := by
      intro hidden
      by_contra skipped
      simp only [prepared, silent, hidden, bne_iff_ne.mpr skipped, Bool.and_self,
        Bool.false_eq_true, ↓reduceIte] at failed
      cases failed
    -- Only of a hollow selection can the shell fail: where something is visible, the meaning has
    -- selected objects from the same source.
    have shell (bare : ((frame.valueOf field value >>= (frame.actions field).before) >>=
        selectBare isList (frame.actions field).cuts).result = .error fault) :
        (Outline.selection field element isList children).HollowFails frame.setting value
          fault := by
      have hidden : (visibleAll children).isEmpty = true := by
        by_contra shown
        obtain ⟨source, found, -, result, fine⟩ := exists_source_of_shown shown means
        rw [bind_result_eq_ok.mpr ⟨source, found, fine⟩] at bare
        cases bare
      exact .own silent hidden (kept hidden) ((Frame.shellFails_iff fits).mpr bare)
    rw [prepared_of_kept silent kept] at failed
    rcases bind_result_eq_error.mp failed with noSource | ⟨source, found, later⟩
    · exact shell (bind_result_eq_error.mpr (.inl noSource))
    rcases bind_result_eq_error.mp later with tried | ⟨-, -, bare⟩
    · obtain ⟨item, taken, child, inside, failed⟩ := exists_of_tried_error tried
      exact .member silent ((Frame.finds_iff fits fits.acts.before).mpr found) taken inside
        (ih child inside (succeeds_of_member means found taken child inside) failed)
    · exact shell (bind_result_eq_error.mpr (.inr ⟨source, found, effect_result_eq_error.mp bare⟩))
  | spread below ih =>
    obtain ⟨child, inside, failed⟩ := exists_of_preparedAll_error failed
    exact .spread inside (ih child inside (succeeds_meaningAll_iff.mp means child inside) failed)

/-- Outlines that come to an end have services if one of them has. -/
theorem anyServices?_of_mem {child : Outline}
    (finite : ∀ child ∈ children, child.isFinite false = true) (inside : child ∈ children)
    (services : child.hasServices? = some true) : anyServices? children = some true := by
  rw [hasServices?_eq child (finite child inside), Option.some.injEq, List.any_eq_true] at services
  obtain ⟨field, asked, calls⟩ := services
  rw [anyServices?_eq fun child inside => hasServices?_eq child (finite child inside),
    Option.some.injEq, List.any_eq_true]
  exact ⟨field, mem_requestedAll.mpr ⟨child, inside, asked⟩, calls⟩

/-- A hollow selection that fails has a service below it. -/
theorem HollowFails.hasServices? {setting : Setting}
    (fails : outline.HollowFails setting value fault) (finite : outline.isFinite false = true) :
    outline.hasServices? = some true := by
  induction fails with
  | own silent hidden services _ => simp [Outline.hasServices?, silent, services]
  | member silent found taken inside fails ih =>
    simp only [isFinite, Bool.false_and, Bool.false_or] at finite
    have below := allFinite_iff.mp finite
    simp only [Outline.hasServices?, silent, Bool.false_eq_true, ↓reduceIte]
    exact anyServices?_of_mem below inside (ih (below _ inside))
  | spread inside fails ih =>
    simp only [isFinite] at finite
    have below := allFinite_iff.mp finite
    exact anyServices?_of_mem below inside (ih (below _ inside))

/-- Only where a selection is hollow can one fail. -/
theorem HollowFails.hasHollow {setting : Setting}
    (fails : outline.HollowFails setting value fault) : outline.hasHollow = true := by
  induction fails with
  | own silent hidden services _ => simp [Outline.hasHollow, silent, hidden, services]
  | member silent found taken inside fails ih =>
    simp [Outline.hasHollow, silent, anyHollow_eq_true.mpr ⟨_, inside, ih⟩]
  | spread inside fails ih => exact anyHollow_eq_true.mpr ⟨_, inside, ih⟩

/-- Where a hollow selection fails, so does the first stage.

    Proof: induction on the way to the selection. Each selection on it has services below, so
    the stage keeps it and tries its members on all that they are selected from. -/
theorem HollowFails.not_succeeds (fails : outline.HollowFails frame.setting value fault)
    (suits : Suits frame context outline) : ¬(outline.prepared frame value).Succeeds := by
  induction fails generalizing context with
  | @own field element isList children value fault silent hidden services fails =>
    intro succeeds
    cases suits with
    | selection fits =>
      rw [prepared_of_kept silent fun _ => services] at succeeds
      obtain ⟨source, found, later⟩ := succeeds_of_bind succeeds
      obtain ⟨result, fine⟩ := succeeds_effect.mp (succeeds_bind_const_iff.mp later).2
      have failed := (Frame.shellFails_iff fits).mp fails
      rw [bind_result_eq_ok.mpr ⟨source, found, fine⟩] at failed
      cases failed
  | @member field element isList children value source item child fault silent found taken inside
      fails ih =>
    intro succeeds
    cases suits with
    | selection fits selects lists distinct below =>
      have finite (child : Outline) (inside : child ∈ children) : child.isFinite false = true :=
        (below child inside).isFinite false
      have services := anyServices?_of_mem finite inside (fails.hasServices? (finite child inside))
      rw [prepared_of_kept silent fun _ => services] at succeeds
      obtain ⟨other, foundToo, later⟩ := succeeds_of_bind succeeds
      obtain rfl := Except.ok.inj
        (((Frame.finds_iff fits fits.acts.before).mp found).symm.trans foundToo)
      have tried := succeeds_tried_iff.mp (succeeds_bind_const_iff.mp later).1
      exact ih (below child inside) (tried item taken child inside)
  | spread inside fails ih =>
    intro succeeds
    cases suits with
    | spread below => exact ih (below _ inside) (succeeds_preparedAll_iff.mp succeeds _ inside)

end Outline

end StagedQuery
