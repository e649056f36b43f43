import StagedQuery.Proofs.ListOperations
import StagedQuery.Proofs.Selection.FirstStage

/-!
# What the first stage does

Apart from what it stores, a pass without services only succeeds or fails. Whether it does
is stated here without placeholders and passes: chains that feed services never fail, a
scalar fails where its value or its hooks do, and a selection is tried on the items of its
source if anything of it is visible or a service is called below it.
-/

namespace StagedQuery

open Outcome

/-! ## Effects of operations -/

section Operations

/-- All objects are cut alike. -/
theorem effect_cutValue_object (cuts : List Cut) (members others : List (String × Value)) :
    (cutValue cuts (.object members)).effect = (cutValue cuts (.object others)).effect := by
  cases cuts <;> rfl

/-- Bodies of one effect have one effect on items. -/
theorem effect_mapItems {α β : Type} {body : Value → Outcome α} {later : Value → Outcome β}
    (each : ∀ item, (body item).effect = (later item).effect) (items : List Value) :
    (mapItems body items).effect = (mapItems later items).effect := by
  induction items with
  | nil => rfl
  | cons item rest ih =>
    exact effect_bind_congr (each item) fun _ _ _ _ => effect_bind_congr ih fun _ _ _ _ => rfl

variable {body later : Value → Outcome Value}

/-- What members are selected from if they are selected from a source: the items of a list, or
    the source itself unless it is null. -/
def Value.targets (source : Value) (isList : Bool) : List Value :=
  match isList, source with
  | true, .list items => items
  | true, _ => []
  | false, .null => []
  | false, source => [source]

/-- Selects objects without members from a source, and cuts what is selected. -/
def selectBare (isList : Bool) (cuts : List Cut) (source : Value) : Outcome Value :=
  selectFrom isList (fun _ => pure (.ofPairs [])) source >>= cutValue cuts

/-- A selection that is cut by nothing. -/
theorem selectFrom_uncut (isList : Bool) (body : Value → Outcome Value) (source : Value) :
    selectFrom isList body source >>= cutValue [] = selectFrom isList body source := by
  rw [cutValue_nil_eq, bind_pure]

/-- A selection of objects, cuts included, has the effect of its body on all that members are
    selected from, and then that of a selection of objects without members.

    Proof: all objects are cut alike, and a list is cut whatever its items are. -/
theorem effect_selectFrom_eq (isList : Bool) (cuts : List Cut) (source : Value)
    (objects : ∀ item result, (body item).result = .ok result →
      ∃ members, result = .object members) :
    (selectFrom isList body source >>= cutValue cuts).effect =
      (mapItems body (source.targets isList)).effect >>= fun _ =>
        (selectBare isList cuts source).effect := by
  rw [← effect_bind]
  unfold selectBare
  by_cases null : source = .null
  · subst null
    cases isList <;> rfl
  · cases isList with
    | false =>
      have targets : source.targets false = [source] := by
        cases source with
        | null => exact absurd rfl null
        | bool | int | float | string | enumeration | list | object => rfl
      have single : mapItems body [source] = (fun result => [result]) <$> body source := by
        simp only [mapItems, pure_bind, map_eq_pure_bind]
      rw [selectFrom_of_ne_null null, selectFrom_of_ne_null null, targets, single, effect_map]
      apply effect_bind_congr (effect_unit _).symm
      intro result _ found _
      obtain ⟨members, rfl⟩ := objects source result found
      exact effect_cutValue_object cuts members _
    | true =>
      cases source with
      | list items =>
        simp only [selectFrom_list, mapItems_pure, map_eq_pure_bind, bind_assoc, pure_bind,
          cutValue_list]
        exact effect_bind_congr (effect_unit _).symm fun _ _ _ _ => rfl
      | null => exact absurd rfl null
      | bool | int | float | string | enumeration | object => rfl

/-- The effect of a selection of objects, cuts included, does not depend on what the objects
    are. -/
theorem effect_selectFrom (isList : Bool) (cuts : List Cut) (source : Value)
    (objects : ∀ item result, (body item).result = .ok result →
      ∃ members, result = .object members)
    (objectsToo : ∀ item result, (later item).result = .ok result →
      ∃ members, result = .object members)
    (each : ∀ item, (body item).effect = (later item).effect) :
    (selectFrom isList body source >>= cutValue cuts).effect =
      (selectFrom isList later source >>= cutValue cuts).effect := by
  rw [effect_selectFrom_eq isList cuts source objects,
    effect_selectFrom_eq isList cuts source objectsToo, effect_mapItems each]

/-- Fields that evaluate to plain values have no effect: what is left are the others. -/
theorem effect_evaluateFields_filter {provider : Provider} {env : Environment}
    (keep : String → Bool) {members : List (String × Expr)}
    (plain : ∀ name expr, (name, expr) ∈ members → keep name = false →
      ∃ value, expr.evaluate provider env = pure value) :
    (Expr.evaluateFields provider members env).effect =
      (Expr.evaluateFields provider (members.filter fun member => keep member.1) env).effect := by
  induction members with
  | nil => rfl
  | cons first rest ih =>
    obtain ⟨name, expr⟩ := first
    have later := ih fun other expr inside => plain other expr (by simp [inside])
    rw [List.filter_cons]
    split
    · exact effect_bind_congr rfl fun _ _ _ _ => effect_bind_congr later fun _ _ _ _ => rfl
    · rename_i dropped
      obtain ⟨value, valued⟩ := plain name expr (by simp) (by simpa using dropped)
      rw [← later]
      simp only [Expr.evaluateFields, valued, pure_bind]
      rw [← map_eq_pure_bind, effect_map]

end Operations

/-! ## The first contributions of each name -/

/-- Contributions that are gathered have the effect of all of them: what is dropped repeats
    the value of a chain. -/
theorem effect_evaluateFields_firsts {provider : Provider} {env : Environment} {value : Value}
    {contributions : Contributions} (distinct : (plainNames contributions).Nodup)
    (feeds : Feeds provider env value contributions) :
    (Expr.evaluateFields provider (Members.firsts contributions) env).effect =
      (Expr.evaluateFields provider contributions env).effect := by
  have chains : ∀ name expr, (name, expr) ∈ contributions → (!isReserved name) = false →
      ∃ value, expr.evaluate provider env = pure value := by
    intro name expr inside reserved
    rcases feeds name expr inside with plain | ⟨path, -, valued⟩
    · simp [plain] at reserved
    · exact ⟨_, valued⟩
  have apart : Members.Distinct (contributions.filter fun pair => !isReserved pair.1) := by
    unfold Members.Distinct Members.names
    rwa [plainNames, List.filter_map] at distinct
  rw [effect_evaluateFields_filter (fun name => !isReserved name) chains,
    effect_evaluateFields_filter (fun name => !isReserved name) fun name expr inside =>
      chains name expr (Members.mem_of_mem_firsts inside),
    Members.filter_firsts fun name => !isReserved name, Members.firsts_of_distinct apart]

namespace Outline

mutual

/-- What a pass without services does for an outline over a value, apart from what it stores. -/
def prepared (frame : Frame) : Outline → Value → Outcome Unit
  | .scalar field, value =>
    if field.callsService then pure ()
    else (frame.valueOf field value >>= (frame.actions field).onScalar).effect
  | .selection field _ isList children, value =>
    if field.callsService then pure ()
    else if (visibleAll children).isEmpty && anyServices? children != some true then pure ()
    else do
      let source ← frame.valueOf field value >>= (frame.actions field).before
      let tried ← selectFrom isList
        (fun item => (fun _ => .ofPairs []) <$> preparedAll frame children item) source
      (cutValue (frame.actions field).cuts tried).effect
  | .spread _ fields, value => preparedAll frame fields value
  | .endless, _ => pure ()

/-- What such a pass does for some outlines, in order. -/
def preparedAll (frame : Frame) : List Outline → Value → Outcome Unit
  | [], _ => pure ()
  | first :: rest, value => do
    prepared frame first value
    preparedAll frame rest value

end

variable {frame : Frame} {context : Placeholder} {outline : Outline} {outlines : List Outline}
  {base? : Option Placeholder} {env : Environment} {value : Value} {supply : Nat}

/-- The effect of what is contributed to a pass without services. -/
abbrev stageEffect (frame : Frame) (env : Environment) (contributions : Contributions) :
    Outcome Unit :=
  (Expr.evaluateFields frame.provider contributions env).effect

/-- What outlines contribute has the effect of preparing them, if that holds of each. -/
theorem stageEffect_contributeAll (suits : ∀ outline ∈ outlines, Suits frame context outline)
    (started : frame.supply ≤ supply)
    (each : ∀ outline ∈ outlines, ∀ supply, frame.supply ≤ supply →
      stageEffect frame env (outline.contribute .withoutServices base? supply).1 =
        outline.prepared frame value) :
    stageEffect frame env (contributeAll .withoutServices base? outlines supply).1 =
      preparedAll frame outlines value := by
  induction outlines generalizing supply with
  | nil => rfl
  | cons first rest ih =>
    have later := ih (fun outline inside => suits outline (by simp [inside]))
      (Nat.le_trans started ((suits first (by simp)).passes .withoutServices base? supply))
      (fun outline inside => each outline (by simp [inside]))
    have own := each first (by simp) supply started
    simp only [contributeAll, Drawing.run_bind, Drawing.run_pure, preparedAll, ← own, ← later,
      stageEffect, Expr.evaluateFields_append, effect, map_eq_pure_bind, bind_assoc, pure_bind]

/-- Gathering what some outlines contribute changes no effect. -/
theorem effect_firsts_contributeAll (suits : ∀ outline ∈ outlines, Suits frame context outline)
    (distinct : ((expandedAll outlines).map Field.name).Nodup)
    (owned : frame.owners (base?.getD context))
    (gives : frame.Gives env (base?.getD context) value) :
    stageEffect frame env
        (Members.firsts (contributeAll .withoutServices base? outlines supply).1) =
      stageEffect frame env (contributeAll .withoutServices base? outlines supply).1 :=
  effect_evaluateFields_firsts
    (distinct.sublist (plainNames_contributeAll
      (fun outline _ => plainNames_contribute outline .withoutServices base?) supply))
    (feeds_contributeAll fun outline inside _ => (suits outline inside).feeds rfl owned gives)

/-- The chains that feed services have no effect. -/
theorem stageEffect_contributeExtracted {field : Field} (fits : frame.Fits field)
    (owned : frame.owners (base?.getD field.context))
    (gives : frame.Gives env (base?.getD field.context) value) :
    stageEffect frame env (field.contributeExtracted base? .withoutServices) = pure () := by
  unfold stageEffect
  rw [effect_evaluateFields_filter (fun _ => false), List.filter_false]
  · rfl
  · intro name expr inside _
    rcases feeds_contributeExtracted fits rfl owned gives name expr inside with plain |
      ⟨path, -, valued⟩
    · obtain ⟨path, node, -, named, -⟩ := field.exists_chain_of_extracted inside
      rw [named, isReserved_extractedName] at plain
      cases plain
    · exact ⟨_, valued⟩

/-- An object of what the children of a selection contribute has the effect that the children
    have in the first stage, if this holds of each. -/
theorem effect_evaluateObject {element : Placeholder} {children : List Outline}
    (below : ∀ child ∈ children, Suits frame element child)
    (distinct : ((expandedAll children).map Field.name).Nodup) (owned : frame.owners element)
    (gives : frame.Gives env element value) (started : frame.supply ≤ supply)
    (each : ∀ child ∈ children, ∀ supply, frame.supply ≤ supply →
      stageEffect frame env (child.contribute .withoutServices none supply).1 =
        child.prepared frame value) :
    (Expr.evaluateObject frame.provider
        (Members.firsts (contributeAll .withoutServices none children supply).1) env).effect =
      ((fun _ => Value.ofPairs []) <$> preparedAll frame children value).effect := by
  have kept :=
    @effect_firsts_contributeAll _ _ _ none _ _ supply below distinct owned gives
  have tried := stageEffect_contributeAll below started each
  rw [Expr.evaluateObject, effect_map, effect_map, effect_unit]
  exact kept.trans tried

/-- What an outline contributes to a pass without services has the effect that the outline has
    in the first stage.

    Proof: induction on the outline. The members of a selection are gathered, which changes no
    effect, and tried on the items of the source as the children are. -/
theorem Suits.stageEffect_contribute (suits : Suits frame context outline)
    (owned : frame.owners (base?.getD context))
    (gives : frame.Gives env (base?.getD context) value) (started : frame.supply ≤ supply) :
    stageEffect frame env (outline.contribute .withoutServices base? supply).1 =
      outline.prepared frame value := by
  induction suits generalizing base? env value supply with
  | @scalar field fits =>
    simp only [prepared]
    cases calls : field.callsService with
    | true =>
      rw [contribute_scalar_of_callsService calls]
      exact stageEffect_contributeExtracted fits owned gives
    | false =>
      have stays : (PassOptions.withoutServices.leavingOut && field.callsService) = false := by
        simp [calls]
      obtain ⟨expr, contributed, evaluated⟩ := Frame.contributeScalar_fromData fits stays
        (field.known?_of_fromData rfl) (Frame.moves_of_fromData fits rfl owned gives)
        gives.supplied started
      simp only [contribute, contributed, stageEffect, Expr.evaluateFields, pure_bind, evaluated,
        Bool.false_eq_true, ↓reduceIte]
      rw [← map_eq_pure_bind, effect_map]
  | @selection field element isList children fits selects lists distinct below ih =>
    have owned' : frame.owners element := fits.element element selects
    simp only [prepared]
    cases calls : field.callsService with
    | true =>
      rw [contribute_selection_of_callsService calls]
      exact stageEffect_contributeExtracted fits owned gives
    | false =>
      obtain ⟨middle, members, expr, enough, gathered, contributed, evaluated, -⟩ :=
        @contribute_selection_withoutServices _ _ _ _ _ _ element isList children fits below calls
          owned gives started
      rw [contributed]
      simp only [Bool.false_eq_true, ↓reduceIte]
      split
      · rfl
      · have bodies (item : Value) :
            (Expr.evaluateObject frame.provider members (env.bind element item)).effect =
              ((fun _ => Value.ofPairs []) <$> preparedAll frame children item).effect := by
          have inner : frame.Gives (env.bind element item) element item :=
            Frame.gives_bind gives.supplied (frame.owner_ne element owned') item
          rw [gathered]
          apply effect_evaluateObject below distinct owned' inner enough
          intro child inside supply started
          exact @ih child inside none _ item supply owned' inner started
        simp only [stageEffect, Expr.evaluateFields, pure_bind]
        rw [← map_eq_pure_bind, effect_map, evaluated, effect_bind]
        refine congrArg _ (funext fun source => ?_)
        rw [← effect_bind]
        exact effect_selectFrom isList _ source (fun item result => object_of_ofPairs)
          (fun item result => object_of_ofPairs) bodies
  | @spread field slot fields below ih =>
    simp only [contribute, prepared]
    exact stageEffect_contributeAll below started fun child inside supply started =>
      ih child inside owned gives started

end Outline

end StagedQuery
