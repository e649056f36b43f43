import StagedQuery.Proofs.Selection.Shown
import StagedQuery.Proofs.Selection.Staging
import StagedQuery.Proofs.Selection.Upkeep

/-!
# The layout of results

At every level of a result each name stands once, and the first field of a selection that
shows anything under a name decides what stands there; the fields of a fragment count where
it is spread. So the members of an object are those of one field. Where a field is selected
several times, nothing is merged: what the later selections of it show below is left out.

Nothing is assumed of names, resolvers, providers and shapes. A hook that puts something
else in the place of a finished selection takes its layout away; the built-in hooks only cut
lists.
-/

namespace StagedQuery

open Outcome

/-! ## Hooks after a selection -/

/-- An expression makes objects: whenever it has a value, the value is made of objects whose
    members are as a predicate says. -/
def Expr.Makes (expr : Expr) (provider : Provider) (env : Environment)
    (members : List (String × Value) → Prop) (isList : Bool) : Prop :=
  ∀ value, (expr.evaluate provider env).result = .ok value → value.MadeOf members isList

/-- What an extension does after a selection leaves the objects that were selected as they
    are. -/
def Extension.KeepsSelections (extension : Extension) : Prop :=
  ∀ (name : String) (arguments : ArgumentSet) (expr : Expr) (supply : Nat) (provider : Provider)
    (env : Environment) (members : List (String × Value) → Prop) (isList : Bool),
    expr.Makes provider env members isList →
      (extension.afterSelection name arguments expr supply).1.Makes provider env members isList

/-- The built-in extensions leave selected objects as they are: they cut lists at most. -/
theorem Extension.BuiltIn.keepsSelections {extension : Extension} (builtIn : extension.BuiltIn) :
    extension.KeepsSelections := by
  intro name arguments expr supply provider env members isList makes
  cases builtIn with
  | filter => exact makes
  | sort => exact makes
  | convert kind => exact makes
  | paging default maximum =>
    simp only [Extension.paging, Extension.pageSelection, Drawing.run_pure]
    split
    · exact makes
    · intro value sliced
      rw [Expr.evaluate_slice] at sliced
      obtain ⟨whole, evaluated, cut⟩ := bind_result_eq_ok.mp sliced
      exact (makes whole evaluated).cut cut

/-- Extensions that keep selections keep them together. -/
theorem Extension.makes_adjustAll {extensions : List Extension}
    (keep : ∀ extension ∈ extensions, extension.KeepsSelections) {name : String}
    {arguments : ArgumentSet} {expr : Expr} {supply : Nat} {provider : Provider}
    {env : Environment} {members : List (String × Value) → Prop} {isList : Bool}
    (makes : expr.Makes provider env members isList) :
    (adjustAll afterSelection name arguments extensions expr supply).1.Makes provider env
      members isList := by
  induction extensions generalizing expr supply with
  | nil => exact makes
  | cons first rest ih =>
    simp only [adjustAll, List.foldlM_cons, Drawing.run_bind]
    exact ih (fun extension inside => keep extension (by simp [inside]))
      (keep first (by simp) name arguments expr supply provider env members isList makes)

/-! ## Members one by one -/

/-- Named values under certain names, each of them once, of which each is as a predicate
    says. -/
structure Arranged (names : List String) (fits : String → Value → Prop)
    (pairs : List (String × Value)) : Prop where
  distinct : (pairs.map Prod.fst).Nodup
  named : ∀ name, name ∈ pairs.map Prod.fst ↔ name ∈ names
  fits : ∀ name value, (name, value) ∈ pairs → fits name value

/-- The members of an evaluated object are the values of its fields, in order. -/
theorem Expr.forall₂_of_evaluateFields {provider : Provider} {env : Environment}
    {members : List (String × Expr)} {pairs : List (String × Value)}
    (evaluated : (evaluateFields provider members env).result = .ok pairs) :
    List.Forall₂ (fun member pair => pair.1 = member.1 ∧
      (member.2.evaluate provider env).result = .ok pair.2) members pairs := by
  induction members generalizing pairs with
  | nil =>
    obtain rfl := Except.ok.inj evaluated
    exact .nil
  | cons head rest ih =>
    obtain ⟨name, expr⟩ := head
    simp only [evaluateFields] at evaluated
    obtain ⟨value, own, later⟩ := bind_result_eq_ok.mp evaluated
    obtain ⟨others, tail, joined⟩ := bind_result_eq_ok.mp later
    obtain rfl := Except.ok.inj joined
    exact .cons ⟨rfl, own⟩ (ih tail)

/-- Related lists of which the second keeps the names of the first have the same names. -/
theorem names_of_forall₂ {α β : Type} {related : String × α → String × β → Prop}
    {first : List (String × α)} {second : List (String × β)}
    (each : List.Forall₂ related first second)
    (named : ∀ left right, related left right → right.1 = left.1) :
    second.map Prod.fst = first.map Prod.fst := by
  induction each with
  | nil => rfl
  | cons head _ ih => rw [List.map_cons, List.map_cons, ih, named _ _ head]

/-- The first contribution of each name has values as a predicate says, wherever it is
    evaluated. -/
def Contributions.Fit (contributions : Contributions) (provider : Provider)
    (fits : String → Value → Prop) : Prop :=
  ∀ name expr, Members.value? contributions name = some expr → ∀ env value,
    (expr.evaluate provider env).result = .ok value → fits name value

/-- The members of an evaluated object of first contributions are arranged as the first
    contribution of each name is. -/
theorem Contributions.Fit.arranged {provider : Provider} {env : Environment}
    {contributions : Contributions} {fits : String → Value → Prop} {pairs : List (String × Value)}
    (fit : contributions.Fit provider fits)
    (evaluated : (Expr.evaluateFields provider (Members.firsts contributions) env).result =
      .ok pairs) : Arranged (contributions.map Prod.fst) fits pairs := by
  have values := Expr.forall₂_of_evaluateFields evaluated
  have names : pairs.map Prod.fst = (Members.firsts contributions).names :=
    names_of_forall₂ values fun _ _ related => related.1
  have distinct := Members.distinct_firsts contributions
  refine ⟨names ▸ distinct, fun name => ?_, fun name value inside => ?_⟩
  · rw [names, ← Members.value?_isSome_iff, Members.value?_firsts, Members.value?_isSome_iff]
    rfl
  · obtain ⟨⟨own, expr⟩, listed, same, valued⟩ := exists_of_mem_forall₂ values inside
    obtain rfl : name = own := same
    refine fit name expr ?_ env value valued
    rw [← Members.value?_firsts]
    exact Members.value?_of_mem distinct listed

namespace Outline

/-! ## Layout by the first field of each name -/

mutual

/-- Whether a value may stand under a name where an outline is the first that shows anything
    under it: made of objects of the outline's own members, if the outline selects members and
    no hook puts something else in their place. -/
def Lays : Outline → String → Value → Prop
  | .scalar _, _, _ => True
  | .selection field _ isList children, _, value =>
    (∀ extension ∈ field.extensions, extension.KeepsSelections) →
      value.MadeOf (Arranged (visibleAll children) (LaysFirst children)) isList
  | .spread _ fields, name, value => LaysFirst fields name value
  | .endless, _, _ => True

/-- Whether a value may stand under a name that some outlines show: the first of them that
    shows the name lays it out. -/
def LaysFirst : List Outline → String → Value → Prop
  | [], _, _ => False
  | first :: rest, name, value =>
    if name ∈ first.visible then first.Lays name value else LaysFirst rest name value

end

/-- Named values that are laid out by some outlines: just the names that are visible, each
    once, under each what the first outline that shows it lays out. -/
def LaysAll (outlines : List Outline) (pairs : List (String × Value)) : Prop :=
  Arranged (visibleAll outlines) (LaysFirst outlines) pairs

variable {outlines : List Outline} {options : PassOptions} {base? : Option Placeholder}
  {provider : Provider} {supply : Nat}

/-- A pass that leaves nothing out contributes the visible names of some outlines. -/
theorem names_of_whole (whole : options.leavingOut = false) :
    (contributeAll options base? outlines supply).1.map Prod.fst = visibleAll outlines :=
  names_contributeAll (fun outline _ => names_contribute outline base? (.inl whole)) supply

/-- The first contribution of a name comes from the first outline that shows it. -/
theorem fit_contributeAll (whole : options.leavingOut = false)
    (each : ∀ outline ∈ outlines, ∀ supply,
      (outline.contribute options base? supply).1.Fit provider outline.Lays) :
    (contributeAll options base? outlines supply).1.Fit provider (LaysFirst outlines) := by
  induction outlines generalizing supply with
  | nil =>
    intro name expr found
    cases found
  | cons first rest ih =>
    intro name expr found env value evaluated
    simp only [contributeAll, Drawing.run_bind, Drawing.run_pure, Members.value?_append] at found
    have names := names_contribute first base? (.inl whole) supply
    have shown : name ∈ first.visible ↔
        (Members.value? (first.contribute options base? supply).1 name).isSome = true := by
      rw [Members.value?_isSome_iff, ← names]
      rfl
    simp only [LaysFirst]
    cases own : Members.value? (first.contribute options base? supply).1 name with
    | some other =>
      rw [own, Option.some_or] at found
      rw [if_pos (by simp [shown, own])]
      exact each first (by simp) supply name expr (own.trans found) env value evaluated
    | none =>
      rw [own, Option.none_or] at found
      rw [if_neg (by simp [shown, own])]
      exact ih (fun outline inside => each outline (by simp [inside])) name expr found env value
        evaluated

/-- An object of first contributions is laid out by the outlines that contribute. -/
theorem laysAll_of_evaluateFields {env : Environment} {pairs : List (String × Value)}
    (whole : options.leavingOut = false)
    (fit : (contributeAll options base? outlines supply).1.Fit provider (LaysFirst outlines))
    (evaluated : (Expr.evaluateFields provider
      (Members.firsts (contributeAll options base? outlines supply).1) env).result = .ok pairs) :
    LaysAll outlines pairs := by
  have arranged := fit.arranged evaluated
  rwa [names_of_whole whole] at arranged

/-- What an outline contributes to a pass that leaves nothing out is laid out as the outline,
    whatever the pass reads from.

    Proof: induction on the outline. The members of a selection are the first contributions of
    its children, and hooks that keep selections keep what is made of them. -/
theorem fit_contribute (outline : Outline) (whole : options.leavingOut = false)
    (base? : Option Placeholder) (supply : Nat) :
    (outline.contribute options base? supply).1.Fit provider outline.Lays := by
  induction outline using Outline.induction generalizing options base? supply with
  | scalar field =>
    intro name expr found env value evaluated
    simp only [Lays]
  | endless =>
    intro name expr found
    cases found
  | spread field fields each =>
    intro name expr found env value evaluated
    simp only [contribute] at found
    simp only [Lays]
    exact fit_contributeAll whole (fun child inside supply => each child inside whole _ supply)
      name expr found env value evaluated
  | selection field element isList children each =>
    intro name expr found env value evaluated
    simp only [Lays]
    intro keep
    simp only [contribute, whole, Bool.false_and, Bool.false_eq_true, ↓reduceIte,
      Drawing.run_bind] at found
    let source := field.drawSource element isList base? options supply
    let inner : PassOptions := ⟨false, source.1.replacement?, false⟩
    let below := contributeAll inner none children source.2
    have fit : below.1.Fit provider (LaysFirst children) :=
      fit_contributeAll rfl fun child inside supply => each child inside rfl none supply
    have selects (env : Environment) :
        (source.1.select field.name isList (Members.firsts below.1)).Makes provider env
          (LaysAll children) isList := by
      intro value evaluated
      rw [SelectionSource.evaluate_select] at evaluated
      obtain ⟨origin, -, selected⟩ := bind_result_eq_ok.mp evaluated
      exact madeOf_selectFrom (fun item pairs => laysAll_of_evaluateFields rfl fit) selected
    split at found
    · cases found
    · split at found
      all_goals
        simp only [Drawing.run_bind, Drawing.run_pure, Members.value?_cons, Members.value?_nil,
          Option.ite_none_right_eq_some, Option.some.injEq] at found
        obtain ⟨-, rfl⟩ := found
      · exact Extension.makes_adjustAll keep (selects env) value evaluated
      · exact selects env value evaluated

end Outline

namespace SelectionTree

variable {tree : SelectionTree} {supply : Nat} {provider : Provider}

/-! ## Results -/

/-- The object of a pass that leaves nothing out is laid out by the query fields. -/
theorem laysAll_of_operationPass {options : PassOptions} (whole : options.leavingOut = false)
    {env : Environment} {value : Value}
    (evaluated : ((tree.operationPass options supply).1.evaluate provider env).result =
      .ok value) : ∃ pairs, value = .object pairs ∧ Outline.LaysAll tree.queryOutlines pairs := by
  rw [evaluate_operationPass] at evaluated
  obtain ⟨pairs, found, rfl⟩ := map_result_eq_ok.mp evaluated
  have laid : Outline.LaysAll tree.queryOutlines pairs :=
    Outline.laysAll_of_evaluateFields whole
      (Outline.fit_contributeAll whole fun outline _ => outline.fit_contribute whole none) found
  exact ⟨pairs, Value.ofPairs_of_distinct laid.distinct, laid⟩

/-- Whenever a compiled query has a value, it is an object that the query fields lay out.

    Proof: the last stage is a pass that leaves nothing out, whether it reads from source data
    or from what a first stage has stored. -/
theorem laysAll_of_executeWith {root : Value} {supplied : Variables} {answer : Option Value}
    (succeeded : ((tree.compile false supply).1.executeWith root supplied provider).result =
      .ok answer) :
    ∃ pairs, answer = some (.object pairs) ∧ Outline.LaysAll tree.queryOutlines pairs := by
  have last {options : PassOptions} {supply : Nat} {env : Environment}
      (whole : options.leavingOut = false)
      (evaluated : (some <$> (tree.operationPass options supply).1.evaluate provider env).result =
        .ok answer) :
      ∃ pairs, answer = some (.object pairs) ∧ Outline.LaysAll tree.queryOutlines pairs := by
    obtain ⟨value, found, rfl⟩ := map_result_eq_ok.mp evaluated
    obtain ⟨pairs, rfl, laid⟩ := laysAll_of_operationPass whole found
    exact ⟨pairs, rfl, laid⟩
  unfold Query.executeWith at succeeded
  by_cases services : tree.operationHasServices? = some true
  · rw [(runWith_compile_of_staged services supply root supplied.toValue provider).2] at succeeded
    obtain ⟨stored, -, later⟩ := bind_result_eq_ok.mp succeeded
    exact last rfl later
  · rw [runWith_compile_of_single services] at succeeded
    exact last rfl succeeded

/-- The query fields of an acyclic tree compile, and whenever the query has a value it is an
    object that they lay out, the first field of each name deciding at every level: nothing is
    merged. -/
theorem Acyclic.first_field_lays_out (acyclic : tree.Acyclic) (supply : Nat) (root : Value)
    (supplied : Variables) (provider : Provider) :
    tree.compile? false = some (tree.compile false) ∧
      ∀ answer, ((tree.compile false supply).1.executeWith root supplied provider).result =
          .ok answer →
        ∃ pairs, answer = some (.object pairs) ∧ Outline.LaysAll tree.queryOutlines pairs :=
  ⟨acyclic.compile? false, fun _ => laysAll_of_executeWith⟩

/-- A film with its id. -/
def filmDefinition : FieldDefinition :=
  .ofMember "film" ratedFilm

/-- The id of a film. -/
def idDefinition : FieldDefinition :=
  .ofMember "id" (.scalar .id)

/-- One film is selected twice: with its id, and with its title in a fragment. -/
def overlappingCalls : List Call :=
  [⟨.select .operation filmDefinition .empty, none⟩,
    ⟨.select (.field ⟨0⟩) idDefinition .empty, none⟩,
    ⟨.declareFragment "Titled" .any, none⟩,
    ⟨.select (.fragment ⟨0⟩) filmDefinition .empty, none⟩,
    ⟨.select (.field ⟨2⟩) titleDefinition .empty, none⟩,
    ⟨.spread .operation "Titled", none⟩]

/-- The tree of the film that is selected twice. -/
def overlappingFilms : SelectionTree where
  root := ⟨0, "ctx", .any⟩
  variablesSlot := ⟨1, "vars", .any⟩
  bound := .empty
  fields := ⟨#[
    { name := "film"
      kind := .object ⟨2, "film", ratedFilm⟩
      expr := .member (.read ⟨0, "ctx", .any⟩) "film" ratedFilm
      context := ⟨0, "ctx", .any⟩
      arguments := ArgumentSet.empty.readVariablesFrom ⟨1, "vars", .any⟩
      children := [⟨1⟩] },
    { name := "id"
      kind := .scalar
      expr := .member (.read ⟨2, "film", ratedFilm⟩) "id" (.scalar .id)
      context := ⟨2, "film", ratedFilm⟩
      arguments := ArgumentSet.empty.readVariablesFrom ⟨1, "vars", .any⟩
      parent? := some ⟨0⟩ },
    { name := "film"
      kind := .object ⟨4, "film", ratedFilm⟩
      expr := .member (.read ⟨3, "Titled", .any⟩) "film" ratedFilm
      context := ⟨3, "Titled", .any⟩
      arguments := ArgumentSet.empty.readVariablesFrom ⟨1, "vars", .any⟩
      children := [⟨3⟩] },
    { name := "title"
      kind := .scalar
      expr := .member (.read ⟨4, "film", ratedFilm⟩) "title" (.scalar .string)
      context := ⟨4, "film", ratedFilm⟩
      arguments := ArgumentSet.empty.readVariablesFrom ⟨1, "vars", .any⟩
      parent? := some ⟨2⟩ },
    spreadField "Titled" ⟨0⟩ ⟨0, "ctx", .any⟩]⟩
  roots := [⟨0⟩, ⟨4⟩]
  fragments := ⟨#[{ name := "Titled", slot := ⟨3, "Titled", .any⟩, fields := [⟨2⟩] }]⟩

/-- The calls lead to the tree. -/
theorem runCalls_overlappingCalls :
    runCalls overlappingCalls (drawSelectionTree .any 0).1 2 = (overlappingFilms, 5) := by
  rfl

/-- Its expansion ends. -/
theorem acyclic_overlappingFilms : overlappingFilms.Acyclic := by
  have tidy := @Tidy.runCalls _ 2 (tidy_drawSelectionTree .any 0) overlappingCalls
  rw [runCalls_overlappingCalls] at tidy
  apply tidy.toPlaced.acyclic_iff_outlines.mpr
  intro address outline outlined
  obtain ⟨_ | _ | _ | _ | _ | index⟩ := address <;> cases outlined <;> decide

/-- A root value with a film. -/
def filmRoot : Value :=
  .object [("film", .object [("id", .string "a"), ("title", .string "Heat")])]

/-- The film of the result is laid out by the first selection of it. -/
theorem first_field_lays_out_overlappingFilms :
    overlappingFilms.Acyclic ∧
      ((overlappingFilms.compile false 5).1.executeWith filmRoot .empty fun _ => none).result =
        .ok (some (.object [("film", .object [("id", .string "a")])])) ∧
      Outline.LaysAll overlappingFilms.queryOutlines
        [("film", .object [("id", .string "a")])] := by
  have succeeded : ((overlappingFilms.compile false 5).1.executeWith filmRoot .empty
      fun _ => none).result = .ok (some (.object [("film", .object [("id", .string "a")])])) := by
    rfl
  obtain ⟨pairs, same, laid⟩ := (acyclic_overlappingFilms.first_field_lays_out 5 filmRoot .empty
    fun _ => none).2 _ succeeded
  obtain rfl := Value.object.inj (Option.some.inj same)
  exact ⟨acyclic_overlappingFilms, succeeded, laid⟩

/-- Selections of one field are not merged: the title of the film is asked for in the fragment
    that is spread beside the film, by the same definition with the same arguments, and it is
    missing from the result. -/
theorem title_dropped_overlappingFilms :
    runCalls overlappingCalls (drawSelectionTree .any 0).1 2 = (overlappingFilms, 5) ∧
      overlappingFilms.Acyclic ∧
      (∃ direct inner spreading element element' children children',
        overlappingFilms.queryOutlines = [.selection direct element false children,
          .spread spreading [.selection inner element' false children']] ∧
        direct.name = inner.name ∧ direct.arguments = inner.arguments ∧
        Outline.visibleAll children = ["id"] ∧ Outline.visibleAll children' = ["title"]) ∧
      ((overlappingFilms.compile false 5).1.executeWith filmRoot .empty fun _ => none).result =
        .ok (some (.object [("film", .object [("id", .string "a")])])) := by
  exact ⟨rfl, acyclic_overlappingFilms, ⟨_, _, _, _, _, _, _, rfl, rfl, rfl, rfl, rfl⟩, by rfl⟩

end SelectionTree

end StagedQuery
