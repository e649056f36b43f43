import StagedQuery.Proofs.Selection.Acyclic
import StagedQuery.Proofs.Selection.Shaping

/-!
# Scripts that build trees

A script is what the callers of a tree do, with the variables left open. Run with different
variables it builds alike trees.
-/

namespace StagedQuery.SelectionTree

/-- One operation on a tree. -/
inductive Step where
  | select (owner : Owner) (definition : FieldDefinition) (request : Request)
  | spread (owner : Owner) (name : String)
  | declareFragment (name : String) (shape : Shape)
  | selectMutation (mutation : Mutation) (request : Request)

namespace Step

/-- Performs a step with some variables. -/
def perform (supplied : Variables) (tree : SelectionTree) :
    Step → Drawing (Except CompileFault (Address × SelectionTree))
  | .select owner definition request => tree.select owner definition request (some supplied)
  | .spread owner name => pure (tree.spread owner name)
  | .declareFragment name shape => .ok <$> tree.declareFragment name shape
  | .selectMutation mutation request => tree.selectMutation mutation request (some supplied)

/-- The definition of the field that a step selects. -/
def selects? : Step → Option FieldDefinition
  | .select _ definition _ => some definition
  | _ => none

/-- The tree after a step: a step that is refused leaves the tree as it was. -/
def after (supplied : Variables) (tree : SelectionTree) (step : Step) : Drawing SelectionTree :=
  (fun result => (result.map Prod.snd).toOption.getD tree) <$> step.perform supplied tree

end Step

/-- Runs a script with some variables. -/
def runScript (supplied : Variables) (script : List Step) (tree : SelectionTree) :
    Drawing SelectionTree :=
  script.foldlM (Step.after supplied) tree

/-- Builds a tree by a script. -/
def build (shape : Shape) (script : List Step) (supplied : Variables) : Drawing SelectionTree := do
  let empty ← drawSelectionTree shape
  runScript supplied script empty

/-- No selection of a field is refused while a script is run. -/
def Selects (supplied : Variables) : List Step → SelectionTree → Nat → Prop
  | [], _, _ => True
  | step :: rest, tree, supply =>
    (step.selects?.isSome = true → ∃ added, (step.perform supplied tree supply).1 = .ok added) ∧
      Selects supplied rest (step.after supplied tree supply).1 (step.after supplied tree supply).2

variable {supplied supplied' : Variables} {script : List Step} {tree first second : SelectionTree}
  {supply : Nat} {practice : Practice}

/-! ## Alike runs -/

/-- Results on alike trees lead to alike trees. -/
theorem AlikeResults.after (alike : first.Alike second)
    {result result' : Except CompileFault (Address × SelectionTree)}
    (results : AlikeResults result result') :
    ((result.map Prod.snd).toOption.getD first).Alike
      ((result'.map Prod.snd).toOption.getD second) := by
  cases results with
  | refused fault => exact alike
  | grown address grown => exact grown

/-- A step leads from alike trees to alike trees and draws the same. -/
theorem Alike.after (alike : first.Alike second) {step : Step}
    (reads : ∀ definition ∈ step.selects?, definition.ReadsExprs)
    (selects : step.selects?.isSome = true →
      ∃ added, (step.perform supplied first supply).1 = .ok added)
    (selects' : step.selects?.isSome = true →
      ∃ added, (step.perform supplied' second supply).1 = .ok added) :
    (step.after supplied first supply).1.Alike (step.after supplied' second supply).1 ∧
      (step.after supplied' second supply).2 = (step.after supplied first supply).2 := by
  cases step with
  | select owner definition request =>
    obtain ⟨⟨address, grown⟩, selected⟩ := selects rfl
    obtain ⟨⟨address', grown'⟩, selected'⟩ := selects' rfl
    obtain ⟨-, alike, same⟩ := alike.select (reads definition rfl) selected selected'
    simp only [Step.perform] at selected selected'
    simp only [Step.after, Step.perform, Drawing.run_map, selected, selected']
    exact ⟨alike, same⟩
  | spread owner name => exact ⟨(alike.spread owner name).after alike, rfl⟩
  | declareFragment name shape => exact ⟨alike.declareFragment name shape supply, rfl⟩
  | selectMutation mutation request =>
    obtain ⟨results, same⟩ :=
      alike.selectMutation mutation request (some supplied) (some supplied') supply
    exact ⟨results.after alike, same⟩

/-- A script runs step by step, each from the tree and the number that the last one left. -/
theorem runScript_cons (step : Step) (rest : List Step) (supply : Nat) :
    runScript supplied (step :: rest) tree supply =
      runScript supplied rest (step.after supplied tree supply).1
        (step.after supplied tree supply).2 := by
  simp only [runScript, List.foldlM_cons, Drawing.run_bind]

/-- A script that is run with different variables builds alike trees and draws the same. -/
theorem Alike.runScript (alike : first.Alike second)
    (reads : ∀ step ∈ script, ∀ definition ∈ step.selects?, definition.ReadsExprs)
    (selects : Selects supplied script first supply)
    (selects' : Selects supplied' script second supply) :
    (SelectionTree.runScript supplied script first supply).1.Alike
        (SelectionTree.runScript supplied' script second supply).1 ∧
      (SelectionTree.runScript supplied' script second supply).2 =
        (SelectionTree.runScript supplied script first supply).2 := by
  induction script generalizing first second supply with
  | nil => exact ⟨alike, rfl⟩
  | cons step rest ih =>
    obtain ⟨grown, same⟩ := alike.after (reads step (by simp)) selects.1 selects'.1
    simp only [runScript_cons, same]
    refine ih grown (fun later inside => reads later (by simp [inside])) selects.2 ?_
    rw [← same]
    exact selects'.2

/-! ## What scripts build -/

/-- A step of callers who keep to a practice leads from a built tree to a built tree. -/
theorem Built.after (built : tree.Built practice supply) {step : Step}
    (offered : ∀ definition ∈ step.selects?, practice.offers definition)
    (admitted : ∀ tree owner fragment, practice.admits tree owner fragment)
    (selects : step.selects?.isSome = true →
      ∃ added, (step.perform supplied tree supply).1 = .ok added) :
    (step.after supplied tree supply).1.Built practice (step.after supplied tree supply).2 := by
  cases step with
  | select owner definition request =>
    obtain ⟨⟨address, grown⟩, selected⟩ := selects rfl
    simp only [Step.perform] at selected
    simp only [Step.after, Step.perform, Drawing.run_map, selected]
    exact built.select (offered definition rfl) selected
  | spread owner name =>
    simp only [Step.after, Step.perform, Drawing.run_map, Drawing.run_pure]
    cases spreads : tree.spread owner name with
    | error fault => exact built
    | ok added =>
      obtain ⟨fragment, context, named, -⟩ := spread_ok spreads
      exact built.spread named (admitted tree owner fragment) spreads
  | declareFragment name shape => exact built.declareFragment name shape
  | selectMutation mutation request =>
    simp only [Step.after, Step.perform, Drawing.run_map]
    cases selected : (tree.selectMutation mutation request (some supplied) supply).1 with
    | error fault =>
      obtain ⟨result, element?, -, -, -, drawn⟩ :=
        drawMutation_spec mutation request (some supplied) supply
      simp only [selectMutation_eq, Drawing.run_map, drawn]
      exact built.later (by omega)
    | ok added => exact built.selectMutation selected

/-- What a script of such callers builds is built. -/
theorem Built.runScript (built : tree.Built practice supply)
    (offered : ∀ step ∈ script, ∀ definition ∈ step.selects?, practice.offers definition)
    (admitted : ∀ tree owner fragment, practice.admits tree owner fragment)
    (selects : Selects supplied script tree supply) :
    (runScript supplied script tree supply).1.Built practice
      (runScript supplied script tree supply).2 := by
  induction script generalizing tree supply with
  | nil => exact built
  | cons step rest ih =>
    rw [runScript_cons]
    exact ih (built.after (offered step (by simp)) admitted selects.1)
      (fun later inside => offered later (by simp [inside])) selects.2

/-- An outline of spreads only. -/
inductive Bare : Outline → Prop where
  | spread {field : Field} {fields : List Outline} (below : ∀ child ∈ fields, Bare child) :
      Bare (.spread field fields)
  | endless : Bare .endless

/-- Outlines of which none calls a service call none together. -/
theorem anyServices?_ne {outlines : List Outline}
    (each : ∀ outline ∈ outlines, outline.hasServices? ≠ some true) :
    Outline.anyServices? outlines ≠ some true := by
  induction outlines with
  | nil => simp [Outline.anyServices?]
  | cons first rest ih =>
    have later := ih fun outline inside => each outline (by simp [inside])
    have own := each first (by simp)
    simp only [Outline.anyServices?]
    split
    · exact later
    · exact own

/-- Outlines that contribute nothing one by one contribute nothing together. -/
theorem contributeAll_eq_nil {options : PassOptions} {base? : Option Placeholder}
    {outlines : List Outline}
    (each : ∀ outline ∈ outlines, outline.contribute options base? = pure []) :
    Outline.contributeAll options base? outlines = pure [] := by
  induction outlines with
  | nil => rfl
  | cons first rest ih =>
    have later := ih fun outline inside => each outline (by simp [inside])
    simp only [Outline.contributeAll, each first (by simp), later, pure_bind, List.append_nil]

/-- An outline of spreads only calls no service. -/
theorem Bare.hasServices? {outline : Outline} (bare : Bare outline) :
    outline.hasServices? ≠ some true := by
  induction bare with
  | endless => simp [Outline.hasServices?]
  | spread below ih => exact anyServices?_ne ih

/-- An outline of spreads only contributes nothing. -/
theorem Bare.contribute {outline : Outline} (bare : Bare outline) (options : PassOptions)
    (base? : Option Placeholder) : outline.contribute options base? = pure [] := by
  induction bare generalizing base? with
  | endless => rfl
  | spread below ih => exact contributeAll_eq_nil fun child inside => ih child inside _

/-- A step whose resolver reads arguments through their expressions only and whose extensions
    are built in. -/
def Step.Plain (step : Step) : Prop :=
  ∀ definition ∈ step.selects?, definition.ReadsExprs ∧
    ∀ extension ∈ definition.extensions, extension.BuiltIn

/-- Callers who select some definitions only and spread anything anywhere. -/
def selecting (offers : FieldDefinition → Prop) : Practice where
  offers := offers

end StagedQuery.SelectionTree
