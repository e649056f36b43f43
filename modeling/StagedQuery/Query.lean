import StagedQuery.Evaluation
import StagedQuery.Selection.Pass

/-!
# Staged queries

A compiled query has one stage or two. The first stage is compiled without
services and runs over the root value; the second runs over the value of the
first, reads what is already there and calls the services for the rest. A tree
that calls no service compiles to one stage.

A query compiled without execution has stages that cannot run, and running it
yields no value.
-/

namespace StagedQuery

/-- An expression together with the placeholders of its root value and, if it reads
    any, of the document variables. -/
structure Executable where
  slot : Placeholder
  variablesSlot? : Option Placeholder
  expr : Expr

namespace Executable

/-- An executable without variables. -/
def ofExpr (slot : Placeholder) (expr : Expr) : Executable :=
  ⟨slot, none, expr⟩

/-- Binds the document variables to a placeholder on every run. -/
def withVariables (executable : Executable) (slot : Placeholder) : Executable :=
  { executable with variablesSlot? := some slot }

/-- The environment of a run. The variables are bound last. -/
def environment (executable : Executable) (root supplied : Value) : Environment :=
  let env : Environment := Environment.bind [] executable.slot root
  match executable.variablesSlot? with
  | some slot => env.bind slot supplied
  | none => env

/-- Runs over a root value with document variables. -/
def runWith (executable : Executable) (root supplied : Value) (provider : Provider) :
    Outcome Value :=
  executable.expr.evaluate provider (executable.environment root supplied)

/-- Runs over a root value; every variable reads as null. -/
def run (executable : Executable) (root : Value) (provider : Provider) : Outcome Value :=
  executable.runWith root .null provider

/-- The summary of an executable: the names of its placeholders. -/
def summary (executable : Executable) : String :=
  let source := match executable.variablesSlot? with
    | some slot => "Some(" ++ Text.quoted slot.name ++ ")"
    | none => "None"
  "Executable \x7b param: " ++ Text.quoted executable.slot.name ++ ", variables: " ++ source
    ++ ", .. \x7d"

end Executable

/-- One compiled stage. -/
structure Stage where
  slot : Placeholder
  expr : Expr
  executable? : Option Executable

/-- Compiles a stage; without execution it has nothing to run. -/
def Stage.compile (slot : Placeholder) (expr : Expr) (variablesSlot : Placeholder)
    (noExecution : Bool) : Stage :=
  { slot, expr
    executable? :=
      if noExecution then none
      else some ((Executable.ofExpr slot expr).withVariables variablesSlot) }

/-- A compiled query. It serves every set of variables. -/
structure Query where
  first : Stage
  second? : Option Stage
  /-- The variables that the tree was built with. -/
  bound : Value

namespace Query

/-- Runs the first stage over the root value and the second stage, if there is one, over
    the value of the first. -/
def runWith (query : Query) (root supplied : Value) (provider : Provider) :
    Outcome (Option Value) :=
  match query.first.executable? with
  | none => pure none
  | some first => do
    let value ← first.runWith root supplied provider
    match query.second?.bind Stage.executable? with
    | some second => some <$> second.runWith value supplied provider
    | none => pure (some value)

/-- Runs with the variables that the tree was built with. -/
def execute (query : Query) (root : Value) (provider : Provider) : Outcome (Option Value) :=
  query.runWith root query.bound provider

/-- Runs with other variables. -/
def executeWith (query : Query) (root : Value) (supplied : Variables) (provider : Provider) :
    Outcome (Option Value) :=
  query.runWith root supplied.toValue provider

end Query

namespace SelectionTree

/-- A query of one or two stages over the variables of a tree. -/
def query (tree : SelectionTree) (noExecution : Bool) (first : Placeholder × Expr)
    (second? : Option (Placeholder × Expr)) : Query :=
  { first := .compile first.1 first.2 tree.variablesSlot noExecution
    second? := second?.map fun second => .compile second.1 second.2 tree.variablesSlot noExecution
    bound := tree.bound.toValue }

/-- Compiles the query fields of an operation. -/
def compile (tree : SelectionTree) (noExecution : Bool) : Drawing Query :=
  if tree.operationHasServices? == some true then do
    let pureExpr ← tree.operationPass .withoutServices
    let merged ← drawPlaceholder "stage1" pureExpr.shape
    let fullExpr ← tree.operationPass (.merging (.read merged))
    pure (tree.query noExecution (tree.root, pureExpr) (some (merged, fullExpr)))
  else do
    let expr ← tree.operationPass .full
    pure (tree.query noExecution (tree.root, expr) none)

/-- Compiles the query fields of an operation, if their outlines come to an end. -/
def compile? (tree : SelectionTree) (noExecution : Bool) : Option (Drawing Query) :=
  if Outline.allFinite false tree.queryOutlines then some (tree.compile noExecution) else none

/-- The expression that a field contributes under its own name in one pass. -/
def ownContribution (outline : Outline) (name : String) (options : PassOptions) :
    Drawing (Option Expr) := do
  let contributions ← outline.contribute options none
  pure ((Members.firsts contributions).value? name)

/-- Compiles the selection of a mutation over the result of its procedure. A selection
    that contributes nothing stands for the result itself. -/
def compileSelection (tree : SelectionTree) (outline : Outline) (name : String)
    (result : Placeholder) (noExecution : Bool) : Drawing Query := do
  let single : Drawing Query := do
    let expr ← ownContribution outline name .full
    pure (tree.query noExecution (result, expr.getD (.read result)) none)
  if outline.hasServices? == some true then
    match ← ownContribution outline name .withoutServices with
    | none => single
    | some pureExpr => do
      let merged ← drawPlaceholder "stage1" pureExpr.shape
      let options : PassOptions := { PassOptions.merging (.read merged) with direct := true }
      let expr ← ownContribution outline name options
      pure (tree.query noExecution (result, pureExpr) (some (merged, expr.getD (.read merged))))
  else single

/-- The selected mutation at an address. -/
def mutation? (tree : SelectionTree) (address : Address) : Except CompileFault MutationSelection :=
  match tree.field? address with
  | none => .error (.notAMutation address.text)
  | some field =>
    match field.kind with
    | .mutation selection => .ok selection
    | _ => .error (.notAMutation field.name)

/-- Compiles the selection of the mutation at an address. -/
def compileMutation (tree : SelectionTree) (address : Address) (noExecution : Bool) :
    Drawing (Except CompileFault Query) :=
  match tree.mutation? address, tree.outline? address with
  | .error fault, _ => pure (.error fault)
  | .ok selection, some outline =>
    .ok <$> tree.compileSelection outline selection.mutation.name selection.result noExecution
  | .ok _, none => pure (.error (.notAMutation address.text))

/-- Compiles the selection of the mutation at an address, if its outline comes to an end. -/
def compileMutation? (tree : SelectionTree) (address : Address) (noExecution : Bool) :
    Option (Drawing (Except CompileFault Query)) :=
  if ((tree.outline? address).map (Outline.isFinite false)).getD true then
    some (tree.compileMutation address noExecution)
  else none

end SelectionTree

end StagedQuery
