import StagedQuery.Execution
import StagedQuery.Introspection.Selection
import StagedQuery.Json.Reader
import StagedQuery.SchemaName
import StagedQuery.Proofs.Argument.VariableReads
import StagedQuery.Proofs.Selection.PureStage
import StagedQuery.Proofs.Selection.Staging
import StagedQuery.Proofs.Selection.Staged
import StagedQuery.Proofs.Selection.Calls
import StagedQuery.Proofs.Selection.ClosedStages
import StagedQuery.Proofs.Argument.Alike
import StagedQuery.Proofs.Selection.Alike
import StagedQuery.Proofs.Selection.Script
import StagedQuery.Proofs.Expr.Renaming
import StagedQuery.Proofs.Selection.Parametric
import StagedQuery.Proofs.Selection.Prepared
import StagedQuery.Proofs.Selection.Inlined
import StagedQuery.Proofs.Mutation.Invocation
import StagedQuery.Proofs.Mutation.Execution
import StagedQuery.Proofs.Mutation.Result
import StagedQuery.Proofs.Mutation.Selection
import StagedQuery.Proofs.Selection.Upkeep
import StagedQuery.Proofs.Selection.Layout
import StagedQuery.Proofs.Selection.Answered
import StagedQuery.Proofs.Selection.StoredChains
import StagedQuery.Proofs.Expr.Extraction
import StagedQuery.Proofs.Selection.Reused
import StagedQuery.Proofs.Selection.Detection
import StagedQuery.Proofs.Expr.Untouched
import StagedQuery.Proofs.Argument.Conformance
import StagedQuery.Proofs.Argument.Idempotence
import StagedQuery.Proofs.Selection.Levels
import StagedQuery.Proofs.Argument.Provenance
import StagedQuery.Proofs.Selection.Pipeline
import StagedQuery.Proofs.KeyOrder
import StagedQuery.Proofs.Filtering
import StagedQuery.Proofs.KeyPriority
import StagedQuery.Proofs.Expr.Dependence
import StagedQuery.Proofs.Mutation.Registration
import StagedQuery.Proofs.SortedMembers
import StagedQuery.Proofs.JsonRoundTrip
import StagedQuery.Proofs.Conversion
import StagedQuery.Proofs.Expr.MaximalChains
import StagedQuery.Proofs.Selection.DirectSpreads
