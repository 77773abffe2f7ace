import Formula.Engine.Evaluate
import Formula.Function.Registry
import Formula.Proofs.Engine.Cancelling
import Formula.Proofs.Engine.Comments
import Formula.Proofs.Engine.Handles
import Formula.Proofs.Engine.Indexed
import Formula.Proofs.Engine.LastTrace
import Formula.Proofs.Engine.Literals
import Formula.Proofs.Engine.Membership
import Formula.Proofs.Engine.Modes
import Formula.Proofs.Engine.Numbered
import Formula.Proofs.Engine.Resolved
import Formula.Proofs.Engine.Spelling
import Formula.Proofs.Engine.SyntaxErrors
import Formula.Proofs.Engine.Tracing
import Formula.Proofs.Evaluation.Connectives
import Formula.Proofs.Evaluation.Distinct
import Formula.Proofs.Evaluation.FailingStep
import Formula.Proofs.Evaluation.Find
import Formula.Proofs.Evaluation.ResultKinds
import Formula.Proofs.Evaluation.Sequences
import Formula.Proofs.Evaluation.Substitution
import Formula.Proofs.Expr.Folding
import Formula.Proofs.Expr.RoundTrip
import Formula.Proofs.Expr.Settled
import Formula.Proofs.Object.Dictionaries
import Formula.Proofs.Object.Records
import Formula.Proofs.Token.Coverage
import Formula.Proofs.Token.DecimalComma
import Formula.Proofs.Value.Integers
import Formula.Proofs.Value.Order
