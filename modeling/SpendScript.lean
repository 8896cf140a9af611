import SpendScript.Spend.Verify
import SpendScript.Proofs.Except
import SpendScript.Proofs.Script.Spelling
import SpendScript.Proofs.Script.Grammar
import SpendScript.Proofs.Script.RoundTrip
import SpendScript.Proofs.Script.Truncation
import SpendScript.Proofs.Script.Scan
import SpendScript.Proofs.Script.Continuation
import SpendScript.Proofs.Script.Shortest
import SpendScript.Proofs.Script.Subscript
import SpendScript.Proofs.Script.Separators
import SpendScript.Proofs.Script.RawCode
import SpendScript.Proofs.Script.ScriptCode
import SpendScript.Proofs.Script.Text
import SpendScript.Proofs.Transaction.Canonical
import SpendScript.Proofs.Machine.Agreement
import SpendScript.Proofs.Machine.Questions
import SpendScript.Proofs.Machine.Evaluation
import SpendScript.Proofs.Machine.Failures
import SpendScript.Proofs.Machine.Progress
import SpendScript.Proofs.Machine.Depth
import SpendScript.Proofs.Machine.Frame
import SpendScript.Proofs.Machine.Stopped
import SpendScript.Proofs.Machine.Pieces
import SpendScript.Proofs.Machine.WithoutChecker
import SpendScript.Proofs.Machine.Truth
import SpendScript.Proofs.Signature.Narrowing
import SpendScript.Proofs.Spend.Commitment
import SpendScript.Proofs.Spend.ConsensusCode
import SpendScript.Proofs.Spend.SignedText
import SpendScript.Proofs.Spend.Noninterference
import SpendScript.Proofs.Spend.PayToKeyHash
import SpendScript.Proofs.Spend.EveryKey
import SpendScript.Proofs.Spend.SignatureChecks
import SpendScript.Proofs.Spend.OptionalRules
import SpendScript.Proofs.Spend.FirstFailure
import SpendScript.Proofs.Spend.Log
import SpendScript.Proofs.Spend.SpentScript
import SpendScript.Proofs.Spend.InputScript
import SpendScript.Proofs.Spend.PolicyFlags
