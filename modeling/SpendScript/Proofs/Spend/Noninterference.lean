import Mathlib.Control.Monad.Basic
import SpendScript.Proofs.Spend.Commitment
import SpendScript.Proofs.Spend.Outcome
import SpendScript.Proofs.Spend.SignatureChecks

/-!
# What a verification does not see

A verification sees the parts of a transaction that each signature covers, and the instructions of
one input's script. Main statement: nothing else in the bytes of the transaction has an influence on
the outcome, be it the scripts of other inputs, witnesses, or the spelling of pushes.
-/

namespace SpendScript

variable {tx tx' : Transaction} {input : Nat} {flags : Flags} {script : Script} {stack : Stack}

theorem SigningContext.accepts_of_signedAlike (alike : tx.SignedAlike tx')
    (hi : input < tx.inputs.length) (hi' : input < tx'.inputs.length) :
    (ofScript tx input hi script flags).accepts = (ofScript tx' input hi' script flags).accepts := by
  funext signature publicKey
  exact accepts_congr rfl (alike.signedBytes_eq input _)

namespace Spend

theorem runScript_of_accepts {role : Role} {context context' : SigningContext}
    (same : context.accepts = context'.accepts) :
    runScript role context script stack = runScript role context' script stack := by
  simp only [runScript, same]

/-- A run sees the transaction through the answers of its signature checks alone. -/
theorem runScript_of_signedAlike (alike : tx.SignedAlike tx') (hi : input < tx.inputs.length)
    (hi' : input < tx'.inputs.length) (role : Role) (script : Script) (stack : Stack) :
    runScript role (.ofScript tx input hi script flags) script stack =
      runScript role (.ofScript tx' input hi' script flags) script stack :=
  runScript_of_accepts (SigningContext.accepts_of_signedAlike alike hi hi')

theorem verifyInput_of_signedAlike {spentScript : Bytes} (alike : tx.SignedAlike tx')
    (hi : input < tx.inputs.length) (hi' : input < tx'.inputs.length)
    (h : Script.decode tx.inputs[input].scriptSig = .ok script)
    (h' : Script.decode tx'.inputs[input].scriptSig = .ok script) :
    verifyInput spentScript tx input hi flags = verifyInput spentScript tx' input hi' flags := by
  simp only [verifyInput, finalStack, runScripts, decodeScript, h, h',
    runScript_of_signedAlike alike hi hi']

/-- The outcome depends on what signatures cover and on the instructions of the input's script. -/
theorem outcome_eq_of_signedAlike {spentScript raw raw' : Bytes} {bits : UInt32}
    (parsed : Transaction.parse raw = .ok tx) (parsed' : Transaction.parse raw' = .ok tx')
    (hi : input < tx.inputs.length) (hi' : input < tx'.inputs.length)
    (alike : tx.SignedAlike tx')
    (scripts : (Script.decode tx.inputs[input].scriptSig).toOption =
      (Script.decode tx'.inputs[input].scriptSig).toOption) :
    (Spend.mk spentScript raw input bits).report.outcome =
      (Spend.mk spentScript raw' input bits).report.outcome := by
  simp only [report_outcome, verify]
  cases Flags.ofBits? bits with
  | none => rfl
  | some flags =>
    simp only [parsed, parsed', hi, hi', dite_true]
    cases first : Script.decode tx.inputs[input].scriptSig with
    | error error =>
      cases second : Script.decode tx'.inputs[input].scriptSig with
      | error error' =>
        -- Where decoding stops is not part of the outcome.
        rw [verifyInput_of_undecodable first, verifyInput_of_undecodable second]
        rfl
      | ok script' => simp [first, second, Except.toOption] at scripts
    | ok script =>
      cases second : Script.decode tx'.inputs[input].scriptSig with
      | error error' => simp [first, second, Except.toOption] at scripts
      | ok script' =>
        obtain rfl : script = script' := by
          simpa [first, second, Except.toOption] using scripts
        rw [verifyInput_of_signedAlike alike hi hi' first second]

open SigningContext (checkedSignature)

/-- A valid spend stays so when the push of its signature is spelled in another way, and when the
transaction is written with a witness. -/
theorem outcome_forms_eq :
    (Spend.mk (Script.encode [.push generatorKey, .op .checkSig])
      (Transaction.ofInput (0x3c :: tagged checkedSignature) []).bytes
      0 0x124).report.outcome = .ok () ∧
    (Spend.mk (Script.encode [.push generatorKey, .op .checkSig])
      (Transaction.ofInput (0x4c :: 0x3c :: tagged checkedSignature) [[0xbb]]).bytes
      0 0x124).report.outcome = .ok () := by
  have plain : Transaction.parse
      (Transaction.ofInput (0x3c :: tagged checkedSignature) []).bytes =
        .ok (.ofInput (0x3c :: tagged checkedSignature) []) := by decide +kernel
  have extended : Transaction.parse
      (Transaction.ofInput (0x4c :: 0x3c :: tagged checkedSignature) [[0xbb]]).bytes =
        .ok (.ofInput (0x4c :: 0x3c :: tagged checkedSignature) [[0xbb]]) := by decide +kernel
  have valid : (Spend.mk (Script.encode [.push generatorKey, .op .checkSig])
      (Transaction.ofInput (0x3c :: tagged checkedSignature) []).bytes
      0 0x124).report.outcome = .ok () := by decide +kernel
  refine ⟨valid, Eq.trans (Eq.symm ?_) valid⟩
  exact outcome_eq_of_signedAlike plain extended (by decide) (by decide) ⟨rfl, rfl, rfl, rfl⟩
    (by decide +kernel)

end Spend

end SpendScript
