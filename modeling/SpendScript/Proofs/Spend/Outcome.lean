import SpendScript.Proofs.Machine.Evaluation
import SpendScript.Proofs.Spend.Stages

/-!
# What callers see of a verification

Callers are told the kind of a failure, and of a script's failure the error, but not where it
happened. `Spend.inputOutcome` is what they see of one input. Main statement: past the two rules on
the script of the input it is told by what the stages show, one after the other.
-/

namespace SpendScript

def Rejection.ofScript (error : ScriptError) : Rejection where
  code := .script
  scriptError? := some error

namespace Spend

variable {tx : Transaction} {flags : Flags} {stack : Stack}

theorem report_outcome (spend : Spend) :
    spend.report.outcome = spend.verify.mapError Failure.rejection := by
  unfold report
  cases spend.verify <;> rfl

theorem report_outcome_eq_ok {spend : Spend} :
    spend.report.outcome = .ok () ↔ spend.verify = .ok () := by
  rw [report_outcome, Except.mapError_eq_ok]

theorem report_outcome_of_error {spend : Spend} {failure : Failure}
    (failed : spend.verify = .error failure) :
    spend.report.outcome = .error failure.rejection := by
  rw [report_outcome, failed]
  rfl

theorem report_congr {spend other : Spend} (input : other.input = spend.input)
    (same : other.verify = spend.verify) : other.report = spend.report := by
  simp only [report, input, same]

/-- What is seen of the decoding of a script: where it stops is not told. -/
def decodeOutcome (bytes : Bytes) : Except Rejection Script :=
  (Script.decode bytes).mapError fun _ => .ofScript .badOpcode

def evalOutcome (context : SigningContext) (script : Script) (stack : Stack) :
    Except Rejection Stack :=
  (script.eval (some context.accepts) stack).mapError .ofScript

def judgeOutcome (flags : Flags) (stack : Stack) : Except Rejection Unit :=
  if !stack.head?.any isTruthy then .error (.ofScript .evalFalse)
  else if flags.cleanStack && stack.length != 1 then .error (.ofScript .cleanStack)
  else .ok ()

/-- What is seen of the verification of an input, once the transaction has been read. -/
def inputOutcome (spentScript : Bytes) (tx : Transaction) (input : Nat)
    (input_lt : input < tx.inputs.length) (flags : Flags) : Except Rejection Unit :=
  (verifyInput spentScript tx input input_lt flags).mapError Failure.rejection

theorem mapError_decodeScript (role : Role) (bytes : Bytes) :
    (decodeScript role bytes).mapError Failure.rejection = decodeOutcome bytes := by
  unfold decodeScript decodeOutcome
  cases Script.decode bytes <;> rfl

theorem mapError_runScript (role : Role) (context : SigningContext) (script : Script)
    (stack : Stack) : (runScript role context script stack).mapError Failure.rejection =
      evalOutcome context script stack := by
  rw [evalOutcome, ← Script.result_run]
  cases halted : (script.run (some context.accepts) stack).halt? with
  | none => simp only [runScript, Machine.result, Machine.error?, halted]; rfl
  | some halt => simp only [runScript, Machine.result, Machine.error?, halted]; rfl

theorem mapError_judge (flags : Flags) (stack : Stack) :
    (judge flags stack).mapError Failure.rejection = judgeOutcome flags stack := by
  unfold judge judgeOutcome
  cases stack with
  | nil => rfl
  | cons top rest =>
    cases truthy : isTruthy top with
    | false => simp only [truthy, List.head?_cons, Option.any_some]; rfl
    | true =>
      simp only [truthy, List.head?_cons, Option.any_some]
      cases flags.cleanStack <;> cases rest <;> rfl

theorem outcome_eq_inputOutcome {spentScript raw : Bytes} {input : Nat} {bits : UInt32}
    (flags_eq : Flags.ofBits? bits = some flags) (parsed : Transaction.parse raw = .ok tx)
    (input_lt : input < tx.inputs.length) :
    (Spend.mk spentScript raw input bits).report.outcome =
      inputOutcome spentScript tx input input_lt flags := by
  rw [report_outcome, inputOutcome,
    @verify_eq_verifyInput ⟨spentScript, raw, input, bits⟩ _ _ flags_eq parsed input_lt]

theorem outcome_congr {spentScript other : Bytes}
    (same : ∀ tx input input_lt flags, inputOutcome spentScript tx input input_lt flags =
      inputOutcome other tx input input_lt flags) (raw : Bytes) (input : Nat) (bits : UInt32) :
    (Spend.mk spentScript raw input bits).report.outcome =
      (Spend.mk other raw input bits).report.outcome := by
  simp only [report_outcome, verify]
  split
  · rfl
  · split
    · rfl
    · split
      next input_lt => exact same _ _ input_lt _
      next => rfl

section

variable {spentScript : Bytes} {input : Nat} {input_lt : input < tx.inputs.length}
  {scriptSig : Script} {error : DecodeError}

theorem decodeOutcome_of_ok {bytes : Bytes} {script : Script} (h : Script.decode bytes = .ok script) :
    decodeOutcome bytes = .ok script := by
  rw [decodeOutcome, h]
  rfl

theorem inputOutcome_of_undecodable
    (undecodable : Script.decode tx.inputs[input].scriptSig = .error error) :
    inputOutcome spentScript tx input input_lt flags = .error (.ofScript .badOpcode) := by
  rw [inputOutcome, verifyInput_of_undecodable undecodable]
  rfl

theorem inputOutcome_of_not_pushOnly
    (decoded : Script.decode tx.inputs[input].scriptSig = .ok scriptSig)
    (asked : flags.sigPushOnly) (executes : ¬ scriptSig.isPushOnly) :
    inputOutcome spentScript tx input input_lt flags = .error (.ofScript .sigPushOnly) := by
  rw [inputOutcome, verifyInput_of_not_pushOnly decoded asked executes]
  rfl

theorem inputOutcome_of_allowed
    (decoded : Script.decode tx.inputs[input].scriptSig = .ok scriptSig)
    (allowed : flags.sigPushOnly → scriptSig.isPushOnly) :
    inputOutcome spentScript tx input input_lt flags = (do
      let scriptPubKey ← decodeOutcome spentScript
      let stack ← evalOutcome (.ofScript tx input input_lt scriptSig flags) scriptSig []
      let stack ← evalOutcome (.ofScript tx input input_lt scriptPubKey flags) scriptPubKey stack
      judgeOutcome flags stack) := by
  rw [inputOutcome, verifyInput_of_allowed decoded allowed]
  simp only [runScripts, bind_assoc, Except.mapError_bind, mapError_decodeScript, mapError_runScript,
    mapError_judge]

end

end Spend

end SpendScript
