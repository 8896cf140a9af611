import SpendScript.Proofs.Machine.Failures
import SpendScript.Proofs.Machine.Progress

/-!
# What a failing run leaves

A step that fails has either left the stack as it was or taken two items off it, and its error tells
which. Main statement: a run that fails does so at one instruction, whose error tells what is left of
the stack and whether the checker was asked once more.
-/

namespace SpendScript

variable {checker? : Option Checker} {script : Script} {stack : Stack} {error : ScriptError}

/-- How many items are gone from the stack after a step that failed with this error. -/
def ScriptError.itemsTaken : ScriptError → Nat
  | .equalVerify | .checkSigVerify | .sigHashType => 2
  | _ => 0

namespace Step

def errors : List ScriptError :=
  [.invalidStackOperation, .badOpcode, .noSigningContext, .equalVerify, .checkSigVerify,
    .sigHashType]

variable {step : Step}

theorem Failed.error_mem_errors (h : Failed checker? stack step)
    (found : step.error? = some error) : error ∈ errors := by
  cases h <;> cases found <;> decide

theorem Failed.itemsTaken_le (h : Failed checker? stack step) (found : step.error? = some error) :
    error.itemsTaken ≤ stack.length := by
  cases h with
  | badOpcode | tooShallow | noChecker => cases found; exact Nat.zero_le _
  | unequal | untagged | refused => cases found; exact Nat.le_add_left 2 _

theorem Failed.stack_eq (h : Failed checker? stack step) (found : step.error? = some error) :
    step.stack = stack.drop error.itemsTaken := by
  cases h <;> cases found <;> rfl

theorem Failed.query?_cases (h : Failed checker? stack step) (found : step.error? = some error) :
    (error = .checkSigVerify ∧ ∃ signature publicKey,
        step.query? = some { signature, publicKey, answer := false }) ∨
      (error ≠ .checkSigVerify ∧ step.query? = none) := by
  cases h with
  | refused => cases found; exact .inl ⟨rfl, _, _, rfl⟩
  | _ => cases found; exact .inr ⟨nofun, rfl⟩

end Step

namespace Interpreter

variable {interpreter : Interpreter}

/-- A run that fails comes to one instruction that fails. What follows it has no part in the result,
the error is also the one that is remembered, and it tells what the instruction took off the stack and
whether it asked. -/
theorem eval_failed (failed : (interpreter.eval script stack).1.error? = some error) :
    ∃ k before instruction,
      script.StopsAt interpreter.checker? stack k before instruction error ∧
      (∀ rest, interpreter.eval (script.take (k + 1) ++ rest) stack =
        interpreter.eval script stack) ∧
      (interpreter.eval script stack).2.lastError? = some error ∧
      error ∈ Step.errors ∧
      error.itemsTaken ≤ before.stack.length ∧
      (interpreter.eval script stack).1.stack = before.stack.drop error.itemsTaken ∧
      ((error = .checkSigVerify ∧ ∃ signature publicKey, (interpreter.eval script stack).1.queries =
          before.queries.push { signature, publicKey, answer := false }) ∨
        (error ≠ .checkSigVerify ∧
          (interpreter.eval script stack).1.queries = before.queries)) := by
  obtain ⟨k, before, instruction, stops⟩ := Script.error?_run_eq_some.mp failed
  have fails := Instruction.failed_of_step stops.fails
  refine ⟨k, before, instruction, stops, fun rest => ?_, failed, fails.error_mem_errors stops.fails,
    fails.itemsTaken_le stops.fails, ?_, ?_⟩
  · have same : Script.run interpreter.checker? (script.take (k + 1) ++ rest) stack =
        script.run interpreter.checker? stack :=
      (stops.run_take_append rest).trans stops.run_eq.symm
    simp only [eval, same]
  · rw [fst_eval, stops.run_eq]
    exact fails.stack_eq stops.fails
  · simp only [fst_eval, stops.run_eq]
    rcases fails.query?_cases stops.fails with
      ⟨refused, signature, publicKey, asked⟩ | ⟨other, silent⟩
    · exact .inl ⟨refused, signature, publicKey, by simp [Machine.record, asked]⟩
    · exact .inr ⟨other, by simp [Machine.record, silent]⟩

def untaggedCheck : Script := [.push [7], .push [0x30], .push [2], .op .checkSig, .op .dup]

/-- Without its tag the signature is gone from the stack, and the key with it. -/
theorem eval_untagged_failed :
    (eval { checker? := some (.constant true) } untaggedCheck []).1.error? = some .sigHashType ∧
      ∃ before, untaggedCheck.StopsAt (some (.constant true)) [] 3 before (.op .checkSig)
          .sigHashType ∧
        (eval { checker? := some (.constant true) } untaggedCheck []).1.stack =
          before.stack.drop 2 := by
  have failed : (eval { checker? := some (.constant true) } untaggedCheck []).1.error? =
      some .sigHashType := by decide
  have halted : (untaggedCheck.run (some (.constant true)) []).halt? =
      some { index := 3, instruction := .op .checkSig, error := .sigHashType } := by decide
  obtain ⟨k, before, instruction, stops, -, -, -, -, left, -⟩ := eval_failed failed
  cases stops.halt?_run.symm.trans halted
  exact ⟨failed, before, stops, left⟩

end Interpreter

end SpendScript
