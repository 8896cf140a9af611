import Mathlib.Data.List.Induction
import SpendScript.Proofs.Machine.Agreement

/-!
# Where a run asks

A run puts a question to its checker only where it comes to a signature check. `Script.AsksAt` names
the position. Main statement: the questions that a run records are those that it puts at the positions
of its script.
-/

namespace SpendScript

variable {checker? : Option Checker} {script : Script} {stack : Stack} {instruction : Instruction}
  {query : Query} {i : Nat}

theorem Instruction.isSignatureCheck_of_asks
    (asks : (instruction.step checker? stack).query? = some query) :
    instruction.isSignatureCheck := by
  cases instruction with
  | push data => cases asks
  | unknown byte => cases asks
  | op opcode =>
    cases opcode with
    | checkSig | checkSigVerify | checkMultiSig | checkMultiSigVerify => rfl
    | equalVerify =>
      rcases stack with _ | ⟨first, _ | ⟨second, rest⟩⟩
      · cases asks
      · cases asks
      · simp only [step, Opcode.step] at asks
        split at asks <;> cases asks
    | _ => rcases stack with _ | ⟨first, _ | ⟨second, rest⟩⟩ <;> cases asks

theorem Machine.mem_queries_advance_iff {machine : Machine} :
    query ∈ (machine.advance checker? instruction).queries ↔ query ∈ machine.queries ∨
      machine.halt? = none ∧ (instruction.step checker? machine.stack).query? = some query := by
  unfold advance
  split
  next halted =>
    have running : machine.halt? ≠ none := Option.isSome_iff_ne_none.mp halted
    simp only [running, false_and, or_false]
  next running => simp only [mem_queries_record, Option.not_isSome_iff_eq_none.mp running, true_and]

namespace Script

theorem run_concat (checker? : Option Checker) (script : Script) (instruction : Instruction)
    (stack : Stack) : run checker? (script ++ [instruction]) stack =
      (script.run checker? stack).advance checker? instruction :=
  Machine.resume_append ..

/-- Running the script comes to position `i`, and the instruction there puts the question. -/
def AsksAt (checker? : Option Checker) (script : Script) (stack : Stack) (i : Nat)
    (query : Query) : Prop :=
  ∃ instruction, script[i]? = some instruction ∧
    (run checker? (script.take i) stack).halt? = none ∧
    (instruction.step checker? (run checker? (script.take i) stack).stack).query? = some query

theorem AsksAt.exists_check (asks : script.AsksAt checker? stack i query) :
    ∃ instruction, script[i]? = some instruction ∧ instruction.isSignatureCheck := by
  obtain ⟨instruction, holds, -, asks⟩ := asks
  exact ⟨instruction, holds, Instruction.isSignatureCheck_of_asks asks⟩

theorem asksAt_concat : AsksAt checker? (script ++ [instruction]) stack i query ↔
    script.AsksAt checker? stack i query ∨ i = script.length ∧
      (script.run checker? stack).halt? = none ∧
      (instruction.step checker? (script.run checker? stack).stack).query? = some query := by
  unfold AsksAt
  rcases Nat.lt_trichotomy i script.length with before | rfl | after
  · simp [List.getElem?_append_left before, List.take_append_of_le_length (Nat.le_of_lt before),
      Nat.ne_of_lt before]
  · simp
  · have outside : (script ++ [instruction])[i]? = none := by simp; omega
    have outside' : script[i]? = none := by simp; omega
    simp [outside, outside', Nat.ne_of_gt after]

theorem mem_queries_run :
    query ∈ (script.run checker? stack).queries ↔ ∃ i, script.AsksAt checker? stack i query := by
  induction script using List.reverseRecOn with
  | nil => simp [run, Machine.resume, AsksAt]
  | append_singleton script instruction ih =>
    simp only [run_concat, Machine.mem_queries_advance_iff, asksAt_concat, exists_or, ih,
      exists_eq_left]

end Script

end SpendScript
