import Mathlib.Data.Nat.Find
import SpendScript.Proofs.Machine.Depth

/-!
# A run without a checker

Only a signature check that finds a key and a signature on the stack needs a checker. Main statement:
a run depends on its checker only through the answers, and without a checker it is the same run, cut
at the first instruction that needs one.
-/

namespace SpendScript

variable {checker : Checker} {checker? other? : Option Checker} {script : Script} {stack : Stack}
  {instruction : Instruction} {machine : Machine} {i : Nat}

namespace Instruction

/-- A signature check, with two items on the stack for it. -/
def NeedsChecker (instruction : Instruction) (stack : Stack) : Prop :=
  (instruction = .op .checkSig ∨ instruction = .op .checkSigVerify) ∧ 2 ≤ stack.length

theorem NeedsChecker.step_none (needs : instruction.NeedsChecker stack) :
    instruction.step none stack = .fail .noSigningContext stack := by
  obtain ⟨check, enough⟩ := needs
  obtain ⟨publicKey, item, rest, rfl⟩ := Stack.exists_two enough
  rcases check with rfl | rfl <;> rfl

theorem step_eq_of_not_needsChecker (silent : ¬ instruction.NeedsChecker stack) :
    instruction.step checker? stack = instruction.step other? stack := by
  cases instruction with
  | push data => rfl
  | unknown byte => rfl
  | op opcode =>
    cases opcode with
    | checkSig =>
      have short : stack.length < need (.op .checkSig) :=
        Nat.lt_of_not_le fun enough => silent ⟨.inl rfl, enough⟩
      rw [step_of_short short, step_of_short short]
    | checkSigVerify =>
      have short : stack.length < need (.op .checkSigVerify) :=
        Nat.lt_of_not_le fun enough => silent ⟨.inr rfl, enough⟩
      rw [step_of_short short, step_of_short short]
    | _ => rcases stack with _ | ⟨first, _ | ⟨second, rest⟩⟩ <;> rfl

end Instruction

namespace Script

def NeedsCheckerAt (checker : Checker) (script : Script) (stack : Stack) (i : Nat)
    (machine : Machine) : Prop :=
  script.Reaches (some checker) stack i machine ∧
    ∃ instruction, script[i]? = some instruction ∧ instruction.NeedsChecker machine.stack

theorem Reaches.step_none (h : script.Reaches (some checker) stack i machine)
    (holds : script[i]? = some instruction)
    (silent : ¬ script.NeedsCheckerAt checker stack i machine) :
    instruction.step none machine.stack = instruction.step (some checker) machine.stack :=
  Instruction.step_eq_of_not_needsChecker fun needs => silent ⟨h, instruction, holds, needs⟩

theorem Reaches.without_checker (h : script.Reaches (some checker) stack i machine)
    (silent : ∀ j < i, ∀ earlier, ¬ script.NeedsCheckerAt checker stack j earlier) :
    script.Reaches none stack i machine := by
  induction h with
  | start => exact .start
  | next reached holds succeeds ih =>
    rw [← reached.step_none holds (silent _ (Nat.lt_succ_self _) _)] at succeeds ⊢
    exact .next (ih fun j before => silent j (Nat.lt_succ_of_lt before)) holds succeeds

theorem run_none_of_unneeded
    (silent : ∀ i machine, ¬ script.NeedsCheckerAt checker stack i machine) :
    script.run none stack = script.run (some checker) stack := by
  rcases reaches_end_or_stops (some checker) script stack with
    ended | ⟨i, machine, instruction, error, stops⟩
  · have same := (ended.without_checker fun j _ => silent j).run_take
    rwa [List.take_length] at same
  · -- An instruction that needs no checker fails without one as it does with one.
    have same := stops.reached.step_none stops.holds (silent i machine)
    have stops_without : script.StopsAt none stack i machine instruction error :=
      ⟨stops.reached.without_checker fun j _ => silent j, stops.holds, same ▸ stops.fails⟩
    rw [stops_without.run_eq, stops.run_eq, same]

theorem run_none_of_needsCheckerAt (needs : script.NeedsCheckerAt checker stack i machine)
    (first : ∀ j < i, ∀ earlier, ¬ script.NeedsCheckerAt checker stack j earlier) :
    ∃ instruction, script[i]? = some instruction ∧ script.run none stack =
      { machine with halt? := some { index := i, instruction, error := .noSigningContext } } := by
  obtain ⟨reached, instruction, holds, needs⟩ := needs
  have stops : script.StopsAt none stack i machine instruction .noSigningContext :=
    ⟨reached.without_checker first, holds, by rw [needs.step_none]; rfl⟩
  refine ⟨instruction, holds, ?_⟩
  rw [stops.run_eq, needs.step_none, ← reached.executed]
  rfl

/-- A checker matters only through what it answers to the questions that it is asked, and having none
only from the first instruction that needs one: there the run fails, with the stack as it was. -/
theorem run_determined_by_answers (script : Script) (stack : Stack) (checker : Checker) :
    (∀ other : Checker,
      (∀ query ∈ (script.run (some checker) stack).queries,
        checker query.signature query.publicKey = other query.signature query.publicKey) →
      script.run (some other) stack = script.run (some checker) stack) ∧
    ((∀ i machine, ¬ script.NeedsCheckerAt checker stack i machine) →
      script.run none stack = script.run (some checker) stack) ∧
    ((∃ i machine, script.NeedsCheckerAt checker stack i machine) →
      ∃ i machine instruction, script.NeedsCheckerAt checker stack i machine ∧
        (∀ j < i, ∀ earlier, ¬ script.NeedsCheckerAt checker stack j earlier) ∧
        script[i]? = some instruction ∧
        script.run none stack =
          { machine with
            halt? := some { index := i, instruction, error := .noSigningContext } }) := by
  refine ⟨fun other agree => ?_, run_none_of_unneeded, fun exists_need => ?_⟩
  · exact run_eq_of_answeredBy fun query mem =>
      (agree query mem).symm.trans (answeredBy_of_mem_run query mem)
  · classical
    obtain ⟨machine, needs⟩ := Nat.find_spec exists_need
    have first : ∀ j < Nat.find exists_need, ∀ earlier,
        ¬ script.NeedsCheckerAt checker stack j earlier :=
      fun j before earlier needs => Nat.find_min exists_need before ⟨earlier, needs⟩
    obtain ⟨instruction, holds, cut⟩ := run_none_of_needsCheckerAt needs first
    exact ⟨_, machine, instruction, needs, first, holds, cut⟩

example : (run none [.op .dup, .op .checkSigVerify, .push [1]] [[2], tagged [0x30]]).halt? =
      some { index := 1, instruction := .op .checkSigVerify, error := .noSigningContext } ∧
    (run none [.op .dup, .op .checkSigVerify, .push [1]] [[2], tagged [0x30]]).stack =
      [[2], [2], tagged [0x30]] := by
  constructor <;> decide

end Script

end SpendScript
