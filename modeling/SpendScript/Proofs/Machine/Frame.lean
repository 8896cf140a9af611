import SpendScript.Proofs.Machine.Depth

/-!
# Items below those that a script uses

The top of the stack is its first item, so `stack ++ base` is `stack` on top of `base`. Main
statement: a run that does not fall short of items goes the same way on any base, and leaves the base
as it was.
-/

namespace SpendScript

variable {checker? : Option Checker} {script : Script} {stack : Stack} {instruction : Instruction}

namespace Machine

variable {machine : Machine}

def onto (base : Stack) (machine : Machine) : Machine :=
  { machine with stack := machine.stack ++ base }

theorem advance_onto
    (deep : (machine.advance checker? instruction).error? ≠ some .invalidStackOperation)
    (base : Stack) :
    (machine.onto base).advance checker? instruction =
      (machine.advance checker? instruction).onto base := by
  cases halted : machine.halt? with
  | some halt =>
    have ignores : machine.halt?.isSome := by rw [halted]; rfl
    have ignores_onto : (machine.onto base).halt?.isSome := ignores
    rw [advance_of_halted ignores, advance_of_halted ignores_onto]
  | none =>
    have running : (machine.onto base).halt? = none := halted
    rw [advance_of_running halted, error?_record] at deep
    rw [advance_of_running halted, advance_of_running running]
    show (machine.onto base).record instruction
      (instruction.step checker? (machine.stack ++ base)) = _
    rw [Instruction.step_append deep]
    rfl

theorem resume_onto (deep : (machine.resume checker? script).error? ≠ some .invalidStackOperation)
    (base : Stack) :
    (machine.onto base).resume checker? script = (machine.resume checker? script).onto base := by
  induction script generalizing machine with
  | nil => rfl
  | cons instruction rest ih =>
    -- A machine that has run short stays so, and this one ends otherwise.
    have step_deep :
        (machine.advance checker? instruction).error? ≠ some .invalidStackOperation := by
      intro short
      obtain ⟨halt, halted, -⟩ := Option.map_eq_some_iff.mp short
      have stays : machine.resume checker? (instruction :: rest) =
          machine.advance checker? instruction :=
        resume_of_halted (by rw [halted]; rfl) rest
      exact deep (stays ▸ short)
    rw [resume, List.foldl_cons, advance_onto step_deep]
    exact ih deep

end Machine

namespace Interpreter

variable {interpreter : Interpreter}

/-- A script that does not fall short of items neither reads nor changes what lies below its stack:
the verdict, the questions in their order and what is remembered are the same, and so is the stack
that is left, on top of the base. This holds of failures too. -/
theorem eval_onto_base
    (deep : (interpreter.eval script stack).1.error? ≠ some .invalidStackOperation) (base : Stack) :
    interpreter.eval script (stack ++ base) =
      ((interpreter.eval script stack).1.onto base, (interpreter.eval script stack).2) := by
  have same : script.run interpreter.checker? (stack ++ base) =
      (script.run interpreter.checker? stack).onto base := Machine.resume_onto deep base
  simp only [eval, same]
  rfl

theorem eval_refused_onto_base :
    (eval { checker? := some (.constant false) } [.op .checkSigVerify]
        [[2], tagged [0x30]]).1.error? = some .checkSigVerify ∧
      eval { checker? := some (.constant false) } [.op .checkSigVerify]
          ([[2], tagged [0x30]] ++ [[7]]) =
        ((eval { checker? := some (.constant false) } [.op .checkSigVerify]
            [[2], tagged [0x30]]).1.onto [[7]],
          (eval { checker? := some (.constant false) } [.op .checkSigVerify]
            [[2], tagged [0x30]]).2) :=
  ⟨by decide, eval_onto_base (by decide) [[7]]⟩

end Interpreter

end SpendScript
