import SpendScript.Machine.Step

/-!
# Running a script

A machine carries the stack, how many instructions have succeeded, what the checker was asked, and
where it halted. A halted machine ignores all further instructions, so a run is a fold over the
script, and running two scripts one after the other is running their concatenation.
-/

namespace SpendScript

structure Halt where
  index : Nat
  instruction : Instruction
  error : ScriptError
  deriving DecidableEq, Repr

structure Machine where
  stack : Stack
  executed : Nat := 0
  /-- What the checker was asked, first question first. -/
  queries : Array Query := #[]
  halt? : Option Halt := none
  deriving Repr

namespace Machine

def error? (machine : Machine) : Option ScriptError := machine.halt?.map Halt.error

theorem error?_of_halted {machine : Machine} {halt : Halt} (halted : machine.halt? = some halt) :
    machine.error? = some halt.error :=
  Option.map_eq_some_iff.mpr ⟨halt, halted, rfl⟩

def record (machine : Machine) (instruction : Instruction) (step : Step) : Machine where
  stack := step.stack
  queries :=
    match step.query? with
    | some query => machine.queries.push query
    | none => machine.queries
  executed := if step.error?.isNone then machine.executed + 1 else machine.executed
  halt? := step.error?.map ({ index := machine.executed, instruction, error := · })

theorem error?_record {machine : Machine} {instruction : Instruction} {step : Step} :
    (machine.record instruction step).error? = step.error? := by
  cases found : step.error? <;> simp [error?, record, found]

def advance (checker? : Option Checker) (machine : Machine) (instruction : Instruction) : Machine :=
  if machine.halt?.isSome then machine
  else machine.record instruction (instruction.step checker? machine.stack)

theorem advance_of_halted {checker? : Option Checker} {machine : Machine}
    (halted : machine.halt?.isSome) (instruction : Instruction) :
    machine.advance checker? instruction = machine :=
  if_pos halted

theorem advance_of_running {checker? : Option Checker} {machine : Machine}
    (running : machine.halt? = none) (instruction : Instruction) :
    machine.advance checker? instruction =
      machine.record instruction (instruction.step checker? machine.stack) := by
  rw [advance, running]
  rfl

def resume (checker? : Option Checker) (machine : Machine) (script : Script) : Machine :=
  script.foldl (advance checker?) machine

theorem resume_append (checker? : Option Checker) (machine : Machine) (first second : Script) :
    machine.resume checker? (first ++ second) =
      (machine.resume checker? first).resume checker? second :=
  List.foldl_append

theorem resume_of_halted {checker? : Option Checker} {machine : Machine}
    (halted : machine.halt?.isSome) (script : Script) : machine.resume checker? script = machine := by
  induction script with
  | nil => rfl
  | cons instruction rest ih =>
    rw [resume, List.foldl_cons, advance_of_halted halted]
    exact ih

end Machine

def Script.run (checker? : Option Checker) (script : Script) (stack : Stack) : Machine :=
  Machine.resume checker? { stack } script

/-- Runs scripts with one checker, if any, and remembers why the last run failed. -/
structure Interpreter where
  checker? : Option Checker
  lastError? : Option ScriptError := none

namespace Interpreter

def eval (interpreter : Interpreter) (script : Script) (stack : Stack) : Machine × Interpreter :=
  let final := script.run interpreter.checker? stack
  (final, { interpreter with lastError? := final.error? })

theorem fst_eval (interpreter : Interpreter) (script : Script) (stack : Stack) :
    (interpreter.eval script stack).1 = script.run interpreter.checker? stack := rfl

/-- Runs each instruction as a script of its own, up to and including the first that fails. -/
def trace (interpreter : Interpreter) (stack : Stack) : Script → List Machine × Interpreter
  | [] => ([], interpreter)
  | instruction :: rest =>
    let (final, interpreter) := interpreter.eval [instruction] stack
    match final.error? with
    | some _ => ([final], interpreter)
    | none =>
      let (finals, interpreter) := interpreter.trace final.stack rest
      (final :: finals, interpreter)

end Interpreter

end SpendScript
