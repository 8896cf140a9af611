import SpendScript.Proofs.Script.Separators
import SpendScript.Proofs.Script.Spelling
import SpendScript.Machine.Run

/-!
# What a run comes to

Of a run, what follows sees the stack that it leaves, or the error that it stopped at. `Script.eval`
gives this instruction by instruction. Main statements: it is what a run of the machine comes to, and
executing a code separator has no part in it.
-/

namespace SpendScript

variable {checker? : Option Checker} {checker : Checker} {script : Script} {stack : Stack}
  {instruction : Instruction} {error : ScriptError}

namespace Step

def result (step : Step) : Except ScriptError Stack :=
  match step.error? with
  | some error => .error error
  | none => .ok step.stack

theorem result_eq_error {step : Step} : step.result = .error error ↔ step.error? = some error := by
  unfold result
  split
  next found => simp [found]
  next none => simp [none]

theorem result_ofSignatureCheck (publicKey item : Bytes) (rest : Stack)
    (settle : Bool → Step) :
    (ofSignatureCheck (some checker) publicKey item rest settle).result =
      match untag? item with
      | none => .error .sigHashType
      | some signature => (settle (checker signature publicKey)).result := by
  unfold ofSignatureCheck
  cases untag? item <;> rfl

end Step

namespace Script

/-- The stack that a script leaves, or the error that it stops at. Each instruction goes on from the
stack that the one before it left. -/
def eval (checker? : Option Checker) (script : Script) (stack : Stack) :
    Except ScriptError Stack :=
  script.foldlM (fun stack instruction => (instruction.step checker? stack).result) stack

@[simp] theorem eval_nil : eval checker? [] stack = .ok stack := rfl

theorem eval_cons : eval checker? (instruction :: script) stack =
    (instruction.step checker? stack).result >>= script.eval checker? :=
  List.foldlM_cons

theorem eval_push (data : Bytes) :
    eval checker? (.push data :: script) stack = script.eval checker? (data :: stack) := rfl

theorem eval_map_push (items : List Bytes) :
    eval checker? (items.map .push) stack = .ok (items.reverse ++ stack) := by
  induction items generalizing stack with
  | nil => rfl
  | cons data rest ih => simp [eval_push, ih]

theorem eval_withoutSeparators :
    script.withoutSeparators.eval checker? stack = script.eval checker? stack := by
  induction script generalizing stack with
  | nil => rfl
  | cons instruction rest ih =>
    cases separator : instruction.isCodeSeparator with
    | true =>
      obtain rfl := Instruction.isCodeSeparator_iff.mp separator
      exact ih
    | false =>
      have kept : withoutSeparators (instruction :: rest) =
          instruction :: withoutSeparators rest := by
        rw [withoutSeparators, List.filter_cons_of_pos (by rw [separator]; rfl)]
        rfl
      rw [kept, eval_cons, eval_cons]
      congr 1
      funext next
      exact ih

end Script

def Machine.result (machine : Machine) : Except ScriptError Stack :=
  match machine.error? with
  | some error => .error error
  | none => .ok machine.stack

theorem Machine.result_eq_error {machine : Machine} :
    machine.result = .error error ↔ machine.error? = some error := by
  unfold result
  split
  next found => simp [found]
  next none => simp [none]

theorem Machine.result_resume {machine : Machine} (running : machine.halt? = none) :
    (machine.resume checker? script).result = script.eval checker? machine.stack := by
  induction script generalizing machine with
  | nil =>
    have unfailed : machine.error? = none := by rw [error?, running]; rfl
    simp [resume, result, unfailed]
  | cons instruction rest ih =>
    rw [resume, List.foldl_cons, advance_of_running running, Script.eval_cons]
    cases found : (instruction.step checker? machine.stack).error? with
    | some error =>
      rw [Step.result_eq_error.mpr found]
      have halted : (machine.record instruction
          (instruction.step checker? machine.stack)).halt?.isSome := by simp [record, found]
      show (Machine.resume checker? _ rest).result = _
      rw [resume_of_halted halted]
      exact result_eq_error.mpr (error?_record.trans found)
    | none =>
      have left : (instruction.step checker? machine.stack).result =
          .ok (instruction.step checker? machine.stack).stack := by simp [Step.result, found]
      rw [left]
      exact ih (by simp [record, found])

/-- A run of the machine comes to what the script evaluates to. -/
theorem Script.result_run : (script.run checker? stack).result = script.eval checker? stack :=
  Machine.result_resume rfl

end SpendScript
