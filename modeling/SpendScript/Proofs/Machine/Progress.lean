import SpendScript.Proofs.Machine.Questions

/-!
# How far a run comes

`Script.Reaches` says that a run comes to a position of its script, and with which machine;
`Script.StopsAt` that it fails there. Main statements: a run comes to a position exactly when what
stands before it runs through, and a run either reaches the end of its script or stops at one
position, where the failing instruction alone decides how it ends.
-/

namespace SpendScript.Script

variable {checker? : Option Checker} {script : Script} {stack : Stack} {instruction : Instruction}
  {machine : Machine} {error : ScriptError} {i : Nat}

/-- Running the script comes to position `i` as `machine`: every instruction before it succeeds. -/
inductive Reaches (checker? : Option Checker) (script : Script) (stack : Stack) :
    Nat → Machine → Prop
  | start : Reaches checker? script stack 0 { stack }
  | next {i : Nat} {machine : Machine} {instruction : Instruction} :
      Reaches checker? script stack i machine → script[i]? = some instruction →
      (instruction.step checker? machine.stack).error? = none →
      Reaches checker? script stack (i + 1)
        (machine.record instruction (instruction.step checker? machine.stack))

namespace Reaches

theorem running (h : script.Reaches checker? stack i machine) : machine.halt? = none := by
  cases h with
  | start => rfl
  | next _ _ succeeds => simp [Machine.record, succeeds]

theorem executed (h : script.Reaches checker? stack i machine) : machine.executed = i := by
  induction h with
  | start => rfl
  | next _ _ succeeds ih => simp [Machine.record, succeeds, ih]

theorem le_length (h : script.Reaches checker? stack i machine) : i ≤ script.length := by
  cases h with
  | start => exact Nat.zero_le _
  | next _ holds _ => exact (List.getElem?_eq_some_iff.mp holds).1

theorem earlier (h : script.Reaches checker? stack i machine) {j : Nat} (before : j < i) :
    ∃ start instruction, script.Reaches checker? stack j start ∧ script[j]? = some instruction ∧
      (instruction.step checker? start.stack).error? = none := by
  induction h with
  | start => cases before
  | next reached holds succeeds ih =>
    rcases Nat.lt_succ_iff_lt_or_eq.mp before with before | rfl
    · exact ih before
    · exact ⟨_, _, reached, holds, succeeds⟩

theorem run_take (h : script.Reaches checker? stack i machine) :
    run checker? (script.take i) stack = machine := by
  induction h with
  | start => rfl
  | next reached holds _ ih =>
    rw [List.take_add_one, holds, Option.toList_some, run_concat, ih,
      Machine.advance_of_running reached.running]

end Reaches

theorem reaches_iff : script.Reaches checker? stack i machine ↔
    i ≤ script.length ∧ run checker? (script.take i) stack = machine ∧ machine.halt? = none := by
  refine ⟨fun h => ⟨h.le_length, h.run_take, h.running⟩, ?_⟩
  rintro ⟨inside, rfl, running⟩
  induction i with
  | zero => exact .start
  | succ i ih =>
    have holds : script[i]? = some script[i] := List.getElem?_eq_getElem inside
    rw [List.take_add_one, holds, Option.toList_some, run_concat] at running ⊢
    -- A prefix that runs through has not halted one instruction earlier.
    cases halted : (run checker? (script.take i) stack).halt? with
    | some halt =>
      rw [Machine.advance_of_halted (by rw [halted]; rfl)] at running
      cases halted.symm.trans running
    | none =>
      rw [Machine.advance_of_running halted] at running ⊢
      have succeeds : (script[i].step checker? (run checker? (script.take i) stack).stack).error? =
          none := by simpa [Machine.record] using running
      exact .next (ih (Nat.le_of_succ_le inside) halted) holds succeeds

/-- Running the script comes to position `i` as `machine`, and the instruction there fails. -/
structure StopsAt (checker? : Option Checker) (script : Script) (stack : Stack) (i : Nat)
    (machine : Machine) (instruction : Instruction) (error : ScriptError) : Prop where
  reached : script.Reaches checker? stack i machine
  holds : script[i]? = some instruction
  fails : (instruction.step checker? machine.stack).error? = some error

namespace StopsAt

theorem halt?_record (h : script.StopsAt checker? stack i machine instruction error) :
    (machine.record instruction (instruction.step checker? machine.stack)).halt? =
      some { index := i, instruction, error } := by
  simp [Machine.record, h.fails, h.reached.executed]

theorem run_take_append (h : script.StopsAt checker? stack i machine instruction error)
    (rest : Script) : run checker? (script.take (i + 1) ++ rest) stack =
      machine.record instruction (instruction.step checker? machine.stack) := by
  rw [run, Machine.resume_append]
  show Machine.resume checker? (run checker? (script.take (i + 1)) stack) rest = _
  rw [List.take_add_one, h.holds, Option.toList_some, run_concat, h.reached.run_take,
    Machine.advance_of_running h.reached.running]
  exact Machine.resume_of_halted (by rw [h.halt?_record]; rfl) rest

theorem run_eq (h : script.StopsAt checker? stack i machine instruction error) :
    script.run checker? stack =
      machine.record instruction (instruction.step checker? machine.stack) := by
  have whole := h.run_take_append (script.drop (i + 1))
  rwa [List.take_append_drop] at whole

theorem halt?_run (h : script.StopsAt checker? stack i machine instruction error) :
    (script.run checker? stack).halt? = some { index := i, instruction, error } := by
  rw [h.run_eq, h.halt?_record]

end StopsAt

theorem reaches_or_stops (checker? : Option Checker) {script : Script} (stack : Stack)
    (inside : i ≤ script.length) : (∃ machine, script.Reaches checker? stack i machine) ∨
      ∃ j machine instruction error, script.StopsAt checker? stack j machine instruction error := by
  induction i with
  | zero => exact .inl ⟨_, .start⟩
  | succ i ih =>
    rcases ih (Nat.le_of_succ_le inside) with ⟨machine, reached⟩ | stops
    · have holds : script[i]? = some script[i] := List.getElem?_eq_getElem inside
      cases fails : (script[i].step checker? machine.stack).error? with
      | none => exact .inl ⟨_, reached.next holds fails⟩
      | some error => exact .inr ⟨_, _, _, _, reached, holds, fails⟩
    · exact .inr stops

theorem reaches_end_or_stops (checker? : Option Checker) (script : Script) (stack : Stack) :
    script.Reaches checker? stack script.length (script.run checker? stack) ∨
      ∃ i machine instruction error, script.StopsAt checker? stack i machine instruction error := by
  rcases reaches_or_stops checker? stack (Nat.le_refl script.length) with ⟨machine, reached⟩ | stops
  · have ended := reached.run_take
    rw [List.take_length] at ended
    exact .inl (ended ▸ reached)
  · exact .inr stops

theorem halt?_run_eq_some :
    (script.run checker? stack).halt? = some { index := i, instruction, error } ↔
      ∃ machine, script.StopsAt checker? stack i machine instruction error := by
  constructor
  · intro halted
    rcases reaches_end_or_stops checker? script stack with ended | ⟨_, machine, _, _, stops⟩
    · cases ended.running.symm.trans halted
    · cases stops.halt?_run.symm.trans halted
      exact ⟨machine, stops⟩
  · rintro ⟨machine, stops⟩
    exact stops.halt?_run

theorem error?_run_eq_some : (script.run checker? stack).error? = some error ↔
    ∃ i machine instruction, script.StopsAt checker? stack i machine instruction error := by
  simp only [Machine.error?, Option.map_eq_some_iff]
  constructor
  · rintro ⟨halt, halted, rfl⟩
    obtain ⟨machine, stops⟩ := halt?_run_eq_some.mp halted
    exact ⟨_, machine, _, stops⟩
  · rintro ⟨i, machine, instruction, stops⟩
    exact ⟨_, stops.halt?_run, rfl⟩

end SpendScript.Script
