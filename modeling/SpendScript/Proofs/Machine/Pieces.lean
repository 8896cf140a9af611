import Mathlib.Algebra.GroupWithZero.Nat
import SpendScript.Proofs.Machine.Progress

/-!
# Scripts in pieces

A script may be cut into pieces that one interpreter evaluates one after another, on one stack and up
to the first that fails. Main statement: what can be seen of that is what can be seen of the whole
script evaluated at once, whatever the interpreter evaluated before.
-/

namespace SpendScript

variable {checker? : Option Checker} {stack : Stack} {instruction : Instruction}

-- ----------------------------------------------------------------------------
-- Runs that go on from others
-- ----------------------------------------------------------------------------

def Halt.shifted (count : Nat) (halt : Halt) : Halt := { halt with index := count + halt.index }

namespace Machine

variable {machine earlier later : Machine}

/-- The end of a run that starts where `earlier` ends and comes to `later`, told as the end of both
runs together. -/
def followedBy (earlier later : Machine) : Machine where
  stack := later.stack
  executed := earlier.executed + later.executed
  queries := earlier.queries ++ later.queries
  halt? := later.halt?.map (Halt.shifted earlier.executed)

theorem error?_followedBy (earlier later : Machine) :
    (earlier.followedBy later).error? = later.error? := by
  cases halted : later.halt? <;> simp [error?, followedBy, halted, Halt.shifted]

theorem followedBy_start (running : machine.halt? = none) :
    machine.followedBy { stack := machine.stack } = machine := by
  obtain ⟨stack, executed, queries, halt?⟩ := machine
  cases running
  simp [followedBy]

theorem record_followedBy (earlier later : Machine) (step : Step) :
    (earlier.followedBy later).record instruction step =
      earlier.followedBy (later.record instruction step) := by
  cases asked : step.query? <;> cases failed : step.error? <;>
    simp [record, followedBy, asked, failed, Halt.shifted, Nat.add_assoc]

theorem advance_followedBy (checker? : Option Checker) (earlier later : Machine)
    (instruction : Instruction) :
    (earlier.followedBy later).advance checker? instruction =
      earlier.followedBy (later.advance checker? instruction) := by
  cases halted : later.halt? with
  | some halt =>
    have ignores : (earlier.followedBy later).halt?.isSome := by simp [followedBy, halted]
    rw [advance_of_halted ignores, advance_of_halted (by rw [halted]; rfl)]
  | none =>
    have running : (earlier.followedBy later).halt? = none := by simp [followedBy, halted]
    rw [advance_of_running running, advance_of_running halted]
    exact record_followedBy earlier later _

theorem resume_followedBy (checker? : Option Checker) (earlier later : Machine) (script : Script) :
    (earlier.followedBy later).resume checker? script =
      earlier.followedBy (later.resume checker? script) := by
  induction script generalizing later with
  | nil => rfl
  | cons instruction rest ih =>
    rw [resume, List.foldl_cons, advance_followedBy]
    exact ih (later.advance checker? instruction)

theorem resume_eq_followedBy (running : machine.halt? = none) (script : Script) :
    machine.resume checker? script = machine.followedBy (script.run checker? machine.stack) := by
  rw [Script.run, ← resume_followedBy, followedBy_start running]

-- What several runs one after another show together.

theorem stack_foldr_followedBy (finals : List Machine) (last : Machine) :
    (finals.foldr followedBy last).stack = last.stack := by
  induction finals with
  | nil => rfl
  | cons final rest ih => exact ih

theorem error?_foldr_followedBy (finals : List Machine) (last : Machine) :
    (finals.foldr followedBy last).error? = last.error? := by
  induction finals with
  | nil => rfl
  | cons final rest ih => rw [List.foldr_cons, error?_followedBy, ih]

theorem queries_foldr_followedBy (finals : List Machine) (last : Machine) :
    (finals.foldr followedBy last).queries.toList =
      (finals ++ [last]).flatMap (·.queries.toList) := by
  induction finals with
  | nil => simp
  | cons final rest ih => simp [followedBy, ih]

theorem halt?_foldr_followedBy (finals : List Machine) (last : Machine) :
    (finals.foldr followedBy last).halt? =
      last.halt?.map (Halt.shifted (finals.map executed).sum) := by
  induction finals with
  | nil => cases halted : last.halt? <;> simp [halted, Halt.shifted]
  | cons final rest ih =>
    cases halted : last.halt? <;> simp [followedBy, ih, halted, Halt.shifted, Nat.add_assoc]

end Machine

namespace Script

variable {first : Script}

theorem run_append_of_halted (halted : (first.run checker? stack).halt?.isSome) (second : Script) :
    run checker? (first ++ second) stack = first.run checker? stack := by
  rw [run, Machine.resume_append]
  exact Machine.resume_of_halted halted second

theorem run_append_of_running (running : (first.run checker? stack).halt? = none)
    (second : Script) : run checker? (first ++ second) stack =
      (first.run checker? stack).followedBy
        (second.run checker? (first.run checker? stack).stack) := by
  rw [run, Machine.resume_append]
  exact Machine.resume_eq_followedBy running second

theorem executed_run (running : (first.run checker? stack).halt? = none) :
    (first.run checker? stack).executed = first.length := by
  rcases reaches_end_or_stops checker? first stack with ended | ⟨_, _, _, _, stops⟩
  · exact ended.executed
  · cases stops.halt?_run.symm.trans running

end Script

-- ----------------------------------------------------------------------------
-- Evaluations by one interpreter
-- ----------------------------------------------------------------------------

namespace Interpreter

variable {interpreter other : Interpreter} {first : Script}

def afterAll (interpreter : Interpreter) (earlier : List (Script × Stack)) : Interpreter :=
  earlier.foldl (fun interpreter (script, stack) => (interpreter.eval script stack).2) interpreter

/-- Evaluates each piece on the stack that the one before it left, up to and including the first that
fails. -/
def evalEach (interpreter : Interpreter) (stack : Stack) : List Script → List Machine × Interpreter
  | [] => ([], interpreter)
  | piece :: rest =>
    let (final, interpreter) := interpreter.eval piece stack
    match final.error? with
    | some _ => ([final], interpreter)
    | none =>
      let (finals, interpreter) := interpreter.evalEach final.stack rest
      (final :: finals, interpreter)

theorem trace_eq_evalEach (interpreter : Interpreter) (stack : Stack) (script : Script) :
    interpreter.trace stack script = interpreter.evalEach stack (script.map ([·])) := by
  induction script generalizing interpreter stack with
  | nil => rfl
  | cons instruction rest ih =>
    simp only [trace, List.map_cons, evalEach]
    split <;> simp only [*]

theorem eval_congr (same : interpreter.checker? = other.checker?) (script : Script)
    (stack : Stack) : interpreter.eval script stack = other.eval script stack := by
  obtain ⟨checker?, remembered?⟩ := interpreter
  cases same
  rfl

theorem checker?_afterAll (interpreter : Interpreter) (earlier : List (Script × Stack)) :
    (interpreter.afterAll earlier).checker? = interpreter.checker? := by
  induction earlier generalizing interpreter with
  | nil => rfl
  | cons evaluated rest ih => exact ih (interpreter.eval evaluated.1 evaluated.2).2

theorem evalEach_cons_congr (same : interpreter.checker? = other.checker?) (stack : Stack)
    (first : Script) (rest : List Script) :
    interpreter.evalEach stack (first :: rest) = other.evalEach stack (first :: rest) := by
  simp only [evalEach, eval_congr same]

theorem eval_append_of_halted (halted : (first.run interpreter.checker? stack).halt?.isSome)
    (second : Script) :
    interpreter.eval (first ++ second) stack = interpreter.eval first stack := by
  simp only [eval, Script.run_append_of_halted halted]

theorem eval_append_of_running (running : (first.run interpreter.checker? stack).halt? = none)
    (second : Script) : interpreter.eval (first ++ second) stack =
      let (before, interpreter) := interpreter.eval first stack
      let (final, interpreter) := interpreter.eval second before.stack
      (before.followedBy final, interpreter) := by
  simp only [eval, Script.run_append_of_running running, Machine.error?_followedBy]

theorem evalEach_cons_of_halted (halted : (first.run interpreter.checker? stack).halt?.isSome)
    (rest : List Script) : interpreter.evalEach stack (first :: rest) =
      ([(interpreter.eval first stack).1], (interpreter.eval first stack).2) := by
  obtain ⟨halt, found⟩ := Option.isSome_iff_exists.mp halted
  simp [evalEach, eval, Machine.error?, found]

theorem evalEach_cons_of_running (running : (first.run interpreter.checker? stack).halt? = none)
    (rest : List Script) : interpreter.evalEach stack (first :: rest) =
      let (final, interpreter) := interpreter.eval first stack
      let (finals, interpreter) := interpreter.evalEach final.stack rest
      (final :: finals, interpreter) := by
  simp [evalEach, eval, Machine.error?, running]

theorem evalEach_singleton (interpreter : Interpreter) (stack : Stack) (piece : Script) :
    interpreter.evalEach stack [piece] =
      ([(interpreter.eval piece stack).1], (interpreter.eval piece stack).2) := by
  simp only [evalEach]
  split <;> rfl

/-- The evaluation ends with one of the pieces. Those before it ran through, and with what it came to
itself they make up the run of the whole script. -/
theorem exists_last_evalEach (interpreter : Interpreter) (stack : Stack) (first : Script)
    (rest : List Script) : ∃ before piece after finals last,
      first :: rest = before ++ piece :: after ∧
      interpreter.evalEach stack (first :: rest) =
        (finals ++ [last], (interpreter.eval (first :: rest).flatten stack).2) ∧
      finals.foldr Machine.followedBy last = (interpreter.eval (first :: rest).flatten stack).1 ∧
      finals.map Machine.executed = before.map List.length ∧
      (∀ final ∈ finals, final.halt? = none) ∧ (last.halt? = none → after = []) := by
  -- On the pieces: the first one either stops everything or is followed by what the others come to.
  induction rest generalizing interpreter stack first with
  | nil =>
    rw [evalEach_singleton, List.flatten_singleton]
    exact ⟨[], first, [], [], _, rfl, rfl, rfl, rfl, nofun, fun _ => rfl⟩
  | cons second rest ih =>
    rw [List.flatten_cons]
    cases halted : (first.run interpreter.checker? stack).halt? with
    | some halt =>
      have stops : (first.run interpreter.checker? stack).halt?.isSome := by rw [halted]; rfl
      rw [evalEach_cons_of_halted stops, eval_append_of_halted stops]
      refine ⟨[], first, second :: rest, [], _, rfl, rfl, rfl, rfl, nofun, fun running => ?_⟩
      cases halted.symm.trans running
    | none =>
      rw [evalEach_cons_of_running halted, eval_append_of_running halted]
      obtain ⟨before, piece, after, finals, last, split, evaluated, joined, lengths, ran, ends⟩ :=
        ih (interpreter.eval first stack).2 (interpreter.eval first stack).1.stack second
      refine ⟨first :: before, piece, after, (interpreter.eval first stack).1 :: finals, last,
        ?_, ?_, ?_, ?_, ?_, ends⟩
      · rw [split, List.cons_append]
      · simp only [evaluated, List.cons_append]
      · simp only [List.foldr_cons, joined]
      · rw [List.map_cons, List.map_cons, lengths, fst_eval, Script.executed_run halted]
      · exact List.forall_mem_cons.mpr ⟨halted, ran⟩

/-- A script cut into pieces, in any way, evaluates as it does at once: with the same verdict and the
same stack at the end, the same questions in the same order, and the same error remembered. The
position at which it fails is told within the piece that fails. What the interpreter evaluated before,
and how that ended, has no part in it. -/
theorem evalEach_of_cut {script : Script} {pieces : List Script} (cut : pieces.flatten = script)
    (nonempty : pieces ≠ []) (interpreter : Interpreter) (earlier : List (Script × Stack))
    (stack : Stack) : ∃ before piece after finals last,
      pieces = before ++ piece :: after ∧ finals.length = before.length ∧
      (interpreter.afterAll earlier).evalEach stack pieces =
        (finals ++ [last], (interpreter.eval script stack).2) ∧
      (∀ final ∈ finals, final.error? = none) ∧ (last.error? = none → after = []) ∧
      (interpreter.eval script stack).1.error? = last.error? ∧
      (interpreter.eval script stack).1.stack = last.stack ∧
      (interpreter.eval script stack).1.queries.toList =
        (finals ++ [last]).flatMap (·.queries.toList) ∧
      (interpreter.eval script stack).1.halt? =
        last.halt?.map (Halt.shifted before.flatten.length) ∧
      (interpreter.afterAll earlier).eval script stack = interpreter.eval script stack := by
  subst cut
  obtain ⟨first, rest, rfl⟩ := List.exists_cons_of_ne_nil nonempty
  have forgets := checker?_afterAll interpreter earlier
  obtain ⟨before, piece, after, finals, last, split, evaluated, joined, lengths, ran, ends⟩ :=
    exists_last_evalEach interpreter stack first rest
  rw [← evalEach_cons_congr forgets] at evaluated
  refine ⟨before, piece, after, finals, last, split, ?_, evaluated,
    fun final mem => Option.map_eq_none_iff.mpr (ran final mem),
    fun succeeds => ends (Option.map_eq_none_iff.mp succeeds), ?_, ?_, ?_, ?_,
    eval_congr forgets _ stack⟩
  · simpa only [List.length_map] using congrArg List.length lengths
  · rw [← joined, Machine.error?_foldr_followedBy]
  · rw [← joined, Machine.stack_foldr_followedBy]
  · rw [← joined, Machine.queries_foldr_followedBy]
  · rw [← joined, Machine.halt?_foldr_followedBy, lengths, List.length_flatten]

def refusedCheck : List Script :=
  [[.push [7], .push (tagged [0x30])], [], [.push [2], .op .checkSigVerify], [.op .dup]]

/-- The check stands at the second place of its piece and at the fourth of the script. That the
interpreter has failed on another script before is not seen. -/
theorem evalEach_refusedCheck :
    refusedCheck ≠ [] ∧
      ∃ before piece after finals last,
        refusedCheck = before ++ piece :: after ∧
        (afterAll { checker? := some (.constant false) } [([.op .dup], [])]).evalEach []
            refusedCheck =
          (finals ++ [last],
            { checker? := some (.constant false), lastError? := some .checkSigVerify }) ∧
        last.stack = [[7]] ∧
        some { index := 3, instruction := .op .checkSigVerify, error := .checkSigVerify } =
          last.halt?.map (Halt.shifted before.flatten.length) := by
  obtain ⟨before, piece, after, finals, last, split, -, evaluated, -, -, -, stack, -, index, -⟩ :=
    evalEach_of_cut (rfl : refusedCheck.flatten = _) nofun
      { checker? := some (.constant false) } [([.op .dup], [])] []
  have left : (eval { checker? := some (.constant false) } refusedCheck.flatten []).1.stack =
      [[7]] := by decide
  have halted : (eval { checker? := some (.constant false) } refusedCheck.flatten []).1.halt? =
      some { index := 3, instruction := .op .checkSigVerify, error := .checkSigVerify } := by decide
  exact ⟨nofun, before, piece, after, finals, last, split, evaluated,
    stack.symm.trans left, halted.symm.trans index⟩

end Interpreter

end SpendScript
