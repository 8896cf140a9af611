import SpendScript.Proofs.Machine.Progress
import SpendScript.Proofs.Spend.FirstFailure

/-!
# What a verification logs

`Spend.report` tells the log from the failure that a verification ends with. A `Logged` stage writes
it as it goes: where a script does not decode and where an instruction fails, not knowing what becomes
of the verification. Main statement: both logs are the same, at most one message stands before the one
that tells the outcome, and there is one exactly if a script does not decode or a run of it stops.
-/

namespace SpendScript

def LogEvent.ofOutcome (input : Nat) : Except Rejection Unit → LogEvent
  | .ok () => .verified input
  | .error rejection => .rejected input rejection

theorem LogEvent.level_ofOutcome (input : Nat) (outcome : Except Rejection Unit) :
    (ofOutcome input outcome).level = "DEBUG" := by
  cases outcome <;> rfl

-- ----------------------------------------------------------------------------
-- Stages that write messages
-- ----------------------------------------------------------------------------

/-- What a stage comes to, with the messages that it has written by then. -/
structure Logged (α : Type) where
  result : Except Failure α
  messages : List LogEvent := []

namespace Logged

variable {α β : Type}

instance : Monad Logged where
  pure value := { result := .ok value }
  bind first next :=
    match first.result with
    | .error failure => { result := .error failure, messages := first.messages }
    | .ok value =>
      { result := (next value).result, messages := first.messages ++ (next value).messages }

def write (event : LogEvent) : Logged Unit := { result := .ok (), messages := [event] }

def fail (failure : Failure) : Logged α := { result := .error failure }

def decodeScript (role : Role) (bytes : Bytes) : Logged Script :=
  match Script.decode bytes with
  | .ok script => pure script
  | .error error => do
    write (.undecodable error)
    fail (.undecodable role error)

def runFrom (role : Role) (checker? : Option Checker) (index : Nat) :
    Script → Stack → Logged Stack
  | [], stack => pure stack
  | instruction :: rest, stack =>
    let step := instruction.step checker? stack
    match step.error? with
    | none => runFrom role checker? (index + 1) rest step.stack
    | some error => do
      let halt : Halt := { index, instruction, error }
      write (.halted halt)
      fail (.halted role halt)

def runScript (role : Role) (context : SigningContext) (script : Script) (stack : Stack) :
    Logged Stack :=
  runFrom role (some context.accepts) 0 script stack

def verifyInput (spentScript : Bytes) (tx : Transaction) (input : Nat)
    (input_lt : input < tx.inputs.length) (flags : Flags) : Logged Unit := do
  let scriptSig ← decodeScript .input tx.inputs[input].scriptSig
  if flags.sigPushOnly && !scriptSig.isPushOnly then fail .notPushOnly
  let scriptPubKey ← decodeScript .spent spentScript
  let stack ← runScript .input (.ofScript tx input input_lt scriptSig flags) scriptSig []
  let stack ← runScript .spent (.ofScript tx input input_lt scriptPubKey flags) scriptPubKey stack
  { result := Spend.judge flags stack }

def verify (spend : Spend) : Logged Unit :=
  match Flags.ofBits? spend.flags with
  | none => fail .invalidFlags
  | some flags =>
    match Transaction.parse spend.transaction with
    | .error error => fail (.transaction error)
    | .ok tx =>
      if input_lt : spend.input < tx.inputs.length then
        verifyInput spend.spentScript tx spend.input input_lt flags
      else fail .noSuchInput

def report (spend : Spend) : Spend.Report :=
  let ended := verify spend
  let outcome := ended.result.mapError Failure.rejection
  { outcome, log := ended.messages ++ [.ofOutcome spend.input outcome] }

-- ----------------------------------------------------------------------------
-- What they write
-- ----------------------------------------------------------------------------

/-- A stage that has written what its failure tells, if it has failed. -/
def ofResult (result : Except Failure α) : Logged α where
  result
  messages :=
    match result with
    | .error failure => failure.log
    | .ok _ => []

theorem ofResult_bind (result : Except Failure α) (next : α → Except Failure β) :
    ofResult (result >>= next) = ofResult result >>= fun value => ofResult (next value) := by
  cases result <;> rfl

theorem decodeScript_eq (role : Role) (bytes : Bytes) :
    decodeScript role bytes = ofResult (Spend.decodeScript role bytes) := by
  unfold decodeScript Spend.decodeScript
  cases Script.decode bytes <;> rfl

theorem runFrom_of_reaches {role : Role} {checker? : Option Checker} {script : Script}
    {stack : Stack} {i : Nat} {machine : Machine}
    (reached : script.Reaches checker? stack i machine) :
    runFrom role checker? 0 script stack =
      runFrom role checker? i (script.drop i) machine.stack := by
  induction reached with
  | start => rfl
  | next reached holds succeeds ih =>
    obtain ⟨inside, rfl⟩ := List.getElem?_eq_some_iff.mp holds
    rw [ih, List.drop_eq_getElem_cons inside, runFrom, succeeds]
    rfl

theorem runScript_eq (role : Role) (context : SigningContext) (script : Script) (stack : Stack) :
    runScript role context script stack =
      ofResult (Spend.runScript role context script stack) := by
  rcases Script.reaches_end_or_stops (some context.accepts) script stack with
    ended | ⟨i, machine, instruction, error, stops⟩
  · rw [Spend.runScript_eq_ok.mpr ⟨ended.running, rfl⟩, runScript, runFrom_of_reaches ended,
      List.drop_length]
    rfl
  · obtain ⟨inside, rfl⟩ := List.getElem?_eq_some_iff.mp stops.holds
    rw [Spend.runScript_of_halted stops.halt?_run, runScript, runFrom_of_reaches stops.reached,
      List.drop_eq_getElem_cons inside, runFrom, stops.fails]
    rfl

theorem judge_eq (flags : Flags) (stack : Stack) :
    { result := Spend.judge flags stack } = ofResult (Spend.judge flags stack) := by
  cases stack with
  | nil => rfl
  | cons top rest =>
    rw [Spend.judge]
    split
    next => rfl
    next => split <;> rfl

theorem verifyInput_eq (spentScript : Bytes) (tx : Transaction) (input : Nat)
    (input_lt : input < tx.inputs.length) (flags : Flags) :
    verifyInput spentScript tx input input_lt flags =
      ofResult (Spend.verifyInput spentScript tx input input_lt flags) := by
  rw [verifyInput, Spend.verifyInput, Spend.finalStack, bind_assoc, ofResult_bind, decodeScript_eq]
  congr 1
  funext scriptSig
  split
  next => rfl
  next =>
    simp only [Spend.runScripts, bind_assoc, ofResult_bind, decodeScript_eq, runScript_eq, judge_eq]

theorem verify_eq (spend : Spend) : verify spend = ofResult spend.verify := by
  rw [verify, Spend.verify]
  cases Flags.ofBits? spend.flags with
  | none => rfl
  | some flags =>
    cases Transaction.parse spend.transaction with
    | error error => rfl
    | ok tx =>
      by_cases input_lt : spend.input < tx.inputs.length
      · simp only [input_lt, dite_true]
        exact verifyInput_eq ..
      · simp only [input_lt, dite_false]
        rfl

theorem report_eq (spend : Spend) : report spend = spend.report := by
  rw [report, verify_eq, Spend.report]
  cases spend.verify <;> rfl

end Logged

-- ----------------------------------------------------------------------------
-- What failures tell
-- ----------------------------------------------------------------------------

/-- No script has failed to decode or to run. -/
def Rejection.Untraced (rejection : Rejection) : Prop :=
  rejection.code ≠ .script ∨
    rejection.scriptError? ∈ [some .sigPushOnly, some .evalFalse, some .cleanStack]

instance (rejection : Rejection) : Decidable rejection.Untraced :=
  inferInstanceAs (Decidable (_ ∨ _))

theorem Rejection.untraced_ofScript {error : ScriptError} :
    (ofScript error).Untraced ↔ error ∈ [.sigPushOnly, .evalFalse, .cleanStack] := by
  cases error <;> decide

namespace Failure

variable {failure : Failure}

theorem log_cases (failure : Failure) :
    failure.log = [] ∨ ∃ trace, failure.log = [trace] ∧ trace.level = "TRACE" := by
  cases failure with
  | undecodable role error => exact .inr ⟨_, rfl, rfl⟩
  | halted role halt => exact .inr ⟨_, rfl, rfl⟩
  | _ => exact .inl rfl

theorem level_log_iff (failure : Failure) :
    (∀ event ∈ failure.log, event.level = "DEBUG") ↔ failure.log = [] := by
  rcases failure.log_cases with silent | ⟨trace, told, level⟩
  · simp [silent]
  · simp [told, level]

theorem undecodable_mem_log {error : DecodeError} :
    .undecodable error ∈ failure.log ↔ ∃ role, failure = .undecodable role error := by
  cases failure <;> simp [log, eq_comm]

theorem halted_mem_log {halt : Halt} :
    .halted halt ∈ failure.log ↔ ∃ role, failure = .halted role halt := by
  cases failure <;> simp [log, eq_comm]

end Failure

namespace Spend

variable {spend : Spend} {stage : Stage} {failure : Failure} {event : LogEvent}
  {error : DecodeError} {halt : Halt}

theorem Finds.log_eq_nil_iff (finds : spend.Finds stage failure) :
    failure.log = [] ↔ failure.rejection.Untraced := by
  have traced {error : ScriptError} (mem : error ∈ Step.answeredErrors) :
      ¬ (Rejection.ofScript error).Untraced := by
    rw [Rejection.untraced_ofScript]
    revert mem
    cases error <;> decide
  cases finds with
  | @transaction error => cases error <;> decide
  | decoding role => exact iff_of_false (List.cons_ne_nil _ _) (traced (by decide))
  | run role prepared halted =>
    have failed := Machine.error?_of_halted halted
    exact iff_of_false (List.cons_ne_nil _ _) (traced (prepared.error_mem_run role failed))
  | _ => decide

-- ----------------------------------------------------------------------------
-- What the log tells
-- ----------------------------------------------------------------------------

theorem report_log (spend : Spend) : spend.report.log =
    (Logged.ofResult spend.verify).messages ++ [.ofOutcome spend.input spend.report.outcome] := by
  unfold report
  cases spend.verify <;> rfl

theorem mem_report_log {tells : Role → Failure} (trace : event.level = "TRACE")
    (told : ∀ failure : Failure, event ∈ failure.log ↔ ∃ role, failure = tells role) :
    event ∈ spend.report.log ↔ ∃ role, spend.verify = .error (tells role) := by
  have other : event ≠ .ofOutcome spend.input spend.report.outcome := by
    rintro rfl
    rw [LogEvent.level_ofOutcome] at trace
    exact absurd trace (by decide)
  rw [report_log, List.mem_append, List.mem_singleton, or_iff_left other]
  cases spend.verify with
  | ok => simp [Logged.ofResult]
  | error failure => simp [Logged.ofResult, told]

def FailsToDecode (spend : Spend) (role : Role) (error : DecodeError) : Prop :=
  spend.Reaches (.decoding role) ∧
    ∃ bytes, spend.HasScript role bytes ∧ Script.decode bytes = .error error

theorem verify_eq_undecodable {role : Role} :
    spend.verify = .error (.undecodable role error) ↔ spend.FailsToDecode role error := by
  constructor
  · intro failed
    obtain ⟨stage, reaches, finds⟩ := verify_eq_error.mp failed
    cases finds with
    | decoding role found undecodable => exact ⟨reaches, _, found, undecodable⟩
  · rintro ⟨reaches, bytes, found, undecodable⟩
    exact (Finds.decoding role found undecodable).verify_eq reaches

def StopsAt (spend : Spend) (role : Role) (halt : Halt) : Prop :=
  spend.Reaches (.run role) ∧ ∃ (prepared : spend.Prepared) (before : Machine),
    (prepared.script role).StopsAt (some (prepared.context role).accepts) (prepared.start role)
      halt.index before halt.instruction halt.error

theorem verify_eq_halted {role : Role} :
    spend.verify = .error (.halted role halt) ↔ spend.StopsAt role halt := by
  constructor
  · intro failed
    obtain ⟨stage, reaches, finds⟩ := verify_eq_error.mp failed
    cases finds with
    | run role prepared halted =>
      rw [prepared.run_eq] at halted
      obtain ⟨before, stops⟩ := Script.halt?_run_eq_some.mp halted
      exact ⟨reaches, prepared, before, stops⟩
  · rintro ⟨reaches, prepared, before, stops⟩
    have halted : (prepared.run role).halt? = some halt := by
      rw [prepared.run_eq, stops.halt?_run]
    exact (Finds.run role prepared halted).verify_eq reaches

theorem FailsToDecode.outcome_eq {role : Role} (fails : spend.FailsToDecode role error) :
    spend.report.outcome = .error (.ofScript .badOpcode) :=
  report_outcome_of_error (verify_eq_undecodable.mpr fails)

theorem StopsAt.outcome_eq {role : Role} (stops : spend.StopsAt role halt) :
    spend.report.outcome = .error (.ofScript halt.error) :=
  report_outcome_of_error (verify_eq_halted.mpr stops)

theorem exists_report_log (spend : Spend) : ∃ trace? : Option LogEvent,
    (∀ trace ∈ trace?, trace.level = "TRACE") ∧
      spend.report.log = trace?.toList ++ [.ofOutcome spend.input spend.report.outcome] := by
  rw [report_log]
  cases spend.verify with
  | ok => exact ⟨none, nofun, rfl⟩
  | error failure =>
    rcases failure.log_cases with silent | ⟨trace, told, level⟩
    · exact ⟨none, nofun, congrArg (· ++ _) silent⟩
    · refine ⟨some trace, fun event mem => ?_, congrArg (· ++ _) told⟩
      obtain rfl := Option.some.inj mem
      exact level

theorem untraced_iff (spend : Spend) : (∀ event ∈ spend.report.log, event.level = "DEBUG") ↔
    ∀ rejection, spend.report.outcome = .error rejection → rejection.Untraced := by
  simp only [report_log, List.forall_mem_append, List.forall_mem_singleton,
    LogEvent.level_ofOutcome, and_true]
  cases verified : spend.verify with
  | ok =>
    rw [report_outcome_eq_ok.mpr verified]
    exact iff_of_true nofun nofun
  | error failure =>
    obtain ⟨stage, -, finds⟩ := verify_eq_error.mp verified
    simp only [report_outcome_of_error verified, Except.error.injEq, forall_eq']
    rw [← finds.log_eq_nil_iff]
    exact failure.level_log_iff

/-- The log of a verification is the one that is written on the way: at most one message, then one that
tells the outcome. The first message tells of a script that does not decode, or where a run of a script
stops, and there is none if neither is why the verification ends. -/
theorem report_log_faithful (spend : Spend) :
    Logged.report spend = spend.report ∧
      (∃ trace? : Option LogEvent, (∀ trace ∈ trace?, trace.level = "TRACE") ∧
        spend.report.log = trace?.toList ++ [.ofOutcome spend.input spend.report.outcome]) ∧
      (LogEvent.ofOutcome spend.input spend.report.outcome).level = "DEBUG" ∧
      (∀ error, .undecodable error ∈ spend.report.log ↔ ∃ role, spend.FailsToDecode role error ∧
        spend.report.outcome = .error (.ofScript .badOpcode)) ∧
      (∀ halt, .halted halt ∈ spend.report.log ↔ ∃ role, spend.StopsAt role halt ∧
        spend.report.outcome = .error (.ofScript halt.error)) ∧
      ((∀ event ∈ spend.report.log, event.level = "DEBUG") ↔
        ∀ rejection, spend.report.outcome = .error rejection → rejection.Untraced) := by
  refine ⟨Logged.report_eq spend, exists_report_log spend, LogEvent.level_ofOutcome ..,
    fun error => ?_, fun halt => ?_, untraced_iff spend⟩
  · rw [mem_report_log rfl fun _ => Failure.undecodable_mem_log]
    refine exists_congr fun role => ?_
    rw [verify_eq_undecodable, and_iff_left_of_imp FailsToDecode.outcome_eq]
  · rw [mem_report_log rfl fun _ => Failure.halted_mem_log]
    refine exists_congr fun role => ?_
    rw [verify_eq_halted, and_iff_left_of_imp StopsAt.outcome_eq]

example :
    (Spend.mk [0x76, 0x4c] (Transaction.ofInput [0x01, 0x05] []).bytes 0 0).report.log =
        [.undecodable (.truncatedLength 1 1), .rejected 0 (.ofScript .badOpcode)] ∧
      (Spend.mk [0x76, 0xae] (Transaction.ofInput [0x01, 0x05] []).bytes 0 0).report.log =
        [.halted { index := 1, instruction := .op .checkMultiSig, error := .badOpcode },
          .rejected 0 (.ofScript .badOpcode)] := by
  decide +kernel

end Spend

end SpendScript
