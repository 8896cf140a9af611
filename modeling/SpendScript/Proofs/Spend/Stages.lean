import SpendScript.Proofs.Script.Spelling
import SpendScript.Spend.Verify

/-!
# The stages of a verification

`Spend.Prepared` holds what the reading stages yield. Main statement: a spend is valid exactly if it
can be prepared, both of its scripts run to their end, and the stack left behind is judged well.
-/

namespace SpendScript.Spend

/-- What a verification runs on, once every part of the spend has been read. -/
structure Prepared (spend : Spend) where
  flags : Flags
  transaction : Transaction
  inputScript : Script
  spentScript : Script
  flags_eq : Flags.ofBits? spend.flags = some flags
  parsed : Transaction.parse spend.transaction = .ok transaction
  input_lt : spend.input < transaction.inputs.length
  inputDecoded : Script.decode transaction.inputs[spend.input].scriptSig = .ok inputScript
  pushOnly : flags.sigPushOnly → inputScript.isPushOnly
  spentDecoded : Script.decode spend.spentScript = .ok spentScript

variable {spend : Spend} {flags : Flags} {stack final : Stack}

namespace Prepared

def script (prepared : spend.Prepared) : Role → Script
  | .input => prepared.inputScript
  | .spent => prepared.spentScript

def context (prepared : spend.Prepared) (role : Role) : SigningContext :=
  .ofScript prepared.transaction spend.input prepared.input_lt (prepared.script role) prepared.flags

def inputRun (prepared : spend.Prepared) : Machine :=
  prepared.inputScript.run (some (prepared.context .input).accepts) []

def spentRun (prepared : spend.Prepared) : Machine :=
  prepared.spentScript.run (some (prepared.context .spent).accepts) prepared.inputRun.stack

def run (prepared : spend.Prepared) : Role → Machine
  | .input => prepared.inputRun
  | .spent => prepared.spentRun

def start (prepared : spend.Prepared) : Role → Stack
  | .input => []
  | .spent => prepared.inputRun.stack

theorem run_eq (prepared : spend.Prepared) (role : Role) : prepared.run role =
    (prepared.script role).run (some (prepared.context role).accepts) (prepared.start role) := by
  cases role <;> rfl

theorem runScripts_eq (prepared : spend.Prepared) :
    runScripts prepared.transaction spend.input prepared.input_lt prepared.flags
        prepared.inputScript prepared.spentScript =
      runScript .input (prepared.context .input) prepared.inputScript [] >>=
        runScript .spent (prepared.context .spent) prepared.spentScript := rfl

def settle (prepared : spend.Prepared) : Except Failure Unit :=
  runScripts prepared.transaction spend.input prepared.input_lt prepared.flags prepared.inputScript
    prepared.spentScript >>= judge prepared.flags

instance : Subsingleton spend.Prepared where
  allEq first second := by
    obtain ⟨_, _, _, _, flags_eq, parsed, _, inputDecoded, _, spentDecoded⟩ := first
    obtain ⟨_, _, _, _, flags_eq', parsed', _, inputDecoded', _, spentDecoded'⟩ := second
    obtain rfl := Option.some.inj (flags_eq.symm.trans flags_eq')
    obtain rfl := Except.ok.inj (parsed.symm.trans parsed')
    obtain rfl := Except.ok.inj (inputDecoded.symm.trans inputDecoded')
    obtain rfl := Except.ok.inj (spentDecoded.symm.trans spentDecoded')
    rfl

end Prepared

-- ----------------------------------------------------------------------------
-- Each stage
-- ----------------------------------------------------------------------------

theorem decodeScript_eq_ok {role : Role} {bytes : Bytes} {script : Script} :
    decodeScript role bytes = .ok script ↔ Script.decode bytes = .ok script :=
  Except.mapError_eq_ok

theorem decodeScript_of_error {role : Role} {bytes : Bytes} {error : DecodeError}
    (undecodable : Script.decode bytes = .error error) :
    decodeScript role bytes = .error (.undecodable role error) := by
  rw [decodeScript, undecodable]
  rfl

theorem runScript_of_halted {role : Role} {context : SigningContext} {script : Script} {halt : Halt}
    (halted : (script.run (some context.accepts) stack).halt? = some halt) :
    runScript role context script stack = .error (.halted role halt) := by
  simp only [runScript, halted]

theorem runScript_eq_ok {role : Role} {context : SigningContext} {script : Script} :
    runScript role context script stack = .ok final ↔
      (script.run (some context.accepts) stack).halt? = none ∧
        (script.run (some context.accepts) stack).stack = final := by
  simp only [runScript]
  split
  next halted => simp [halted]
  next ended => simp [ended]

theorem judge_eq_ok : judge flags stack = .ok () ↔
    ∃ top rest, stack = top :: rest ∧ isTruthy top ∧ (flags.cleanStack → rest = []) := by
  cases stack with
  | nil => simp [judge]
  | cons top rest =>
    cases truthy : isTruthy top with
    | false => simp [judge, truthy]
    | true => cases asked : flags.cleanStack <;> cases rest <;> simp [judge, truthy, asked]

-- ----------------------------------------------------------------------------
-- The stages in order
-- ----------------------------------------------------------------------------

theorem Prepared.settle_eq_ok {prepared : spend.Prepared} :
    prepared.settle = .ok () ↔ (∀ role, (prepared.run role).halt? = none) ∧
      judge prepared.flags prepared.spentRun.stack = .ok () := by
  simp only [settle, runScripts_eq, Except.bind_eq_ok, runScript_eq_ok]
  constructor
  · rintro ⟨_, ⟨_, ⟨inputEnds, rfl⟩, spentEnds, rfl⟩, judged⟩
    refine ⟨fun role => ?_, judged⟩
    cases role with
    | input => exact inputEnds
    | spent => exact spentEnds
  · rintro ⟨ends, judged⟩
    exact ⟨_, ⟨_, ⟨ends .input, rfl⟩, ends .spent, rfl⟩, judged⟩

namespace Prepared

variable {prepared : spend.Prepared} {halt : Halt}

theorem settle_of_inputRun_halted (halted : prepared.inputRun.halt? = some halt) :
    prepared.settle = .error (.halted .input halt) := by
  rw [settle, runScripts_eq, runScript_of_halted halted]
  rfl

theorem settle_of_inputRun_ended (ended : prepared.inputRun.halt? = none) :
    prepared.settle =
      runScript .spent (prepared.context .spent) prepared.spentScript prepared.inputRun.stack >>=
        judge prepared.flags := by
  rw [settle, runScripts_eq, runScript_eq_ok.mpr ⟨ended, rfl⟩]
  rfl

theorem settle_of_spentRun_halted (ended : prepared.inputRun.halt? = none)
    (halted : prepared.spentRun.halt? = some halt) :
    prepared.settle = .error (.halted .spent halt) := by
  rw [settle_of_inputRun_ended ended, runScript_of_halted halted]
  rfl

theorem settle_of_ended (ended : ∀ role, (prepared.run role).halt? = none) :
    prepared.settle = judge prepared.flags prepared.spentRun.stack := by
  rw [settle_of_inputRun_ended (ended .input), runScript_eq_ok.mpr ⟨ended .spent, rfl⟩]
  rfl

end Prepared

section

variable {spentScript : Bytes} {tx : Transaction} {input : Nat} {input_lt : input < tx.inputs.length}
  {inputScript : Script}

theorem verifyInput_of_undecodable {error : DecodeError}
    (undecodable : Script.decode tx.inputs[input].scriptSig = .error error) :
    verifyInput spentScript tx input input_lt flags = .error (.undecodable .input error) := by
  rw [verifyInput, finalStack, decodeScript_of_error undecodable]
  rfl

theorem verifyInput_of_not_pushOnly
    (decoded : Script.decode tx.inputs[input].scriptSig = .ok inputScript)
    (asked : flags.sigPushOnly) (executes : ¬ inputScript.isPushOnly) :
    verifyInput spentScript tx input input_lt flags = .error .notPushOnly := by
  have refused : flags.sigPushOnly && !inputScript.isPushOnly := by simp [asked, executes]
  have stopped : finalStack spentScript tx input input_lt flags = .error .notPushOnly := by
    rw [finalStack, decodeScript_eq_ok.mpr decoded]
    exact if_pos refused
  rw [verifyInput, stopped]
  rfl

/-- What is left to read and to run after the two rules on the input's script. -/
theorem finalStack_of_allowed
    (decoded : Script.decode tx.inputs[input].scriptSig = .ok inputScript)
    (allowed : flags.sigPushOnly → inputScript.isPushOnly) :
    finalStack spentScript tx input input_lt flags =
      decodeScript .spent spentScript >>= runScripts tx input input_lt flags inputScript := by
  have accepted : ¬ (flags.sigPushOnly && !inputScript.isPushOnly) := by simpa using allowed
  rw [finalStack, decodeScript_eq_ok.mpr decoded]
  exact if_neg accepted

theorem verifyInput_of_allowed
    (decoded : Script.decode tx.inputs[input].scriptSig = .ok inputScript)
    (allowed : flags.sigPushOnly → inputScript.isPushOnly) :
    verifyInput spentScript tx input input_lt flags =
      decodeScript .spent spentScript >>= runScripts tx input input_lt flags inputScript >>=
        judge flags := by
  rw [verifyInput, finalStack_of_allowed decoded allowed]

end

theorem scripts_of_verifyInput {spentScript : Bytes} {tx : Transaction} {input : Nat}
    {input_lt : input < tx.inputs.length}
    (h : verifyInput spentScript tx input input_lt flags = .ok ()) :
    ∃ inputScript script, Script.decode tx.inputs[input].scriptSig = .ok inputScript ∧
      (flags.sigPushOnly → inputScript.isPushOnly) ∧ Script.decode spentScript = .ok script := by
  obtain ⟨_, h, -⟩ := Except.bind_eq_ok.mp h
  obtain ⟨inputScript, inputDecoded, h⟩ := Except.bind_eq_ok.mp h
  refine ⟨inputScript, ?_⟩
  split at h
  next => cases h
  next allowed =>
    obtain ⟨script, spentDecoded, -⟩ := Except.bind_eq_ok.mp h
    exact ⟨script, decodeScript_eq_ok.mp inputDecoded, by simpa using allowed,
      decodeScript_eq_ok.mp spentDecoded⟩

theorem Prepared.finalStack_eq (prepared : spend.Prepared) :
    finalStack spend.spentScript prepared.transaction spend.input prepared.input_lt prepared.flags =
      runScripts prepared.transaction spend.input prepared.input_lt prepared.flags
        prepared.inputScript prepared.spentScript := by
  rw [finalStack_of_allowed prepared.inputDecoded prepared.pushOnly,
    decodeScript_eq_ok.mpr prepared.spentDecoded]
  rfl

theorem verifyInput_eq_settle (prepared : spend.Prepared) :
    verifyInput spend.spentScript prepared.transaction spend.input prepared.input_lt
      prepared.flags = prepared.settle := by
  rw [verifyInput, prepared.finalStack_eq]
  rfl

theorem verify_eq_verifyInput {tx : Transaction} (flags_eq : Flags.ofBits? spend.flags = some flags)
    (parsed : Transaction.parse spend.transaction = .ok tx)
    (input_lt : spend.input < tx.inputs.length) :
    spend.verify = verifyInput spend.spentScript tx spend.input input_lt flags := by
  simp only [verify, flags_eq, parsed, input_lt, dite_true]

theorem verify_of_noSuchInput {tx : Transaction} (flags_eq : Flags.ofBits? spend.flags = some flags)
    (parsed : Transaction.parse spend.transaction = .ok tx)
    (outside : ¬ spend.input < tx.inputs.length) : spend.verify = .error .noSuchInput := by
  simp only [verify, flags_eq, parsed, outside, dite_false]

theorem verify_eq_settle (prepared : spend.Prepared) : spend.verify = prepared.settle :=
  (verify_eq_verifyInput prepared.flags_eq prepared.parsed prepared.input_lt).trans
    (verifyInput_eq_settle prepared)

theorem verify_eq_ok :
    spend.verify = .ok () ↔ ∃ prepared : spend.Prepared, prepared.settle = .ok () := by
  constructor
  · intro h
    have ⟨prepared⟩ : Nonempty spend.Prepared := by
      unfold verify at h
      split at h
      next => cases h
      next flags flags_eq =>
        split at h
        next => cases h
        next tx parsed =>
          split at h
          next input_lt =>
            obtain ⟨inputScript, spentScript, inputDecoded, pushOnly, spentDecoded⟩ :=
              scripts_of_verifyInput h
            exact ⟨{ flags, transaction := tx, inputScript, spentScript, flags_eq, parsed, input_lt,
                     inputDecoded, pushOnly, spentDecoded }⟩
          next => cases h
    exact ⟨prepared, (verify_eq_settle prepared).symm.trans h⟩
  · rintro ⟨prepared, settled⟩
    exact (verify_eq_settle prepared).trans settled

end SpendScript.Spend
