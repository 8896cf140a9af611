import SpendScript.Proofs.Machine.Failures
import SpendScript.Proofs.Spend.Outcome
import SpendScript.Proofs.Spend.Stages
import SpendScript.Proofs.Transaction.Canonical

/-!
# The first failing stage

`Spend.Fails` says of each stage by itself when it fails, and how the spend is then rejected, and
`Spend.Finds` what stands behind the rejection. Main statements: a verification fails with what the
first failing stage finds, so that its outcome is the rejection by that stage, and a spend is valid
exactly if no stage fails.
-/

namespace SpendScript.Spend

inductive Stage
  | flags
  | transaction
  | input
  | inputDecoding
  | pushOnly
  | spentDecoding
  | inputRun
  | spentRun
  | truth
  | cleanStack
  deriving DecidableEq, Repr

def Stage.Before (earlier later : Stage) : Prop := earlier.ctorIdx < later.ctorIdx

instance (earlier later : Stage) : Decidable (earlier.Before later) :=
  inferInstanceAs (Decidable (_ < _))

def HasScriptSig (spend : Spend) (bytes : Bytes) : Prop :=
  ∃ tx input, Transaction.parse spend.transaction = .ok tx ∧
    tx.inputs[spend.input]? = some input ∧ input.scriptSig = bytes

/-- When a stage fails, and with what. The runs and what comes after them are only for spends that
have been read. -/
inductive Fails (spend : Spend) : Stage → Rejection → Prop
  | flags : spend.flags &&& ~~~Flags.knownBits ≠ 0 →
      spend.Fails .flags { code := .invalidFlags, scriptError? := none }
  | transaction : (∀ tx, Transaction.parse spend.transaction ≠ .ok tx) →
      spend.Fails .transaction { code := .txDeserialize, scriptError? := none }
  | input {tx : Transaction} : Transaction.parse spend.transaction = .ok tx →
      tx.inputs.length ≤ spend.input →
      spend.Fails .input { code := .txIndex, scriptError? := none }
  | inputDecoding {bytes : Bytes} {error : DecodeError} : spend.HasScriptSig bytes →
      Script.decode bytes = .error error → spend.Fails .inputDecoding (.ofScript .badOpcode)
  | pushOnly {bytes : Bytes} {script : Script} : spend.flags &&& Flags.sigPushOnlyBit ≠ 0 →
      spend.HasScriptSig bytes → Script.decode bytes = .ok script → ¬ script.isPushOnly →
      spend.Fails .pushOnly (.ofScript .sigPushOnly)
  | spentDecoding {error : DecodeError} : Script.decode spend.spentScript = .error error →
      spend.Fails .spentDecoding (.ofScript .badOpcode)
  | inputRun {error : ScriptError} (prepared : spend.Prepared) :
      prepared.inputRun.error? = some error → spend.Fails .inputRun (.ofScript error)
  | spentRun {error : ScriptError} (prepared : spend.Prepared) :
      prepared.spentRun.error? = some error → spend.Fails .spentRun (.ofScript error)
  | truth (prepared : spend.Prepared) :
      (∀ top ∈ prepared.spentRun.stack.head?, isTruthy top = false) →
      spend.Fails .truth (.ofScript .evalFalse)
  | cleanStack (prepared : spend.Prepared) : spend.flags &&& Flags.cleanStackBit ≠ 0 →
      prepared.spentRun.stack.length ≠ 1 → spend.Fails .cleanStack (.ofScript .cleanStack)

def Reaches (spend : Spend) (stage : Stage) : Prop :=
  ∀ earlier rejection, earlier.Before stage → ¬ spend.Fails earlier rejection

variable {spend : Spend} {stage : Stage} {rejection : Rejection} {tx : Transaction} {flags : Flags}
  {script : Script}

theorem Fails.exists_first (fails : spend.Fails stage rejection) :
    ∃ first rejection, spend.Reaches first ∧ spend.Fails first rejection := by
  -- A stage that fails is the first one, or an earlier one fails, and so on down.
  induction position : stage.ctorIdx using Nat.strong_induction_on generalizing stage rejection with
  | _ _ ih =>
    by_cases reaches : spend.Reaches stage
    · exact ⟨stage, rejection, reaches, fails⟩
    · simp only [Reaches, not_forall, not_not] at reaches
      obtain ⟨earlier, rejection', before, fails'⟩ := reaches
      exact ih _ (position ▸ before) fails' rfl

-- ----------------------------------------------------------------------------
-- What has been passed
-- ----------------------------------------------------------------------------

namespace Reaches

theorem flags_eq (h : spend.Reaches stage) (passed : Stage.flags.Before stage) :
    ∃ flags, Flags.ofBits? spend.flags = some flags := by
  cases known : Flags.ofBits? spend.flags with
  | none => exact (h _ _ passed (.flags (Flags.ofBits?_eq_none.mp known))).elim
  | some flags => exact ⟨flags, rfl⟩

theorem parsed (h : spend.Reaches stage) (passed : Stage.transaction.Before stage) :
    ∃ tx, Transaction.parse spend.transaction = .ok tx := by
  by_contra unread
  exact h _ _ passed (.transaction fun tx parsed => unread ⟨tx, parsed⟩)

theorem input_lt (h : spend.Reaches stage) (passed : Stage.input.Before stage)
    (parsed : Transaction.parse spend.transaction = .ok tx) : spend.input < tx.inputs.length := by
  by_contra outside
  exact h _ _ passed (.input parsed (Nat.le_of_not_lt outside))

end Reaches

theorem hasScriptSig (parsed : Transaction.parse spend.transaction = .ok tx)
    (input_lt : spend.input < tx.inputs.length) :
    spend.HasScriptSig tx.inputs[spend.input].scriptSig :=
  ⟨tx, _, parsed, List.getElem?_eq_getElem input_lt, rfl⟩

theorem HasScriptSig.exists_input {bytes : Bytes} (h : spend.HasScriptSig bytes) :
    ∃ tx, Transaction.parse spend.transaction = .ok tx ∧
      ∃ input_lt : spend.input < tx.inputs.length,
        tx.inputs[spend.input].scriptSig = bytes := by
  obtain ⟨tx, input, parsed, found, rfl⟩ := h
  obtain ⟨input_lt, rfl⟩ := List.getElem?_eq_some_iff.mp found
  exact ⟨tx, parsed, input_lt, rfl⟩

namespace Reaches

theorem decoded (h : spend.Reaches stage) (passed : Stage.inputDecoding.Before stage)
    (parsed : Transaction.parse spend.transaction = .ok tx)
    (input_lt : spend.input < tx.inputs.length) :
    ∃ script, Script.decode tx.inputs[spend.input].scriptSig = .ok script := by
  cases decoded : Script.decode tx.inputs[spend.input].scriptSig with
  | error error =>
    exact (h _ _ passed (.inputDecoding (hasScriptSig parsed input_lt) decoded)).elim
  | ok script => exact ⟨script, rfl⟩

theorem allowed (h : spend.Reaches stage) (passed : Stage.pushOnly.Before stage)
    (flags_eq : Flags.ofBits? spend.flags = some flags)
    (parsed : Transaction.parse spend.transaction = .ok tx)
    (input_lt : spend.input < tx.inputs.length)
    (decoded : Script.decode tx.inputs[spend.input].scriptSig = .ok script) :
    flags.sigPushOnly → script.isPushOnly := by
  intro asked
  by_contra executes
  obtain ⟨-, rfl⟩ := Flags.ofBits?_eq_some.mp flags_eq
  exact h _ _ passed
    (.pushOnly (bne_iff_ne.mp asked) (hasScriptSig parsed input_lt) decoded executes)

theorem nonempty_prepared (h : spend.Reaches stage) (passed : Stage.spentDecoding.Before stage) :
    Nonempty spend.Prepared := by
  have before (earlier : Stage) (h : earlier.ctorIdx ≤ Stage.spentDecoding.ctorIdx) :
      earlier.Before stage := Nat.lt_of_le_of_lt h passed
  obtain ⟨flags, flags_eq⟩ := h.flags_eq (before .flags (by decide))
  obtain ⟨tx, parsed⟩ := h.parsed (before .transaction (by decide))
  have input_lt := h.input_lt (before .input (by decide)) parsed
  obtain ⟨inputScript, inputDecoded⟩ :=
    h.decoded (before .inputDecoding (by decide)) parsed input_lt
  have pushOnly :=
    h.allowed (before .pushOnly (by decide)) flags_eq parsed input_lt inputDecoded
  cases spentDecoded : Script.decode spend.spentScript with
  | error error => exact (h _ _ passed (.spentDecoding spentDecoded)).elim
  | ok spentScript =>
    exact ⟨{ flags, transaction := tx, inputScript, spentScript, flags_eq, parsed, input_lt,
             inputDecoded, pushOnly, spentDecoded }⟩

end Reaches

-- ----------------------------------------------------------------------------
-- What the failing stage finds
-- ----------------------------------------------------------------------------

def Stage.decoding : Role → Stage
  | .input => .inputDecoding
  | .spent => .spentDecoding

def Stage.run : Role → Stage
  | .input => .inputRun
  | .spent => .spentRun

def HasScript (spend : Spend) : Role → Bytes → Prop
  | .input, bytes => spend.HasScriptSig bytes
  | .spent, bytes => spend.spentScript = bytes

/-- What a stage that fails finds. A rejection tells no more than part of it. -/
inductive Finds (spend : Spend) : Stage → Failure → Prop
  | flags : spend.flags &&& ~~~Flags.knownBits ≠ 0 → spend.Finds .flags .invalidFlags
  | transaction {error : Transaction.ParseError} :
      Transaction.parse spend.transaction = .error error →
      spend.Finds .transaction (.transaction error)
  | input {tx : Transaction} : Transaction.parse spend.transaction = .ok tx →
      tx.inputs.length ≤ spend.input → spend.Finds .input .noSuchInput
  | decoding (role : Role) {bytes : Bytes} {error : DecodeError} : spend.HasScript role bytes →
      Script.decode bytes = .error error → spend.Finds (.decoding role) (.undecodable role error)
  | pushOnly {bytes : Bytes} {script : Script} : spend.flags &&& Flags.sigPushOnlyBit ≠ 0 →
      spend.HasScriptSig bytes → Script.decode bytes = .ok script → ¬ script.isPushOnly →
      spend.Finds .pushOnly .notPushOnly
  | run (role : Role) {halt : Halt} (prepared : spend.Prepared) :
      (prepared.run role).halt? = some halt → spend.Finds (.run role) (.halted role halt)
  | truth (prepared : spend.Prepared) :
      (∀ top ∈ prepared.spentRun.stack.head?, isTruthy top = false) →
      spend.Finds .truth .falseResult
  | cleanStack (prepared : spend.Prepared) : spend.flags &&& Flags.cleanStackBit ≠ 0 →
      prepared.spentRun.stack.length ≠ 1 → spend.Finds .cleanStack .uncleanStack

theorem Fails.exists_finds (fails : spend.Fails stage rejection) :
    ∃ failure, spend.Finds stage failure ∧ failure.rejection = rejection := by
  cases fails with
  | flags unknown => exact ⟨_, .flags unknown, rfl⟩
  | transaction unread =>
    cases parsed : Transaction.parse spend.transaction with
    | ok tx => exact (unread tx parsed).elim
    | error error =>
      cases error with
      | malformed => exact ⟨_, .transaction parsed, rfl⟩
      | sizeMismatch => exact (Transaction.parse_ne_sizeMismatch _ parsed).elim
  | input parsed outside => exact ⟨_, .input parsed outside, rfl⟩
  | inputDecoding found undecodable => exact ⟨_, .decoding .input found undecodable, rfl⟩
  | pushOnly asked found decoded executes =>
    exact ⟨_, .pushOnly asked found decoded executes, rfl⟩
  | spentDecoding undecodable => exact ⟨_, .decoding .spent rfl undecodable, rfl⟩
  | inputRun prepared failed =>
    obtain ⟨halt, halted, rfl⟩ := Option.map_eq_some_iff.mp failed
    exact ⟨_, .run .input prepared halted, rfl⟩
  | spentRun prepared failed =>
    obtain ⟨halt, halted, rfl⟩ := Option.map_eq_some_iff.mp failed
    exact ⟨_, .run .spent prepared halted, rfl⟩
  | truth prepared untrue => exact ⟨_, .truth prepared untrue, rfl⟩
  | cleanStack prepared asked unclean => exact ⟨_, .cleanStack prepared asked unclean, rfl⟩

namespace Prepared

theorem run_ended (prepared : spend.Prepared) (h : spend.Reaches stage) (role : Role)
    (passed : (Stage.run role).Before stage) : (prepared.run role).halt? = none := by
  cases halted : (prepared.run role).halt? with
  | none => rfl
  | some halt =>
    have failed := Machine.error?_of_halted halted
    cases role with
    | input => exact (h _ _ passed (.inputRun prepared failed)).elim
    | spent => exact (h _ _ passed (.spentRun prepared failed)).elim

theorem verify_eq_judge (prepared : spend.Prepared) (h : spend.Reaches stage)
    (passed : Stage.spentRun.Before stage) :
    spend.verify = judge prepared.flags prepared.spentRun.stack := by
  refine (verify_eq_settle prepared).trans (settle_of_ended fun role => prepared.run_ended h role ?_)
  cases role with
  | input => exact Nat.lt_trans (by decide) passed
  | spent => exact passed

theorem exists_top (prepared : spend.Prepared) (h : spend.Reaches stage)
    (passed : Stage.truth.Before stage) :
    ∃ top rest, prepared.spentRun.stack = top :: rest ∧ isTruthy top := by
  by_contra untrue
  refine h _ _ passed (.truth prepared fun top found => ?_)
  obtain ⟨rest, left⟩ := List.head?_eq_some_iff.mp (Option.mem_def.mp found)
  by_contra truthy
  exact untrue ⟨top, rest, left, by simpa using truthy⟩

theorem cleanStack_iff (prepared : spend.Prepared) :
    prepared.flags.cleanStack ↔ spend.flags &&& Flags.cleanStackBit ≠ 0 := by
  rw [← (Flags.ofBits?_eq_some.mp prepared.flags_eq).2]
  exact bne_iff_ne

theorem error_mem_run {error : ScriptError} (prepared : spend.Prepared) (role : Role)
    (failed : (prepared.run role).error? = some error) : error ∈ Step.answeredErrors := by
  rw [prepared.run_eq] at failed
  exact Script.error_mem_of_eval (Script.result_run.symm.trans (Machine.result_eq_error.mpr failed))

end Prepared

/-- What the first stage that fails finds is the failure of the spend. -/
theorem Finds.verify_eq {failure : Failure} (finds : spend.Finds stage failure)
    (reaches : spend.Reaches stage) : spend.verify = .error failure := by
  -- That the stage is reached settles every branch before its own.
  cases finds with
  | flags unknown => rw [verify, Flags.ofBits?_eq_none.mpr unknown]
  | transaction unread =>
    obtain ⟨flags, flags_eq⟩ := reaches.flags_eq (by decide)
    rw [verify, flags_eq, unread]
  | input parsed outside =>
    obtain ⟨flags, flags_eq⟩ := reaches.flags_eq (by decide)
    exact verify_of_noSuchInput flags_eq parsed (Nat.not_lt_of_le outside)
  | decoding role found undecodable =>
    cases role with
    | input =>
      obtain ⟨flags, flags_eq⟩ := reaches.flags_eq (by decide)
      obtain ⟨tx, parsed, input_lt, rfl⟩ := HasScriptSig.exists_input found
      rw [verify_eq_verifyInput flags_eq parsed input_lt, verifyInput_of_undecodable undecodable]
    | spent =>
      obtain rfl := found
      obtain ⟨flags, flags_eq⟩ := reaches.flags_eq (by decide)
      obtain ⟨tx, parsed⟩ := reaches.parsed (by decide)
      have input_lt := reaches.input_lt (by decide) parsed
      obtain ⟨script, decoded⟩ := reaches.decoded (by decide) parsed input_lt
      have allowed := reaches.allowed (by decide) flags_eq parsed input_lt decoded
      rw [verify_eq_verifyInput flags_eq parsed input_lt, verifyInput_of_allowed decoded allowed,
        decodeScript_of_error undecodable]
      rfl
  | pushOnly asked found decoded executes =>
    obtain ⟨flags, flags_eq⟩ := reaches.flags_eq (by decide)
    obtain ⟨tx, parsed, input_lt, rfl⟩ := found.exists_input
    have pushOnly : flags.sigPushOnly := by
      rw [← (Flags.ofBits?_eq_some.mp flags_eq).2]
      exact bne_iff_ne.mpr asked
    rw [verify_eq_verifyInput flags_eq parsed input_lt,
      verifyInput_of_not_pushOnly decoded pushOnly executes]
  | run role prepared halted =>
    rw [verify_eq_settle prepared]
    cases role with
    | input => exact Prepared.settle_of_inputRun_halted halted
    | spent =>
      have ended : prepared.inputRun.halt? = none := prepared.run_ended reaches .input (by decide)
      exact Prepared.settle_of_spentRun_halted ended halted
  | truth prepared untrue =>
    rw [prepared.verify_eq_judge reaches (by decide)]
    cases left : prepared.spentRun.stack with
    | nil => rfl
    | cons top rest =>
      have untrue : isTruthy top = false := untrue top (by rw [left]; rfl)
      simp [judge, untrue]
  | cleanStack prepared asked unclean =>
    obtain ⟨top, rest, left, truthy⟩ := prepared.exists_top reaches (by decide)
    rw [left, List.length_cons] at unclean
    have more : rest ≠ [] := fun none => unclean (by rw [none]; rfl)
    rw [prepared.verify_eq_judge reaches (by decide), left]
    simp [judge, truthy, prepared.cleanStack_iff.mpr asked, more]

-- ----------------------------------------------------------------------------
-- The outcome
-- ----------------------------------------------------------------------------

theorem Fails.outcome_eq (fails : spend.Fails stage rejection) (reaches : spend.Reaches stage) :
    spend.report.outcome = .error rejection := by
  obtain ⟨failure, finds, rfl⟩ := fails.exists_finds
  exact report_outcome_of_error (finds.verify_eq reaches)

theorem outcome_of_not_fails (passed : ∀ stage rejection, ¬ spend.Fails stage rejection) :
    spend.report.outcome = .ok () := by
  have reaches : spend.Reaches .cleanStack := fun stage rejection _ => passed stage rejection
  obtain ⟨prepared⟩ := reaches.nonempty_prepared (by decide)
  obtain ⟨top, rest, left, truthy⟩ := prepared.exists_top reaches (by decide)
  refine report_outcome_eq_ok.mpr ((prepared.verify_eq_judge reaches (by decide)).trans ?_)
  refine judge_eq_ok.mpr ⟨top, rest, left, truthy, fun asked => ?_⟩
  by_contra more
  refine passed _ _ (.cleanStack prepared (prepared.cleanStack_iff.mp asked) ?_)
  rw [left, List.length_cons]
  exact fun one => more (List.length_eq_zero_iff.mp (Nat.succ.inj one))

theorem verify_eq_error {failure : Failure} :
    spend.verify = .error failure ↔ ∃ stage, spend.Reaches stage ∧ spend.Finds stage failure := by
  refine ⟨fun failed => ?_, fun ⟨stage, reaches, finds⟩ => finds.verify_eq reaches⟩
  obtain ⟨stage, rejection, fails⟩ : ∃ stage rejection, spend.Fails stage rejection := by
    by_contra none
    have valid := outcome_of_not_fails fun stage rejection fails => none ⟨stage, rejection, fails⟩
    cases failed.symm.trans (report_outcome_eq_ok.mp valid)
  obtain ⟨first, rejection, reaches, fails⟩ := fails.exists_first
  obtain ⟨found, finds, -⟩ := fails.exists_finds
  obtain rfl := Except.error.inj (failed.symm.trans (finds.verify_eq reaches))
  exact ⟨first, reaches, finds⟩

theorem Fails.scriptError_cases (fails : spend.Fails stage rejection) :
    (rejection.code = .script ↔ rejection.scriptError? ≠ none) ∧
      rejection.scriptError? ≠ some .unknown ∧ rejection.scriptError? ≠ some .noSigningContext := by
  have answered {error : ScriptError} (mem : error ∈ Step.answeredErrors) :
      some error ≠ some ScriptError.unknown ∧ some error ≠ some ScriptError.noSigningContext := by
    revert mem
    cases error <;> decide
  cases fails with
  | inputRun prepared failed =>
    exact ⟨iff_of_true rfl nofun, answered (prepared.error_mem_run .input failed)⟩
  | spentRun prepared failed =>
    exact ⟨iff_of_true rfl nofun, answered (prepared.error_mem_run .spent failed)⟩
  | _ => decide

theorem Prepared.create_context (prepared : spend.Prepared) (role : Role) :
    SigningContext.create prepared.transaction spend.input (prepared.script role) prepared.flags =
      .ok (prepared.context role) :=
  dif_pos prepared.input_lt

/-- The outcome is decided by the first stage that fails, and there is one for every spend that is
not valid. An input is only looked at where there is one, and at the runs no context is refused. -/
theorem outcome_eq_first_failure (spend : Spend) :
    (spend.report.outcome = .ok () ↔ ∀ stage rejection, ¬ spend.Fails stage rejection) ∧
      (∀ rejection, spend.report.outcome = .error rejection ↔
        ∃ stage, spend.Reaches stage ∧ spend.Fails stage rejection) ∧
      (∀ rejection, spend.report.outcome = .error rejection →
        (rejection.code = .script ↔ rejection.scriptError? ≠ none) ∧
          rejection.scriptError? ≠ some .unknown ∧
          rejection.scriptError? ≠ some .noSigningContext) ∧
      (spend.Reaches .inputDecoding → ∃ tx, Transaction.parse spend.transaction = .ok tx ∧
        spend.input < tx.inputs.length) ∧
      (spend.Reaches .inputRun → ∃ prepared : spend.Prepared, ∀ role,
        SigningContext.create prepared.transaction spend.input (prepared.script role)
          prepared.flags = .ok (prepared.context role)) := by
  have valid : spend.report.outcome = .ok () ↔ ∀ stage rejection, ¬ spend.Fails stage rejection := by
    refine ⟨fun ok stage rejection fails => ?_, outcome_of_not_fails⟩
    obtain ⟨first, rejection, reaches, fails⟩ := fails.exists_first
    rw [fails.outcome_eq reaches] at ok
    cases ok
  have rejected (rejection : Rejection) : spend.report.outcome = .error rejection ↔
      ∃ stage, spend.Reaches stage ∧ spend.Fails stage rejection := by
    refine ⟨fun error => ?_, fun ⟨stage, reaches, fails⟩ => fails.outcome_eq reaches⟩
    obtain ⟨stage, other, fails⟩ : ∃ stage other, spend.Fails stage other := by
      by_contra none
      rw [valid.mpr fun stage other fails => none ⟨stage, other, fails⟩] at error
      cases error
    obtain ⟨first, other, reaches, fails⟩ := fails.exists_first
    have same := (fails.outcome_eq reaches).symm.trans error
    cases same
    exact ⟨first, reaches, fails⟩
  refine ⟨valid, rejected, fun rejection error => ?_, fun reaches => ?_, fun reaches => ?_⟩
  · obtain ⟨stage, -, fails⟩ := (rejected rejection).mp error
    exact fails.scriptError_cases
  · obtain ⟨tx, parsed⟩ := reaches.parsed (by decide)
    exact ⟨tx, parsed, reaches.input_lt (by decide) parsed⟩
  · obtain ⟨prepared⟩ := reaches.nonempty_prepared (by decide)
    exact ⟨prepared, prepared.create_context⟩

end SpendScript.Spend
