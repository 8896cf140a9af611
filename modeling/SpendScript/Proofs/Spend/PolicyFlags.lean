import Mathlib.Data.UInt
import SpendScript.Proofs.Signature.Narrowing
import SpendScript.Proofs.Spend.FirstFailure
import SpendScript.Proofs.Spend.Noninterference

/-!
# What a policy flag changes

Two flags are matters of policy: that an input's script may only push, and that nothing else may be
left on the stack. Neither has a part in how scripts run. Main statement: setting one of them changes
the report in exactly one case, that in which its rule is broken.
-/

namespace SpendScript

-- ----------------------------------------------------------------------------
-- Setting a flag
-- ----------------------------------------------------------------------------

namespace Flags

variable {bits more : UInt32} {flags added : Flags}

def union (flags added : Flags) : Flags where
  strictDer := flags.strictDer || added.strictDer
  sigPushOnly := flags.sigPushOnly || added.sigPushOnly
  cleanStack := flags.cleanStack || added.cleanStack

theorem or_and_mask (bits more mask : UInt32) :
    (bits ||| more) &&& mask = (bits &&& mask) ||| (more &&& mask) := by
  apply UInt32.toNat_inj.mp
  simp only [UInt32.toNat_and, UInt32.toNat_or, Nat.and_or_distrib_right]

theorem or_and_mask_ne_zero (bits more mask : UInt32) :
    ((bits ||| more) &&& mask != 0) = (bits &&& mask != 0 || more &&& mask != 0) := by
  rw [or_and_mask, Bool.eq_iff_iff]
  simp only [bne_iff_ne, Bool.or_eq_true, ne_eq, UInt32.or_eq_zero_iff, not_and_or]

theorem ofBits?_or (h : ofBits? bits = some flags) (ha : ofBits? more = some added) :
    ofBits? (bits ||| more) = some (flags.union added) := by
  obtain ⟨known, rfl⟩ := ofBits?_eq_some.mp h
  obtain ⟨known', rfl⟩ := ofBits?_eq_some.mp ha
  refine ofBits?_eq_some.mpr ⟨?_, ?_⟩
  · rw [or_and_mask, known, known', UInt32.or_zero]
  · simp only [or_and_mask_ne_zero, union]

end Flags

namespace Spend

variable {spend : Spend} {spentScript : Bytes} {tx : Transaction} {input : Nat}
  {input_lt : input < tx.inputs.length} {bit : UInt32} {flags flags' added : Flags} {stack : Stack}

def withFlag (spend : Spend) (bit : UInt32) : Spend := { spend with flags := spend.flags ||| bit }

theorem verify_withFlag (flags_eq : Flags.ofBits? spend.flags = some flags)
    (bit_eq : Flags.ofBits? bit = some added)
    (parsed : Transaction.parse spend.transaction = .ok tx)
    (input_lt : spend.input < tx.inputs.length) : (spend.withFlag bit).verify =
      verifyInput spend.spentScript tx spend.input input_lt (flags.union added) :=
  @verify_eq_verifyInput (spend.withFlag bit) _ tx (Flags.ofBits?_or flags_eq bit_eq) parsed input_lt

theorem verify_withFlag_congr (flags_eq : Flags.ofBits? spend.flags = some flags)
    (bit_eq : Flags.ofBits? bit = some added)
    (same : ∀ tx, Transaction.parse spend.transaction = .ok tx →
      ∀ input_lt : spend.input < tx.inputs.length,
        verifyInput spend.spentScript tx spend.input input_lt (flags.union added) =
          verifyInput spend.spentScript tx spend.input input_lt flags) :
    (spend.withFlag bit).verify = spend.verify := by
  have flags_eq' := Flags.ofBits?_or flags_eq bit_eq
  cases parsed : Transaction.parse spend.transaction with
  | error error => simp only [verify, withFlag, flags_eq, flags_eq', parsed]
  | ok tx =>
    by_cases input_lt : spend.input < tx.inputs.length
    · rw [verify_withFlag flags_eq bit_eq parsed input_lt, same tx parsed input_lt,
        verify_eq_verifyInput flags_eq parsed input_lt]
    · rw [verify_of_noSuchInput flags_eq parsed input_lt]
      exact @verify_of_noSuchInput (spend.withFlag bit) _ tx flags_eq' parsed input_lt

-- ----------------------------------------------------------------------------
-- The stack that is judged
-- ----------------------------------------------------------------------------

theorem runScript_of_strictDer (same : flags'.strictDer = flags.strictDer) (role : Role)
    (script : Script) (stack : Stack) :
    runScript role (.ofScript tx input input_lt script flags') script stack =
      runScript role (.ofScript tx input input_lt script flags) script stack :=
  runScript_of_accepts
    (@SigningContext.accepts_withFlags_eq (.ofScript tx input input_lt script flags) flags' same)

theorem finalStack_congr (strictDer : flags'.strictDer = flags.strictDer)
    (pushOnly : ∀ script, Script.decode tx.inputs[input].scriptSig = .ok script →
      (flags'.sigPushOnly && !script.isPushOnly) = (flags.sigPushOnly && !script.isPushOnly)) :
    finalStack spentScript tx input input_lt flags' =
      finalStack spentScript tx input input_lt flags := by
  rw [finalStack, finalStack]
  cases decoded : Script.decode tx.inputs[input].scriptSig with
  | error error =>
    simp only [decodeScript, decoded]
    rfl
  | ok script =>
    simp only [decodeScript_eq_ok.mpr decoded, Except.ok_bind, pushOnly script decoded,
      runScripts, runScript_of_strictDer strictDer]

theorem Prepared.spentRun_stack (prepared : spend.Prepared)
    (left : finalStack spend.spentScript prepared.transaction spend.input prepared.input_lt
      prepared.flags = .ok stack) : prepared.spentRun.stack = stack := by
  rw [prepared.finalStack_eq, prepared.runScripts_eq] at left
  obtain ⟨_, ran, left⟩ := Except.bind_eq_ok.mp left
  obtain ⟨-, rfl⟩ := runScript_eq_ok.mp ran
  exact (runScript_eq_ok.mp left).2

theorem judge_congr (same : flags'.cleanStack = flags.cleanStack) : judge flags' = judge flags := by
  funext stack
  simp only [judge, same]

theorem judge_of_cleanStack (clean : flags'.cleanStack) (stack : Stack) :
    judge flags' stack = if judge flags stack = .ok () ∧ stack.length ≠ 1
      then .error .uncleanStack else judge flags stack := by
  cases stack with
  | nil => rfl
  | cons top rest =>
    cases truthy : isTruthy top with
    | false => simp [judge, truthy]
    | true => cases flags.cleanStack <;> cases rest <;> simp [judge, truthy, clean]

-- ----------------------------------------------------------------------------
-- Inputs whose script may only push
-- ----------------------------------------------------------------------------

/-- There is such an input, and its script decodes and does more than push. -/
def RunsCode (spend : Spend) : Prop :=
  ∃ bytes script, spend.HasScriptSig bytes ∧ Script.decode bytes = .ok script ∧
    ¬ script.isPushOnly

theorem ofBits?_sigPushOnlyBit :
    Flags.ofBits? Flags.sigPushOnlyBit = some { sigPushOnly := true } := rfl

theorem verify_withSigPushOnly_of_runsCode (flags_eq : Flags.ofBits? spend.flags = some flags)
    (executes : spend.RunsCode) :
    (spend.withFlag Flags.sigPushOnlyBit).verify = .error .notPushOnly := by
  obtain ⟨bytes, script, found, decoded, executes⟩ := executes
  obtain ⟨tx, parsed, input_lt, rfl⟩ := found.exists_input
  rw [verify_withFlag flags_eq ofBits?_sigPushOnlyBit parsed input_lt]
  exact verifyInput_of_not_pushOnly decoded (Bool.or_true _) executes

theorem verify_withSigPushOnly (flags_eq : Flags.ofBits? spend.flags = some flags)
    (pushes : ¬ spend.RunsCode) :
    (spend.withFlag Flags.sigPushOnlyBit).verify = spend.verify := by
  refine verify_withFlag_congr flags_eq ofBits?_sigPushOnlyBit fun tx parsed input_lt => ?_
  have left : finalStack spend.spentScript tx spend.input input_lt
      (flags.union { sigPushOnly := true }) =
        finalStack spend.spentScript tx spend.input input_lt flags := by
    refine finalStack_congr (Bool.or_false _) fun script decoded => ?_
    have only : script.isPushOnly := by
      by_contra executes
      exact pushes ⟨_, script, hasScriptSig parsed input_lt, decoded, executes⟩
    simp only [only, Bool.not_true, Bool.and_false]
  rw [verifyInput, verifyInput, left, judge_congr (Bool.or_false _)]

-- ----------------------------------------------------------------------------
-- Stacks on which one item must be left
-- ----------------------------------------------------------------------------

def EndsUnclean (spend : Spend) : Prop :=
  spend.report.outcome = .ok () ∧
    ∃ prepared : spend.Prepared, prepared.spentRun.stack.length ≠ 1

theorem ofBits?_cleanStackBit :
    Flags.ofBits? Flags.cleanStackBit = some { cleanStack := true } := rfl

/-- All that the rule on the stack adds is its own judgement. -/
theorem verifyInput_withCleanStack :
    verifyInput spentScript tx input input_lt (flags.union { cleanStack := true }) =
      finalStack spentScript tx input input_lt flags >>= fun stack =>
        if judge flags stack = .ok () ∧ stack.length ≠ 1
          then .error .uncleanStack else judge flags stack := by
  have left : finalStack spentScript tx input input_lt (flags.union { cleanStack := true }) =
      finalStack spentScript tx input input_lt flags :=
    finalStack_congr (Bool.or_false _) fun script _ => by simp only [Flags.union, Bool.or_false]
  rw [verifyInput, left]
  congr 1
  exact funext (judge_of_cleanStack (Bool.or_true _))

theorem verify_withCleanStack_of_endsUnclean (flags_eq : Flags.ofBits? spend.flags = some flags)
    (unclean : spend.EndsUnclean) :
    (spend.withFlag Flags.cleanStackBit).verify = .error .uncleanStack := by
  obtain ⟨valid, prepared, unclean⟩ := unclean
  obtain rfl := Option.some.inj (flags_eq.symm.trans prepared.flags_eq)
  have valid := report_outcome_eq_ok.mp valid
  rw [verify_eq_verifyInput flags_eq prepared.parsed prepared.input_lt, verifyInput] at valid
  obtain ⟨stack, left, judged⟩ := Except.bind_eq_ok.mp valid
  rw [prepared.spentRun_stack left] at unclean
  rw [verify_withFlag flags_eq ofBits?_cleanStackBit prepared.parsed prepared.input_lt,
    verifyInput_withCleanStack, left]
  exact if_pos ⟨judged, unclean⟩

theorem verify_withCleanStack (flags_eq : Flags.ofBits? spend.flags = some flags)
    (clean : ¬ spend.EndsUnclean) :
    (spend.withFlag Flags.cleanStackBit).verify = spend.verify := by
  refine verify_withFlag_congr flags_eq ofBits?_cleanStackBit fun tx parsed input_lt => ?_
  rw [verifyInput_withCleanStack, verifyInput]
  cases left : finalStack spend.spentScript tx spend.input input_lt flags with
  | error failure => rfl
  | ok stack =>
    refine if_neg ?_
    rintro ⟨judged, unclean⟩
    refine clean ?_
    -- A stack that is judged well is that of a spend that has been read.
    have valid : spend.verify = .ok () := by
      rw [verify_eq_verifyInput flags_eq parsed input_lt, verifyInput, left]
      exact judged
    obtain ⟨prepared, -⟩ := verify_eq_ok.mp valid
    obtain rfl := Except.ok.inj (parsed.symm.trans prepared.parsed)
    obtain rfl := Option.some.inj (flags_eq.symm.trans prepared.flags_eq)
    refine ⟨report_outcome_eq_ok.mpr valid, prepared, ?_⟩
    rwa [prepared.spentRun_stack left]

/-- What each of the two flags changes when it is set: the one has inputs refused whose script runs
code, the other has valid spends refused whose scripts do not leave exactly one item. -/
theorem report_withFlag (known : spend.flags &&& ~~~Flags.knownBits = 0) :
    ((spend.RunsCode → (spend.withFlag Flags.sigPushOnlyBit).report.outcome =
        .error (.ofScript .sigPushOnly)) ∧
      (¬ spend.RunsCode → (spend.withFlag Flags.sigPushOnlyBit).report = spend.report)) ∧
    ((spend.EndsUnclean → (spend.withFlag Flags.cleanStackBit).report.outcome =
        .error (.ofScript .cleanStack)) ∧
      (¬ spend.EndsUnclean → (spend.withFlag Flags.cleanStackBit).report = spend.report)) := by
  have flags_eq := Flags.ofBits?_eq_some.mpr ⟨known, rfl⟩
  refine ⟨⟨fun executes => ?_, fun pushes => ?_⟩, ⟨fun unclean => ?_, fun clean => ?_⟩⟩
  · rw [report_outcome, verify_withSigPushOnly_of_runsCode flags_eq executes]
    rfl
  · exact report_congr rfl (verify_withSigPushOnly flags_eq pushes)
  · rw [report_outcome, verify_withCleanStack_of_endsUnclean flags_eq unclean]
    rfl
  · exact report_congr rfl (verify_withCleanStack flags_eq clean)

def copyingSpend : Spend where
  spentScript := Script.encode [.op .dup]
  transaction := (Transaction.ofInput (Script.encode [.push [7], .op .dup]) []).bytes
  input := 0
  flags := Flags.strictDerBit

def copyingSpendPrepared : copyingSpend.Prepared where
  flags := { strictDer := true }
  transaction := .ofInput (Script.encode [.push [7], .op .dup]) []
  inputScript := [.push [7], .op .dup]
  spentScript := [.op .dup]
  flags_eq := rfl
  parsed := Transaction.parse_ofInput (by decide)
  input_lt := by decide
  inputDecoded := by decide +kernel
  pushOnly := nofun
  spentDecoded := by decide +kernel

theorem copyingSpend_withFlag :
    (copyingSpend.withFlag Flags.sigPushOnlyBit).report.outcome =
        .error (.ofScript .sigPushOnly) ∧
      (copyingSpend.withFlag Flags.cleanStackBit).report.outcome =
        .error (.ofScript .cleanStack) := by
  have known : copyingSpend.flags &&& ~~~Flags.knownBits = 0 := by decide
  have executes : copyingSpend.RunsCode :=
    ⟨_, [.push [7], .op .dup], hasScriptSig copyingSpendPrepared.parsed (by decide),
      copyingSpendPrepared.inputDecoded, by decide⟩
  have unclean : copyingSpend.EndsUnclean :=
    ⟨by decide +kernel, copyingSpendPrepared, by decide +kernel⟩
  exact ⟨(report_withFlag known).1.1 executes, (report_withFlag known).2.1 unclean⟩

end Spend

end SpendScript
