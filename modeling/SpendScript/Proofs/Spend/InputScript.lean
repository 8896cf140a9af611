import SpendScript.Proofs.Spend.Noninterference
import SpendScript.Proofs.Spend.PayToKeyHash
import SpendScript.Proofs.Spend.Stages

/-!
# What matters of an input's script

The script of an input may be any program. Main statement: once it has run, all that can be told of it
is the stack that it leaves. Inputs that leave the same stack make the spent script run alike, down to
the answers to its signature checks, and their spends are reported alike.
-/

namespace SpendScript.Spend

/-- The flags allow the script of the input, which runs to its end and leaves this stack. -/
def InputLeaves (tx : Transaction) (input : Nat) (input_lt : input < tx.inputs.length)
    (flags : Flags) (stack : Stack) : Prop :=
  ∃ script, Script.decode tx.inputs[input].scriptSig = .ok script ∧
    (flags.sigPushOnly → script.isPushOnly) ∧
    runScript .input (.ofScript tx input input_lt script flags) script [] = .ok stack

variable {tx tx' : Transaction} {input : Nat} {input_lt : input < tx.inputs.length}
  {flags : Flags} {stack : Stack} {spend : Spend} {spentScript raw raw' : Bytes} {bits : UInt32}

theorem InputLeaves.finalStack_eq (leaves : InputLeaves tx input input_lt flags stack) :
    finalStack spentScript tx input input_lt flags = (do
      let script ← decodeScript .spent spentScript
      runScript .spent (.ofScript tx input input_lt script flags) script stack) := by
  obtain ⟨script, decoded, allowed, ran⟩ := leaves
  rw [finalStack_of_allowed decoded allowed]
  congr 1
  funext spent
  rw [runScripts, ran, Except.ok_bind]

theorem InputLeaves.finalStack_congr {hi : input < tx.inputs.length} {hi' : input < tx'.inputs.length}
    (leaves : InputLeaves tx input hi flags stack) (leaves' : InputLeaves tx' input hi' flags stack)
    (alike : tx.SignedAlike tx') :
    finalStack spentScript tx input hi flags = finalStack spentScript tx' input hi' flags := by
  simp only [leaves.finalStack_eq, leaves'.finalStack_eq, runScript_of_signedAlike alike hi hi']

theorem InputLeaves.inputRun_stack {prepared : spend.Prepared}
    (leaves : InputLeaves prepared.transaction spend.input prepared.input_lt prepared.flags stack) :
    prepared.inputRun.stack = stack := by
  obtain ⟨script, decoded, -, ran⟩ := leaves
  obtain rfl := Except.ok.inj (prepared.inputDecoded.symm.trans decoded)
  exact (runScript_eq_ok.mp ran).2

/-- Two inputs whose scripts leave the same stack, in transactions of which every signature covers the
same: the spends are reported alike, and the spent script runs alike. -/
theorem report_eq_of_same_stack (parsed : Transaction.parse raw = .ok tx)
    (parsed' : Transaction.parse raw' = .ok tx') (hi : input < tx.inputs.length)
    (hi' : input < tx'.inputs.length) (alike : tx.SignedAlike tx')
    (same : ∀ flags, Flags.ofBits? bits = some flags → ∃ stack,
      InputLeaves tx input hi flags stack ∧ InputLeaves tx' input hi' flags stack) :
    (Spend.mk spentScript raw input bits).report = (Spend.mk spentScript raw' input bits).report ∧
      ∀ (prepared : (Spend.mk spentScript raw input bits).Prepared)
        (prepared' : (Spend.mk spentScript raw' input bits).Prepared),
        prepared.spentRun = prepared'.spentRun := by
  constructor
  · refine report_congr (by rfl) ?_
    cases flags_eq : Flags.ofBits? bits with
    | none => simp only [verify, flags_eq]
    | some flags =>
      obtain ⟨stack, leaves, leaves'⟩ := same flags flags_eq
      rw [@verify_eq_verifyInput ⟨spentScript, raw, input, bits⟩ _ _ flags_eq parsed hi,
        @verify_eq_verifyInput ⟨spentScript, raw', input, bits⟩ _ _ flags_eq parsed' hi',
        verifyInput, verifyInput, leaves.finalStack_congr leaves' alike]
  · intro prepared prepared'
    -- Both read the transactions, the flags and the spent script that are given.
    obtain rfl := Except.ok.inj (parsed.symm.trans prepared.parsed)
    obtain rfl := Except.ok.inj (parsed'.symm.trans prepared'.parsed)
    have flags_eq : prepared'.flags = prepared.flags :=
      Option.some.inj (prepared'.flags_eq.symm.trans prepared.flags_eq)
    have script_eq : prepared'.spentScript = prepared.spentScript :=
      Except.ok.inj (prepared'.spentDecoded.symm.trans prepared.spentDecoded)
    obtain ⟨stack, leaves, leaves'⟩ := same prepared.flags prepared.flags_eq
    rw [← flags_eq] at leaves'
    have answers : (prepared.context .spent).accepts = (prepared'.context .spent).accepts := by
      show (SigningContext.ofScript _ _ hi prepared.spentScript prepared.flags).accepts =
        (SigningContext.ofScript _ _ hi' prepared'.spentScript prepared'.flags).accepts
      rw [script_eq, flags_eq]
      exact SigningContext.accepts_of_signedAlike alike hi hi'
    rw [Prepared.spentRun, Prepared.spentRun, leaves.inputRun_stack, leaves'.inputRun_stack,
      script_eq, answers]

def signatureAndKey : Script := [.push (tagged generatorSignature), .push generatorKey]

/-- A script that leaves the same two items, but checks a signature and passes a separator first. -/
def signatureAndKeyAfterCheck : Script :=
  [.push (tagged [9]), .push generatorKey, .op .checkSig, .push (boolItem false), .op .equalVerify,
    .op .codeSeparator] ++ signatureAndKey

theorem report_signatureAndKey_eq :
    (Spend.mk
      (Script.payToKeyHash (beBytes 20 0x751e76e8199196d454941c45d1b3a323f1433bd6)).encode
      (Transaction.ofInput signatureAndKey.encode []).bytes 0 0x104).report =
    (Spend.mk
      (Script.payToKeyHash (beBytes 20 0x751e76e8199196d454941c45d1b3a323f1433bd6)).encode
      (Transaction.ofInput signatureAndKeyAfterCheck.encode []).bytes 0 0x104).report := by
  have small : signatureAndKey.encode.length < 2 ^ 64 := by decide
  have small' : signatureAndKeyAfterCheck.encode.length < 2 ^ 64 := by decide
  refine (report_eq_of_same_stack (Transaction.parse_ofInput small)
    (Transaction.parse_ofInput small') (by decide) (by decide) ⟨rfl, rfl, rfl, rfl⟩
    fun flags flags_eq => ⟨[generatorKey, tagged generatorSignature], ?_, ?_⟩).1
  · obtain rfl := Option.some.inj flags_eq
    exact ⟨signatureAndKey, by decide +kernel, nofun, by decide +kernel⟩
  · obtain rfl := Option.some.inj flags_eq
    exact ⟨signatureAndKeyAfterCheck, by decide +kernel, nofun, by decide +kernel⟩

end SpendScript.Spend
