import SpendScript.Proofs.Script.RoundTrip
import SpendScript.Proofs.Spend.Outcome

/-!
# What matters of a spent script

A spent script has code separators in it, and pushes in one spelling or another. Main statement: all
that a spend can tell of either is the script code, so that scripts with the same other instructions
and the same script code are interchangeable.
-/

namespace SpendScript.Spend

def Interchangeable (spent other : Bytes) : Prop :=
  ∀ raw input bits,
    (Spend.mk spent raw input bits).report.outcome = (Spend.mk other raw input bits).report.outcome

variable {tx : Transaction} {input : Nat} {flags : Flags} {spent other : Bytes}
  {script script' : Script}

theorem evalOutcome_of_same_code (input_lt : input < tx.inputs.length)
    (same : script.withoutSeparators = script'.withoutSeparators)
    (code : script.subscript = script'.subscript) (stack : Stack) :
    evalOutcome (.ofScript tx input input_lt script flags) script stack =
      evalOutcome (.ofScript tx input input_lt script' flags) script' stack := by
  have context : SigningContext.ofScript tx input input_lt script flags =
      .ofScript tx input input_lt script' flags := by
    rw [SigningContext.ofScript, SigningContext.ofScript, code]
  rw [context, evalOutcome, evalOutcome, ← Script.eval_withoutSeparators, same,
    Script.eval_withoutSeparators]

theorem interchangeable_of_same_code (decoded : Script.decode spent = .ok script)
    (decoded' : Script.decode other = .ok script')
    (same : script.withoutSeparators = script'.withoutSeparators)
    (code : script.subscript = script'.subscript) : Interchangeable spent other := by
  refine outcome_congr fun tx input input_lt flags => ?_
  cases found : Script.decode tx.inputs[input].scriptSig with
  | error error => rw [inputOutcome_of_undecodable found, inputOutcome_of_undecodable found]
  | ok scriptSig =>
    by_cases allowed : flags.sigPushOnly → scriptSig.isPushOnly
    · simp only [inputOutcome_of_allowed found allowed, decodeOutcome_of_ok decoded,
        decodeOutcome_of_ok decoded', Except.ok_bind, evalOutcome_of_same_code input_lt same code]
    · obtain ⟨asked, executes⟩ := Classical.not_imp.mp allowed
      rw [inputOutcome_of_not_pushOnly found asked executes,
        inputOutcome_of_not_pushOnly found asked executes]

/-- A spent script may be replaced by one with the same instructions, separators aside, and the same
script code: in particular by its encoding, or without a separator behind its first signature check. -/
theorem interchangeable_of_subscript (decoded : Script.decode spent = .ok script) :
    (∀ other script', Script.decode other = .ok script' →
      script.filter (· ≠ .op .codeSeparator) = script'.filter (· ≠ .op .codeSeparator) →
      script.subscript = script'.subscript → Interchangeable spent other) ∧
    Interchangeable spent script.encode ∧
    ∀ before after, script = before ++ .op .codeSeparator :: after →
      before.any Instruction.isSignatureCheck →
      Interchangeable spent (Script.encode (before ++ after)) := by
  have wellFormed := Script.wellFormed_of_decode decoded
  refine ⟨?_, ?_, ?_⟩
  · intro other script' decoded' same
    simp only [← Script.withoutSeparators_eq_filter] at same
    exact interchangeable_of_same_code decoded decoded' same
  · exact interchangeable_of_same_code decoded (Script.decode_encode wellFormed) rfl rfl
  · rintro before after rfl checks
    have part : (before ++ after).Sublist (before ++ .op .codeSeparator :: after) :=
      (List.sublist_cons_self _ after).append_left before
    refine interchangeable_of_same_code decoded (Script.decode_encode (wellFormed.sublist part)) ?_ ?_
    · rw [Script.withoutSeparators_append, Script.withoutSeparators_append]
      rfl
    · rw [Script.subscript_append_of_check checks, Script.subscript_append_of_check checks]
      rfl

theorem interchangeable_separated_checks :
    Interchangeable [0x4c, 0x01, 0x09, 0xac, 0xab, 0xac] [0x01, 0x09, 0xac, 0xac, 0xab] ∧
      Interchangeable [0x4c, 0x01, 0x09, 0xac, 0xab, 0xac] [0x01, 0x09, 0xac, 0xac] := by
  have decoded : Script.decode [0x4c, 0x01, 0x09, 0xac, 0xab, 0xac] =
      .ok [.push [9], .op .checkSig, .op .codeSeparator, .op .checkSig] := by decide +kernel
  have moved : Script.decode [0x01, 0x09, 0xac, 0xac, 0xab] =
      .ok [.push [9], .op .checkSig, .op .checkSig, .op .codeSeparator] := by decide +kernel
  exact ⟨(interchangeable_of_subscript decoded).1 _ _ moved (by decide) (by decide),
    (interchangeable_of_subscript decoded).2.2 [.push [9], .op .checkSig] [.op .checkSig] rfl rfl⟩

end SpendScript.Spend
