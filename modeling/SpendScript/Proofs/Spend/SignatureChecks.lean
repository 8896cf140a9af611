import SpendScript.Proofs.Signature.Narrowing
import SpendScript.Proofs.Spend.Commitment

/-!
# What decides a signature check

A signature check answers by how the signature reads and by what it signs. Main statements: pushes
of the signature itself do not count, wherever they stand in the script; strict DER accepts nothing
that lax DER refuses; and two spellings of the same scalars are told apart only by their pushes.
-/

namespace SpendScript.SigningContext

variable {tx : Transaction} {input : Nat} {flags : Flags} {script other : Script}
  {signature publicKey : Bytes}

theorem accepts_ofScript_congr (input_lt : input < tx.inputs.length)
    (same : script.filter (· ≠ .push (tagged signature)) =
      other.filter (· ≠ .push (tagged signature))) :
    (ofScript tx input input_lt script flags).accepts signature publicKey =
      (ofScript tx input input_lt other flags).accepts signature publicKey := by
  refine accepts_congr rfl ?_
  rw [signedBytes_ofScript, signedBytes_ofScript, Script.withoutPush_eq_filter,
    Script.withoutPush_eq_filter, same]

/-- No signature signs itself: two scripts that differ in pushes of a signature alone give the same
answer about it, and so it can be pushed or not at any place of a script. -/
theorem accepts_eq_of_own_pushes (input_lt : input < tx.inputs.length) (flags : Flags)
    (signature publicKey : Bytes) :
    (∀ script other : Script,
      script.filter (· ≠ .push (signature ++ [0x01])) =
          other.filter (· ≠ .push (signature ++ [0x01])) →
        (ofScript tx input input_lt script flags).accepts signature publicKey =
          (ofScript tx input input_lt other flags).accepts signature publicKey) ∧
      ∀ before after : Script,
        (ofScript tx input input_lt (before ++ .push (signature ++ [0x01]) :: after) flags).accepts
            signature publicKey =
          (ofScript tx input input_lt (before ++ after) flags).accepts signature publicKey := by
  refine ⟨fun script other same => accepts_ofScript_congr input_lt same, fun before after => ?_⟩
  apply accepts_ofScript_congr
  rw [List.filter_append, List.filter_cons_of_neg (by simp [tagged, sighashAll]),
    List.filter_append]

def separatedCheck : Script :=
  [.op .codeSeparator, .push Spend.generatorKey, .op .checkSig, .op .codeSeparator]

/-- A signature that `separatedCheck` accepts. -/
def checkedSignature : Bytes :=
  Spend.signatureWith 0x0f3a0bcb5e377dccc247e6b8d5856234663337bea6764f85bdfefe8c01ce0139

theorem accepts_checkedSignature_pushed :
    (ofScript (.ofInput [] []) 0 (by decide)
      [.push (tagged checkedSignature), .op .codeSeparator, .push Spend.generatorKey,
        .push (tagged checkedSignature), .op .checkSig, .op .codeSeparator,
        .push (tagged checkedSignature)] {}).accepts checkedSignature Spend.generatorKey := by
  have valid : (ofScript (.ofInput [] []) 0 (by decide) separatedCheck {}).accepts
      checkedSignature Spend.generatorKey := by decide +kernel
  refine Eq.trans ((accepts_eq_of_own_pushes _ {} _ _).1 _ separatedCheck ?_) valid
  decide +kernel

/-- Where strict DER is asked for, a signature is accepted exactly if it is without that rule and
reads the same in both ways. -/
theorem accepts_strictDer_iff (input_lt : input < tx.inputs.length) (strict : flags.strictDer)
    (script : Script) (signature publicKey : Bytes) :
    (ofScript tx input input_lt script flags).accepts signature publicKey ↔
      (ofScript tx input input_lt script { flags with strictDer := false }).accepts
          signature publicKey ∧
        Signature.ofStrictDer? signature = Signature.ofLaxDer? signature := by
  rw [← withFlags_ofScript input_lt script flags { flags with strictDer := false }]
  constructor
  · intro accepted
    exact ⟨accepts_withFlags accepted nofun, same_reading_of_accepts strict accepted⟩
  · rintro ⟨accepted, same⟩
    rwa [accepts_withFlags_of_same_reading same] at accepted

theorem accepts_checkedSignature_laxly :
    (ofScript (.ofInput [] []) 0 (by decide) separatedCheck
      { sigPushOnly := true, cleanStack := true }).accepts
        checkedSignature Spend.generatorKey := by
  have valid : (ofScript (.ofInput [] []) 0 (by decide) separatedCheck
      { strictDer := true, sigPushOnly := true, cleanStack := true }).accepts
        checkedSignature Spend.generatorKey := by decide +kernel
  exact ((accepts_strictDer_iff _ rfl _ _ _).mp valid).1

theorem signedBytes_of_unpushed {context : SigningContext}
    (absent : .push (tagged signature) ∉ context.scriptCode) :
    context.signedBytes signature =
      context.transaction.signedBytes context.input context.scriptCode.encode := by
  rw [signedBytes, Script.withoutPush_eq_self absent]

/-- Signatures that read as the same scalars, the second one perhaps negated, are answered alike
however they are spelled. The spelling only shows where the script code pushes one of them. -/
theorem accepts_eq_of_respelled (input_lt : input < tx.inputs.length) (flags : Flags)
    (script : Script) {first second : Bytes} {r s s' : Nat}
    (reads : (ofScript tx input input_lt script flags).parseSignature? first = some { r, s })
    (reads' : (ofScript tx input input_lt script flags).parseSignature? second =
      some { r, s := s' })
    (positive : 0 < s) (below : s < Secp256k1.groupOrder)
    (same : s' = s ∨ s' = Secp256k1.groupOrder - s)
    (absent : .push (first ++ [0x01]) ∉ script.subscript)
    (absent' : .push (second ++ [0x01]) ∉ script.subscript) (publicKey : Bytes) :
    (ofScript tx input input_lt script flags).accepts first publicKey =
      (ofScript tx input input_lt script flags).accepts second publicKey := by
  have lowered : Secp256k1.Signature.lowered { r, s := s' } =
      Secp256k1.Signature.lowered { r, s } := by
    rcases same with rfl | rfl
    · rfl
    · exact Secp256k1.Signature.lowered_negated positive below
  have signed : (ofScript tx input input_lt script flags).signedBytes second =
      (ofScript tx input input_lt script flags).signedBytes first :=
    (signedBytes_of_unpushed absent').trans (signedBytes_of_unpushed absent).symm
  simp only [accepts, reads, reads', signed]
  cases Secp256k1.PublicKey.ofBytes? publicKey with
  | none => rfl
  | some key => simp only [lowered]

/-- `checkedSignature` with its second scalar negated, in lax DER: the length of the sequence is
wrong, the first integer starts with zeros and tells its length in three bytes, and a byte follows. -/
def respelledSignature : Bytes :=
  [0x30, 0x00, 0x02, 0x82, 0x00, 0x17] ++
    beBytes 23 0x3b78ce563f89a0ed9414f5aa28ad0d96d6795f9c63 ++ [0x02, 0x20] ++
    beBytes 32 0xf0c5f434a1c882333db819472a7a9dca547ba52808d250b601d36000ce684008 ++ [0xff]

theorem accepts_respelledSignature :
    (ofScript (.ofInput [] []) 0 (by decide) (.push (tagged checkedSignature) :: separatedCheck)
      {}).accepts respelledSignature Spend.generatorKey := by
  have valid : (ofScript (.ofInput [] []) 0 (by decide)
      (.push (tagged checkedSignature) :: separatedCheck) {}).accepts
        checkedSignature Spend.generatorKey := by decide +kernel
  have reads : (ofScript (.ofInput [] []) 0 (by decide)
      (.push (tagged checkedSignature) :: separatedCheck) {}).parseSignature? checkedSignature =
        some { r := 0x3b78ce563f89a0ed9414f5aa28ad0d96d6795f9c63,
               s := 0x0f3a0bcb5e377dccc247e6b8d5856234663337bea6764f85bdfefe8c01ce0139 } := by
    decide +kernel
  have reads' : (ofScript (.ofInput [] []) 0 (by decide)
      (.push (tagged checkedSignature) :: separatedCheck) {}).parseSignature? respelledSignature =
        some { r := 0x3b78ce563f89a0ed9414f5aa28ad0d96d6795f9c63,
               s := 0xf0c5f434a1c882333db819472a7a9dca547ba52808d250b601d36000ce684008 } := by
    decide +kernel
  exact (accepts_eq_of_respelled _ _ _ reads reads' (by decide) (by decide) (.inr (by decide))
    (by decide +kernel) (by decide +kernel) _).symm.trans valid

end SpendScript.SigningContext
