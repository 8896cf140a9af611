import SpendScript.Proofs.Script.RawCode
import SpendScript.Proofs.Spend.Commitment
import SpendScript.Proofs.Spend.ConsensusCode

/-!
# Signing the text of a script

The consensus rule has signatures commit to the script code as it stands in the script, and here they
commit to what is written anew. Main statement: it is the same exactly for the scripts that spell every
push of the script code in its shortest form.
-/

namespace SpendScript

variable {tx : Transaction} {input : Nat} {script : Script} {bytes signature : Bytes}

namespace SigningContext

theorem signedBytes_of_not_pushed (input_lt : input < tx.inputs.length) (flags : Flags)
    (absent : .push (tagged signature) ∉ script) :
    (ofScript tx input input_lt script flags).signedBytes signature =
      tx.signedBytes input script.subscript.encode := by
  rw [signedBytes_ofScript, Script.withoutPush_eq_self absent]

/-- The pieces that decoding takes a script apart into have the script code among them, and it is
written and signed as it stands there exactly if its pushes are all in their shortest form. -/
theorem signedBytes_rawCode_iff (decoded : Script.decode bytes = .ok script) :
    ∃ split : Script.Split bytes,
      (lex bytes).map (List.map Lexeme.part) = .ok split.parts ∧
      split.codeParts.map Prod.fst = script.subscript ∧
      (script.subscript.encode = split.rawCode ↔ split.WritesShortest) ∧
      (¬ split.WritesShortest → script.subscript.encode.length < split.rawCode.length) ∧
      ∀ (tx : Transaction) (input : Nat) (input_lt : input < tx.inputs.length) (flags : Flags)
        (signature : Bytes), .push (signature ++ [0x01]) ∉ script →
        (ofScript tx input input_lt script flags).signedBytes signature =
            tx.signedBytes input script.subscript.encode ∧
          ((ofScript tx input input_lt script flags).signedBytes signature =
              tx.signedBytes input split.rawCode ↔ split.WritesShortest) := by
  obtain ⟨split, lexed, rfl⟩ := Script.exists_split_of_decode decoded
  have shorter := split.length_encode_subscript_lt
  refine ⟨split, lexed, split.map_fst_codeParts, split.encode_subscript_eq_rawCode_iff, shorter, ?_⟩
  intro tx input input_lt flags signature absent
  have signed := signedBytes_of_not_pushed input_lt flags absent
  refine ⟨signed, ?_⟩
  rw [signed]
  constructor
  · intro same
    -- A shorter script code makes all that is signed shorter.
    by_contra wide
    have lt := Transaction.length_signedBytes_lt input_lt (shorter wide)
    exact Nat.ne_of_lt lt (congrArg List.length same)
  · intro shortest
    rw [split.encode_subscript_eq_rawCode_iff.mpr shortest]

theorem signedBytes_wide_push :
    (ofScript (.ofInput [] []) 0 (by decide) [.push [9], .op .checkSig] {}).signedBytes [8] ≠
        (Transaction.ofInput [] []).signedBytes 0 [0x4c, 0x01, 0x09, 0xac] ∧
      (ofScript (.ofInput [] []) 0 (by decide)
          [.push [9], .op .codeSeparator, .op .checkSig] {}).signedBytes [8] =
        (Transaction.ofInput [] []).signedBytes 0 [0xac] := by
  have signed : Script.decode [0x4c, 0x01, 0x09, 0xac] = .ok [.push [9], .op .checkSig] := by
    decide +kernel
  have separated : Script.decode [0x4c, 0x01, 0x09, 0xab, 0xac] =
      .ok [.push [9], .op .codeSeparator, .op .checkSig] := by decide +kernel
  constructor
  · obtain ⟨split, lexed, -, shortest, -, commits⟩ := signedBytes_rawCode_iff signed
    have parts : split.parts = [(.push [9], [0x4c, 0x01, 0x09]), (.op .checkSig, [0xac])] :=
      Except.ok.inj (lexed.symm.trans (by decide +kernel))
    have raw : split.rawCode = [0x4c, 0x01, 0x09, 0xac] := by
      simp only [Script.Split.rawCode, Script.Split.codeParts, Script.Split.script, parts]
      decide
    rw [← raw]
    intro same
    have written := shortest.mpr ((commits _ 0 (by decide) {} [8] (by decide)).2.mp same)
    rw [raw] at written
    exact absurd written (by decide)
  · obtain ⟨split, lexed, -, shortest, -, commits⟩ := signedBytes_rawCode_iff separated
    have parts : split.parts = [(.push [9], [0x4c, 0x01, 0x09]), (.op .codeSeparator, [0xab]),
        (.op .checkSig, [0xac])] := Except.ok.inj (lexed.symm.trans (by decide +kernel))
    have raw : split.rawCode = [0xac] := by
      simp only [Script.Split.rawCode, Script.Split.codeParts, Script.Split.script, parts]
      decide
    rw [← raw]
    refine (commits _ 0 (by decide) {} [8] (by decide)).2.mpr (shortest.mp ?_)
    rw [raw]
    decide

end SigningContext

end SpendScript
