import Mathlib.Control.Monad.Basic
import SpendScript.Proofs.Script.ScriptCode
import SpendScript.Proofs.Script.Shortest
import SpendScript.Proofs.Transaction.Canonical
import SpendScript.Spend.SigningContext

/-!
# What a signature commits to

`Transaction.SignedAlike` relates transactions that differ only in what no signature covers. Main
statement: two signatures sign the same bytes exactly if their transactions are so related, and the
input and the script code are the same.
-/

namespace SpendScript

def TxInput.signedPart (input : TxInput) : OutPoint × UInt32 := (input.spent, input.sequence)

def TxInput.ofSignedPart (index : Nat) (scriptCode : Bytes) (i : Nat) (part : OutPoint × UInt32) :
    TxInput where
  spent := part.1
  scriptSig := if i = index then scriptCode else []
  sequence := part.2

namespace Transaction

/-- The transactions agree on everything that each signature covers. -/
structure SignedAlike (tx other : Transaction) : Prop where
  version : tx.version = other.version
  lockTime : tx.lockTime = other.lockTime
  inputs : tx.inputs.map TxInput.signedPart = other.inputs.map TxInput.signedPart
  outputs : tx.outputs = other.outputs

variable {tx other : Transaction} {index index' : Nat} {scriptCode scriptCode' : Bytes}

theorem withScriptCode_bare (tx : Transaction) (index : Nat) (scriptCode : Bytes) :
    (tx.withScriptCode index scriptCode).bare = { tx with
      inputs := (tx.inputs.map TxInput.signedPart).mapIdx
        (TxInput.ofSignedPart index scriptCode) } := by
  simp only [bare, withScriptCode, mk.injEq, and_true, true_and]
  apply List.ext_getElem?
  intro i
  simp [Function.comp_def, TxInput.bare, TxInput.ofSignedPart, TxInput.signedPart]

theorem map_signedPart_mapIdx (parts : List (OutPoint × UInt32)) (index : Nat)
    (scriptCode : Bytes) :
    (parts.mapIdx (TxInput.ofSignedPart index scriptCode)).map TxInput.signedPart = parts := by
  apply List.ext_getElem?
  intro i
  simp [Function.comp_def, TxInput.ofSignedPart, TxInput.signedPart]

theorem mapIdx_ofSignedPart_inj {parts parts' : List (OutPoint × UInt32)}
    (h : index < parts.length) (nonempty : scriptCode ≠ []) :
    parts.mapIdx (TxInput.ofSignedPart index scriptCode) =
        parts'.mapIdx (TxInput.ofSignedPart index' scriptCode') ↔
      parts = parts' ∧ index = index' ∧ scriptCode = scriptCode' := by
  constructor
  · intro same
    obtain rfl : parts = parts' := by
      rw [← map_signedPart_mapIdx parts index scriptCode, same, map_signedPart_mapIdx]
    -- Only the checked input has a script, so the script tells which one it is.
    have checked := congrArg (·[index]?) same
    simp only [List.getElem?_mapIdx, List.getElem?_eq_getElem h, Option.map_some,
      Option.some.injEq, TxInput.ofSignedPart, TxInput.mk.injEq, if_true, true_and,
      and_true] at checked
    split at checked
    next here => exact ⟨rfl, here, checked⟩
    next => exact (nonempty checked).elim
  · rintro ⟨rfl, rfl, rfl⟩
    rfl

theorem withScriptCode_bare_inj (h : index < tx.inputs.length) (nonempty : scriptCode ≠ []) :
    (tx.withScriptCode index scriptCode).bare = (other.withScriptCode index' scriptCode').bare ↔
      tx.SignedAlike other ∧ index = index' ∧ scriptCode = scriptCode' := by
  rw [withScriptCode_bare, withScriptCode_bare, mk.injEq,
    mapIdx_ofSignedPart_inj (by simpa using h) nonempty]
  constructor
  · rintro ⟨version, ⟨inputs, here, code⟩, outputs, lockTime⟩
    exact ⟨⟨version, lockTime, inputs, outputs⟩, here, code⟩
  · rintro ⟨alike, here, code⟩
    exact ⟨alike.version, ⟨alike.inputs, here, code⟩, alike.outputs, alike.lockTime⟩

theorem Fits.withScriptCode (h : tx.Fits) (small : scriptCode.length < 2 ^ 64) (index : Nat) :
    (tx.withScriptCode index scriptCode).Fits where
  inputs := by simpa [Transaction.withScriptCode] using h.inputs
  outputs := h.outputs
  scriptSigs := by
    intro input hi
    obtain ⟨i, _, rfl⟩ := List.mem_mapIdx.mp hi
    dsimp only
    split
    · exact small
    · decide
  witnesses := by
    intro input hi
    obtain ⟨i, hlt, rfl⟩ := List.mem_mapIdx.mp hi
    exact h.witnesses tx.inputs[i] (List.getElem_mem hlt)
  scripts := h.scripts

/-- The signed bytes determine all that is signed, and nothing else influences them. -/
theorem signedBytes_inj (h : tx.Fits) (ho : other.Fits) (small : scriptCode.length < 2 ^ 64)
    (small' : scriptCode'.length < 2 ^ 64) (hi : index < tx.inputs.length)
    (hi' : index' < other.inputs.length) (nonempty : scriptCode ≠ []) :
    tx.signedBytes index scriptCode = other.signedBytes index' scriptCode' ↔
      tx.SignedAlike other ∧ index = index' ∧ scriptCode = scriptCode' := by
  have inputs : (tx.withScriptCode index scriptCode).inputs ≠ [] := by
    apply List.ne_nil_of_length_pos
    simp only [withScriptCode, List.length_mapIdx]
    omega
  have inputs' : (other.withScriptCode index' scriptCode').inputs ≠ [] := by
    apply List.ne_nil_of_length_pos
    simp only [withScriptCode, List.length_mapIdx]
    omega
  rw [signedBytes, signedBytes, plainBytes_append_inj (h.withScriptCode small index)
    (ho.withScriptCode small' index') inputs inputs', withScriptCode_bare_inj hi nonempty]
  simp only [and_true]

theorem SignedAlike.signedBytes_eq (h : tx.SignedAlike other) (index : Nat) (scriptCode : Bytes) :
    tx.signedBytes index scriptCode = other.signedBytes index scriptCode := by
  have same : (tx.withScriptCode index scriptCode).bare =
      (other.withScriptCode index scriptCode).bare := by
    rw [withScriptCode_bare, withScriptCode_bare, h.version, h.lockTime, h.inputs, h.outputs]
  rw [signedBytes, signedBytes, ← plainBytes_bare, same, plainBytes_bare]

end Transaction

namespace SigningContext

variable {raw raw' bytes bytes' : Bytes} {tx tx' : Transaction} {script script' : Script}
  {input input' : Nat}

theorem signedBytes_ofScript (input_lt : input < tx.inputs.length) (script : Script) (flags : Flags)
    (signature : Bytes) : (ofScript tx input input_lt script flags).signedBytes signature =
      tx.signedBytes input (script.withoutPush (tagged signature)).subscript.encode := by
  rw [Script.subscript_withoutPush]
  rfl

theorem length_scriptCode_lt (decoded : Script.decode bytes = .ok script)
    (addressable : bytes.length < 2 ^ 64) (item : Bytes) :
    (script.subscript.withoutPush item).encode.length < 2 ^ 64 := by
  have part : (script.subscript.withoutPush item).Sublist script :=
    (Script.withoutPush_sublist item _).trans (Script.subscript_sublist script)
  calc (script.subscript.withoutPush item).encode.length
    _ ≤ script.encode.length := Script.length_encode_le_of_sublist part
    _ ≤ bytes.length := Script.length_encode_le_of_decode decoded
    _ < 2 ^ 64 := addressable

theorem scriptCode_wellFormed (decoded : Script.decode bytes = .ok script) (item : Bytes) :
    (script.subscript.withoutPush item).WellFormed :=
  ((Script.wellFormed_of_decode decoded).sublist (Script.subscript_sublist script)).sublist
    (Script.withoutPush_sublist item _)

theorem encode_scriptCode_ne_nil (checks : script.any Instruction.isSignatureCheck)
    (item : Bytes) : (script.subscript.withoutPush item).encode ≠ [] := by
  -- Neither the separators nor the pushes that are left out are signature checks.
  obtain ⟨instruction, mem, check⟩ := List.any_eq_true.mp checks
  have kept := Script.mem_withoutPush check (Script.mem_subscript check mem) item
  intro empty
  rw [Script.encode_eq_nil.mp empty] at kept
  cases kept

/-- What a signature commits to. The scripts are of byte strings that fit in memory: a compact size
cannot write a length of `2 ^ 64` or more. -/
theorem signedBytes_ofScript_eq_iff (parsed : Transaction.parse raw = .ok tx)
    (parsed' : Transaction.parse raw' = .ok tx') (decoded : Script.decode bytes = .ok script)
    (decoded' : Script.decode bytes' = .ok script') (addressable : bytes.length < 2 ^ 64)
    (addressable' : bytes'.length < 2 ^ 64) (checks : script.any Instruction.isSignatureCheck)
    (hi : input < tx.inputs.length) (hi' : input' < tx'.inputs.length) (flags flags' : Flags)
    (signature signature' : Bytes) :
    (ofScript tx input hi script flags).signedBytes signature =
        (ofScript tx' input' hi' script' flags').signedBytes signature' ↔
      tx.SignedAlike tx' ∧ input = input' ∧
        script.subscript.filter (· ≠ .push (signature ++ [0x01])) =
          script'.subscript.filter (· ≠ .push (signature' ++ [0x01])) := by
  have fits := Transaction.fits_of_parse parsed
  have fits' := Transaction.fits_of_parse parsed'
  have small := length_scriptCode_lt decoded addressable (tagged signature)
  have small' := length_scriptCode_lt decoded' addressable' (tagged signature')
  have nonempty := encode_scriptCode_ne_nil checks (tagged signature)
  simp only [signedBytes, ofScript]
  rw [Transaction.signedBytes_inj fits fits' small small' hi hi' nonempty,
    Script.encode_inj (scriptCode_wellFormed decoded _) (scriptCode_wellFormed decoded' _),
    Script.withoutPush_eq_filter, Script.withoutPush_eq_filter]
  rfl

end SigningContext

theorem SigningContext.signedBytes_forms_eq :
    (ofScript (.ofInput [0x51] []) 0 (by decide) [.push (tagged [9]), .op .checkSig]
        {}).signedBytes [9] =
      (ofScript (.ofInput [] [[0xbb]]) 0 (by decide) [.op .checkSig]
        { strictDer := true }).signedBytes [8] := by
  have plain : Transaction.parse (Transaction.ofInput [0x51] []).bytes =
      .ok (.ofInput [0x51] []) := by decide +kernel
  have extended : Transaction.parse (Transaction.ofInput [] [[0xbb]]).bytes =
      .ok (.ofInput [] [[0xbb]]) := by decide +kernel
  have pushing : Script.decode [0x02, 0x09, 0x01, 0xac] =
      .ok [.push (tagged [9]), .op .checkSig] := by decide +kernel
  have checking : Script.decode [0xac] = .ok [.op .checkSig] := by decide +kernel
  exact (signedBytes_ofScript_eq_iff plain extended pushing checking (by decide) (by decide)
    rfl (by decide) (by decide) _ _ [9] [8]).mpr ⟨⟨rfl, rfl, rfl, rfl⟩, rfl, rfl⟩

end SpendScript
