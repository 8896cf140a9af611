import Mathlib.Control.Monad.Basic
import SpendScript.Proofs.Machine.Questions
import SpendScript.Proofs.Script.Separators
import SpendScript.Proofs.Script.Shortest
import SpendScript.Proofs.Spend.Stages
import SpendScript.Proofs.Transaction.Canonical

/-!
# Signing the script code of the consensus rule

Every signature check of a script signs the same script code, whatever separators have been executed
before it. Main statement: a check signs what the consensus rule makes it sign exactly if no separator
stands between the first signature check of its script and itself.
-/

namespace SpendScript

theorem length_compactSize_mono {m n : Nat} (h : m ≤ n) :
    (compactSize m).length ≤ (compactSize n).length := by
  unfold compactSize
  split_ifs <;> simp <;> omega

theorem length_sizedBytes_lt {bytes other : Bytes} (h : bytes.length < other.length) :
    (sizedBytes bytes).length < (sizedBytes other).length := by
  rw [sizedBytes, sizedBytes, List.length_append, List.length_append]
  exact Nat.add_lt_add_of_le_of_lt (length_compactSize_mono (Nat.le_of_lt h)) h

namespace Transaction

variable {tx : Transaction} {index : Nat} {scriptCode other : Bytes}

def clearedInputs (tx : Transaction) : List TxInput :=
  tx.inputs.map fun input => { input with scriptSig := [] }

theorem inputs_withScriptCode (h : index < tx.inputs.length) (scriptCode : Bytes) :
    (tx.withScriptCode index scriptCode).inputs = tx.clearedInputs.take index ++
      { tx.inputs[index] with scriptSig := scriptCode } :: tx.clearedInputs.drop (index + 1) := by
  have cleared : index < tx.clearedInputs.length := by simpa [clearedInputs] using h
  rw [← List.set_eq_take_cons_drop _ cleared]
  apply List.ext_getElem?
  intro i
  rw [withScriptCode, List.getElem?_mapIdx, List.getElem?_set]
  split
  next here =>
    subst here
    rw [List.getElem?_eq_getElem h, Option.map_some, if_pos rfl]
  next elsewhere =>
    rw [clearedInputs, List.getElem?_map]
    simp only [Ne.symm elsewhere, if_false]

theorem signedBytes_eq_append (h : index < tx.inputs.length) :
    ∃ head tail, ∀ scriptCode, tx.signedBytes index scriptCode =
      head ++ sizedBytes scriptCode ++ tail := by
  refine ⟨leBytes 4 tx.version.toUInt32.toNat ++ compactSize tx.inputs.length ++
      (tx.clearedInputs.take index).flatMap TxInput.bytes ++ tx.inputs[index].spent.bytes,
    leBytes 4 tx.inputs[index].sequence.toNat ++
      (tx.clearedInputs.drop (index + 1)).flatMap TxInput.bytes ++
      countedBytes TxOutput.bytes tx.outputs ++ leBytes 4 tx.lockTime.toNat ++
      leBytes 4 sighashAll.toNat, fun scriptCode => ?_⟩
  have count : (tx.withScriptCode index scriptCode).inputs.length = tx.inputs.length :=
    List.length_mapIdx
  rw [signedBytes, plainBytes, countedBytes, count, inputs_withScriptCode h]
  simp only [List.flatMap_append, List.flatMap_cons, TxInput.bytes, List.append_assoc]
  rfl

theorem length_signedBytes_lt (h : index < tx.inputs.length)
    (shorter : scriptCode.length < other.length) :
    (tx.signedBytes index scriptCode).length < (tx.signedBytes index other).length := by
  obtain ⟨head, tail, signed⟩ := signedBytes_eq_append h
  have sized := length_sizedBytes_lt shorter
  simp only [signed, List.length_append]
  omega

end Transaction

theorem Script.length_encode_withoutPush_lt {later part : Script} {first : Instruction}
    (check : first.isSignatureCheck) (h : part.Sublist later) (kept : Script) (item : Bytes) :
    (part.withoutPush item).encode.length <
      (withoutPush item (kept ++ first :: later)).encode.length := by
  have split : withoutPush item (kept ++ first :: later) =
      kept.withoutPush item ++ first :: later.withoutPush item := by
    rw [withoutPush, List.filter_append, List.filter_cons_of_pos]
    · rfl
    · rw [not_pushes_of_isSignatureCheck check]
      rfl
  have size := first.lexeme.size_pos
  calc (part.withoutPush item).encode.length
    _ ≤ (later.withoutPush item).encode.length := length_encode_le_of_sublist (h.filter _)
    _ < (encode (first :: later.withoutPush item)).length := by
      rw [encode_cons, List.length_append, Lexeme.length_bytes]
      omega
    _ ≤ (withoutPush item (kept ++ first :: later)).encode.length := by
      rw [split]
      exact length_encode_le_of_sublist (List.sublist_append_right ..)

namespace SigningContext

variable {tx : Transaction} {input i : Nat} {script : Script} {instruction : Instruction}
  {flags : Flags}

/-- The context that the consensus rule has at position `i` of the script. -/
def atPosition (context : SigningContext) (script : Script) (i : Nat) : SigningContext :=
  { context with scriptCode := script.consensusCode i }

theorem signedBytes_eq_atPosition_iff (hi : input < tx.inputs.length)
    (holds : script[i]? = some instruction) (check : instruction.isSignatureCheck)
    (signature : Bytes) :
    (ofScript tx input hi script flags).signedBytes signature =
        ((ofScript tx input hi script flags).atPosition script i).signedBytes signature ↔
      script.SeparatorFree script.firstCheck i := by
  rcases Script.consensusCode_cases holds check with
    ⟨free, same⟩ | ⟨broken, kept, first, later, firstCheck, split, part⟩
  · refine iff_of_true ?_ free
    simp only [signedBytes, atPosition, ofScript, same]
  · refine iff_of_false (fun same => ?_) broken
    have shorter := Transaction.length_signedBytes_lt hi
      (Script.length_encode_withoutPush_lt firstCheck part kept (tagged signature))
    rw [← split] at shorter
    exact Nat.ne_of_gt shorter (congrArg List.length same)

end SigningContext

namespace Spend

namespace Prepared

variable {spend : Spend}

def AsksAt (prepared : spend.Prepared) (role : Role) (i : Nat) (query : Query) : Prop :=
  (prepared.script role).AsksAt (some (prepared.context role).accepts) (prepared.start role) i
    query

theorem mem_queries_run {prepared : spend.Prepared} {role : Role} {query : Query} :
    query ∈ (prepared.run role).queries ↔ ∃ i, prepared.AsksAt role i query := by
  rw [prepared.run_eq]
  exact Script.mem_queries_run

end Prepared

/-- The script code chosen before execution is that of the consensus rule exactly as long as no
separator follows the first signature check, and what is signed tells them apart. -/
theorem commits_to_consensusCode_iff :
    (∀ (script : Script) (i : Nat) (instruction : Instruction), script[i]? = some instruction →
      instruction.isSignatureCheck →
      (script.subscript = script.consensusCode i ↔
        script.SeparatorFree script.firstCheck i)) ∧
    ∀ (spend : Spend) (prepared : spend.Prepared) (role : Role) (query : Query),
      (query ∈ (prepared.run role).queries ↔ ∃ i, prepared.AsksAt role i query) ∧
      ∀ i, prepared.AsksAt role i query →
        ((prepared.context role).signedBytes query.signature =
            ((prepared.context role).atPosition (prepared.script role) i).signedBytes
              query.signature ↔
          (prepared.script role).SeparatorFree (prepared.script role).firstCheck i) := by
  refine ⟨fun script i instruction => Script.subscript_eq_consensusCode_iff, ?_⟩
  intro spend prepared role query
  refine ⟨Prepared.mem_queries_run, fun i asks => ?_⟩
  obtain ⟨instruction, holds, check⟩ := asks.exists_check
  exact SigningContext.signedBytes_eq_atPosition_iff prepared.input_lt holds check query.signature

def ofSeparatedChecks : Spend where
  spentScript := Script.encode
    [.push [9], .op .checkSig, .op .codeSeparator, .op .checkSig]
  transaction := (Transaction.ofInput (Script.encode [.push (tagged []), .push (tagged [])]) []).bytes
  input := 0
  flags := 0

def preparedSeparatedChecks : ofSeparatedChecks.Prepared where
  flags := {}
  transaction := .ofInput (Script.encode [.push (tagged []), .push (tagged [])]) []
  inputScript := [.push (tagged []), .push (tagged [])]
  spentScript := [.push [9], .op .checkSig, .op .codeSeparator, .op .checkSig]
  flags_eq := rfl
  parsed := by decide +kernel
  input_lt := by decide
  inputDecoded := by decide +kernel
  pushOnly := nofun
  spentDecoded := by decide +kernel

/-- The first check signs what the consensus rule has there, the second one does not. -/
theorem separatedChecks_signedBytes :
    (preparedSeparatedChecks.context .spent).signedBytes [] =
        ((preparedSeparatedChecks.context .spent).atPosition
          (preparedSeparatedChecks.script .spent) 1).signedBytes [] ∧
      (preparedSeparatedChecks.context .spent).signedBytes [] ≠
        ((preparedSeparatedChecks.context .spent).atPosition
          (preparedSeparatedChecks.script .spent) 3).signedBytes [] := by
  have first : preparedSeparatedChecks.AsksAt .spent 1 ⟨[], [9], false⟩ :=
    ⟨.op .checkSig, rfl, by decide +kernel, by decide +kernel⟩
  have second : preparedSeparatedChecks.AsksAt .spent 3 ⟨[], [0], false⟩ :=
    ⟨.op .checkSig, rfl, by decide +kernel, by decide +kernel⟩
  have asked := commits_to_consensusCode_iff.2 ofSeparatedChecks preparedSeparatedChecks .spent
  refine ⟨((asked _).2 1 first).mpr (Script.separatorFree_self _ 1), fun same => ?_⟩
  have free := ((asked _).2 3 second).mp same
  exact free 2 (by decide) (by decide) rfl

end Spend

end SpendScript
