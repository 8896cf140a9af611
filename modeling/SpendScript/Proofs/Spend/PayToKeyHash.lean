import SpendScript.Proofs.Script.RoundTrip
import SpendScript.Proofs.Signature.Narrowing
import SpendScript.Proofs.Spend.Outcome
import SpendScript.Proofs.Transaction.Canonical

/-!
# Paying to the hash of a key

The standard script gives the digest of a public key, and leaves it to the spender to show a key with
that digest and a signature for it. `Spend.keyHashError?` lists what an input's script can do wrong,
in the order in which it is noticed. Main statement: that list decides every spend of such a script.
-/

namespace SpendScript

variable {checker : Checker} {checker? : Option Checker} {script : Script} {hash : Bytes}
  {stack : Stack}

-- ----------------------------------------------------------------------------
-- Scripts that only push
-- ----------------------------------------------------------------------------

def Instruction.data? : Instruction → Option Bytes
  | .push data => some data
  | _ => none

namespace Script

/-- The data that a script pushes, last push first. -/
def pushed (script : Script) : List Bytes := (script.filterMap Instruction.data?).reverse

@[simp] theorem pushed_map_push (items : List Bytes) : pushed (items.map .push) = items.reverse := by
  rw [pushed, List.filterMap_map]
  exact congrArg List.reverse List.filterMap_some

theorem isPushOnly_map_push (items : List Bytes) : isPushOnly (items.map .push) := by
  simp [isPushOnly, Instruction.isPush]

theorem eq_map_push_of_isPushOnly (h : script.isPushOnly) :
    script = script.pushed.reverse.map .push := by
  induction script with
  | nil => rfl
  | cons instruction rest ih =>
    obtain ⟨first, others⟩ := Bool.and_eq_true_iff.mp h
    cases instruction with
    | push data => simpa [pushed, Instruction.data?] using ih others
    | op opcode => cases first
    | unknown byte => cases first

theorem eval_of_isPushOnly (h : script.isPushOnly) :
    script.eval checker? stack = .ok (script.pushed ++ stack) := by
  rw [eq_map_push_of_isPushOnly h, eval_map_push, pushed_map_push]

-- ----------------------------------------------------------------------------
-- The script
-- ----------------------------------------------------------------------------

def payToKeyHash (hash : Bytes) : Script :=
  [.op .dup, .op .hash160, .push hash, .op .equalVerify, .op .checkSig]

theorem decode_payToKeyHash (size : hash.length = 20) :
    decode (payToKeyHash hash).encode = .ok (payToKeyHash hash) := by
  apply decode_encode
  intro instruction mem
  simp only [payToKeyHash, List.mem_cons, List.not_mem_nil, or_false] at mem
  rcases mem with rfl | rfl | rfl | rfl | rfl
  · decide
  · decide
  · simp only [Instruction.WellFormed, size]
    decide
  · decide
  · decide

theorem eval_payToKeyHash_cons (key : Bytes) (below : Stack) :
    (payToKeyHash hash).eval checker? (key :: below) =
      if Hash.hash160 key = hash then eval checker? [.op .checkSig] (key :: below)
      else .error .equalVerify := by
  -- The first three instructions never fail here.
  have compared : (payToKeyHash hash).eval checker? (key :: below) =
      eval checker? [.op .equalVerify, .op .checkSig]
        (hash :: Hash.hash160 key :: key :: below) := rfl
  rw [compared, eval_cons, Instruction.step, Opcode.step]
  by_cases same : Hash.hash160 key = hash
  · rw [if_pos same, if_pos (beq_iff_eq.mpr same.symm)]
    rfl
  · rw [if_neg same, if_neg fun equal => same (beq_iff_eq.mp equal).symm]
    rfl

theorem eval_checkSig (key item : Bytes) (deeper : Stack) :
    eval (some checker) [.op .checkSig] (key :: item :: deeper) =
      match untag? item with
      | none => .error .sigHashType
      | some signature => .ok (boolItem (checker signature key) :: deeper) := by
  rw [eval_cons, Instruction.step, Opcode.step, Step.result_ofSignatureCheck]
  cases untag? item <;> rfl

end Script

namespace Spend

/-- What is wrong with the items below a key, top one first, where they must be a signature for it and
nothing else: the first thing in this order, if any. -/
def signatureFault? (accepts : Checker) (key : Bytes) : Stack → Option ScriptError
  | [] => some .invalidStackOperation
  | item :: deeper =>
    if item.getLast? ≠ some 0x01 then some .sigHashType
    else if !accepts item.dropLast key then some .evalFalse
    else if deeper ≠ [] then some .cleanStack
    else none

def keyHashFault? (hash : Bytes) (accepts : Checker) : Stack → Option ScriptError
  | [] => some .invalidStackOperation
  | key :: below =>
    if Hash.hash160 key ≠ hash then some .equalVerify else signatureFault? accepts key below

def keyHashError? (hash : Bytes) (accepts : Checker) (scriptSig : Bytes) : Option ScriptError :=
  match Script.decode scriptSig with
  | .error _ => some .badOpcode
  | .ok script =>
    if !script.isPushOnly then some .sigPushOnly else keyHashFault? hash accepts script.pushed

variable {tx : Transaction} {input : Nat} {flags : Flags} {accepts : Checker} {scriptSig : Bytes}
  {items : Stack} {key : Bytes} {context : SigningContext}

theorem signatureFault?_eq_none : signatureFault? accepts key items = none ↔
    ∃ signature, items = [tagged signature] ∧ accepts signature key := by
  cases items with
  | nil => simp [signatureFault?]
  | cons item deeper =>
    simp only [signatureFault?]
    constructor
    · intro fine
      split at fine
      next => cases fine
      next last =>
        obtain ⟨signature, rfl⟩ := List.getLast?_eq_some_iff.mp (not_not.mp last)
        cases accepted : accepts signature key with
        | false => simp [accepted] at fine
        | true => simpa [tagged, sighashAll, accepted] using fine
    · rintro ⟨signature, same, accepted⟩
      obtain ⟨rfl, rfl⟩ := List.cons.inj same
      simp [tagged, sighashAll, accepted]

theorem keyHashFault?_eq_none : keyHashFault? hash accepts items = none ↔
    ∃ signature key, items = [key, tagged signature] ∧ Hash.hash160 key = hash ∧
      accepts signature key := by
  cases items with
  | nil => simp [keyHashFault?]
  | cons key below =>
    by_cases same : Hash.hash160 key = hash
    · simp [keyHashFault?, same, signatureFault?_eq_none]
    · simp [keyHashFault?, same]

theorem keyHashError?_eq_none : keyHashError? hash accepts scriptSig = none ↔
    ∃ signature key, Script.decode scriptSig = .ok [.push (tagged signature), .push key] ∧
      Hash.hash160 key = hash ∧ accepts signature key := by
  unfold keyHashError?
  constructor
  · intro fine
    split at fine
    next => cases fine
    next script decoded =>
      split at fine
      next => cases fine
      next only =>
        obtain ⟨signature, key, pushes, same, accepted⟩ := keyHashFault?_eq_none.mp fine
        refine ⟨signature, key, ?_, same, accepted⟩
        have pushing : script.isPushOnly := by simpa using only
        rw [decoded, Script.eq_map_push_of_isPushOnly pushing, pushes]
        rfl
  · rintro ⟨signature, key, decoded, same, accepted⟩
    rw [decoded]
    exact keyHashFault?_eq_none.mpr ⟨signature, key, rfl, same, accepted⟩

def outcomeOf (error? : Option ScriptError) : Except Rejection Unit :=
  error?.elim (.ok ()) fun error => .error (.ofScript error)

theorem outcomeOf_eq_ok {error? : Option ScriptError} :
    outcomeOf error? = .ok () ↔ error? = none := by
  cases error? with
  | none => exact iff_of_true rfl rfl
  | some error => exact iff_of_false nofun nofun

theorem evalOutcome_checkSig (clean : flags.cleanStack) :
    (evalOutcome context [.op .checkSig] (key :: items) >>= judgeOutcome flags) =
      outcomeOf (signatureFault? context.accepts key items) := by
  cases items with
  | nil => rfl
  | cons item deeper =>
    rw [evalOutcome, Script.eval_checkSig, untag?, signatureFault?]
    have tag : sighashAll = 0x01 := rfl
    by_cases last : item.getLast? = some 0x01
    · rw [tag, if_pos last, if_neg (not_not.mpr last)]
      show judgeOutcome flags _ = _
      rw [judgeOutcome, clean]
      cases context.accepts item.dropLast key with
      | false => rfl
      | true => cases deeper <;> rfl
    · rw [tag, if_neg last, if_pos last]
      rfl

theorem evalOutcome_payToKeyHash (clean : flags.cleanStack) :
    (evalOutcome context (Script.payToKeyHash hash) items >>= judgeOutcome flags) =
      outcomeOf (keyHashFault? hash context.accepts items) := by
  cases items with
  | nil => rfl
  | cons key below =>
    rw [evalOutcome, Script.eval_payToKeyHash_cons, keyHashFault?]
    by_cases same : Hash.hash160 key = hash
    · rw [if_pos same, if_neg (not_not.mpr same)]
      exact evalOutcome_checkSig clean
    · rw [if_neg same, if_pos same]
      rfl

theorem inputOutcome_payToKeyHash (size : hash.length = 20) (input_lt : input < tx.inputs.length)
    (pushOnly : flags.sigPushOnly) (clean : flags.cleanStack) :
    inputOutcome (Script.payToKeyHash hash).encode tx input input_lt flags =
      outcomeOf (keyHashError? hash
        (SigningContext.ofScript tx input input_lt (Script.payToKeyHash hash) flags).accepts
        tx.inputs[input].scriptSig) := by
  unfold keyHashError?
  split
  next error undecodable => exact inputOutcome_of_undecodable undecodable
  next script decoded =>
    split
    next executes => exact inputOutcome_of_not_pushOnly decoded pushOnly (by simpa using executes)
    next only =>
      have pushing : script.isPushOnly := by simpa using only
      have pushes (context : SigningContext) :
          evalOutcome context script [] = .ok script.pushed := by
        rw [evalOutcome, Script.eval_of_isPushOnly pushing, List.append_nil]
        rfl
      rw [inputOutcome_of_allowed decoded fun _ => pushing,
        decodeOutcome_of_ok (Script.decode_payToKeyHash size), ← evalOutcome_payToKeyHash clean]
      simp only [pushes]
      rfl

/-- What decides a spend of the script that pays to the hash of a key, under the rules that the
input's script only pushes and that one item is left. -/
theorem outcome_payToKeyHash {raw : Bytes} {bits : UInt32} (size : hash.length = 20)
    (parsed : Transaction.parse raw = .ok tx) (input_lt : input < tx.inputs.length)
    (flags_eq : Flags.ofBits? bits = some flags) (pushOnly : flags.sigPushOnly)
    (clean : flags.cleanStack) :
    (Spend.mk (Script.payToKeyHash hash).encode raw input bits).report.outcome =
        outcomeOf (keyHashError? hash
          (SigningContext.ofScript tx input input_lt (Script.payToKeyHash hash) flags).accepts
          tx.inputs[input].scriptSig) ∧
      ((Spend.mk (Script.payToKeyHash hash).encode raw input bits).report.outcome = .ok () ↔
        ∃ signature key,
          Script.decode tx.inputs[input].scriptSig = .ok [.push (tagged signature), .push key] ∧
            Hash.hash160 key = hash ∧
            (SigningContext.ofScript tx input input_lt (Script.payToKeyHash hash) flags).accepts
              signature key) := by
  rw [outcome_eq_inputOutcome flags_eq parsed input_lt,
    inputOutcome_payToKeyHash size input_lt pushOnly clean, outcomeOf_eq_ok, keyHashError?_eq_none]
  exact ⟨rfl, Iff.rfl⟩

def generatorSignature : Bytes :=
  signatureWith 0x43b7d9e2d8598ba5fae0f34e1315e4591219f3d053beda5ec00f4120898b6b35

theorem outcome_generatorKey :
    (Spend.mk
      (Script.payToKeyHash (beBytes 20 0x751e76e8199196d454941c45d1b3a323f1433bd6)).encode
      (Transaction.ofInput
        (Script.encode [.push (tagged generatorSignature), .push generatorKey]) []).bytes
      0 0x124).report.outcome = .ok () := by
  have parsed : Transaction.parse (Transaction.ofInput
      (Script.encode [.push (tagged generatorSignature), .push generatorKey]) []).bytes =
        .ok (.ofInput
          (Script.encode [.push (tagged generatorSignature), .push generatorKey]) []) := by
    decide +kernel
  have flags_eq : Flags.ofBits? 0x124 =
      some { strictDer := true, sigPushOnly := true, cleanStack := true } := rfl
  exact (outcome_payToKeyHash (by decide) parsed (by decide) flags_eq rfl rfl).2.mpr
    ⟨generatorSignature, generatorKey, by decide +kernel, by decide +kernel, by decide +kernel⟩

end Spend

end SpendScript
