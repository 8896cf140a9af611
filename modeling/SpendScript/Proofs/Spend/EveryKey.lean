import SpendScript.Proofs.Spend.PayToKeyHash

/-!
# Paying to all of several keys

The script names its keys one after the other, and takes a signature for each from the stack. Every
check but the last stops the run if it is refused; the last leaves its answer behind, for the rules on
the stack to judge. Main statement: what satisfies such a script is a signature for each key, in the
order of the keys, and nothing else.
-/

namespace SpendScript

def Signs (accepts : Checker) (item key : Bytes) : Prop :=
  ∃ signature, item = tagged signature ∧ accepts signature key

variable {checker : Checker} {script : Script} {key next item : Bytes} {keys rest : List Bytes}
  {deeper items : Stack}

namespace Script

/-- The script that asks for a signature for each of the keys, the first one's on top. -/
def allOf : List Bytes → Script
  | [] => []
  | [key] => [.push key, .op .checkSig]
  | key :: next :: rest => .push key :: .op .checkSigVerify :: allOf (next :: rest)

theorem wellFormed_allOf (sizes : ∀ key ∈ keys, key.length < 2 ^ 32) : (allOf keys).WellFormed := by
  induction keys using allOf.induct with
  | case1 => exact nofun
  | case2 key => exact List.forall_mem_cons.mpr ⟨sizes key (.head _), by decide⟩
  | case3 key next rest ih =>
    obtain ⟨size, sizes⟩ := List.forall_mem_cons.mp sizes
    exact List.forall_mem_cons.mpr ⟨size, List.forall_mem_cons.mpr ⟨by decide, ih sizes⟩⟩

theorem eval_checkSigVerify_cons :
    eval (some checker) (.op .checkSigVerify :: script) (key :: item :: deeper) =
      match untag? item with
      | none => .error .sigHashType
      | some signature =>
        if checker signature key then eval (some checker) script deeper
        else .error .checkSigVerify := by
  rw [eval_cons, Instruction.step, Opcode.step, Step.result_ofSignatureCheck]
  cases untag? item with
  | none => rfl
  | some signature =>
    cases accepted : checker signature key <;> simp only [accepted] <;> rfl

end Script

namespace Spend

variable {tx : Transaction} {input : Nat} {input_lt : input < tx.inputs.length} {flags : Flags}
  {context : SigningContext} {spentScript : Bytes}

def Satisfied (context : SigningContext) (flags : Flags) (script : Script) (items : Stack) : Prop :=
  (evalOutcome context script items >>= judgeOutcome flags) = .ok ()

theorem satisfied_checkSig (clean : flags.cleanStack) :
    Satisfied context flags [.op .checkSig] (key :: items) ↔
      ∃ item, items = [item] ∧ Signs context.accepts item key := by
  rw [Satisfied, evalOutcome_checkSig clean, outcomeOf_eq_ok, signatureFault?_eq_none]
  constructor
  · rintro ⟨signature, rfl, accepted⟩
    exact ⟨_, rfl, signature, rfl, accepted⟩
  · rintro ⟨_, rfl, signature, rfl, accepted⟩
    exact ⟨signature, rfl, accepted⟩

theorem satisfied_checkSigVerify :
    Satisfied context flags (.op .checkSigVerify :: script) (key :: items) ↔
      ∃ item deeper, items = item :: deeper ∧ Signs context.accepts item key ∧
        Satisfied context flags script deeper := by
  cases items with
  | nil => exact iff_of_false nofun nofun
  | cons item deeper =>
    rw [Satisfied, evalOutcome, Script.eval_checkSigVerify_cons]
    constructor
    · intro satisfied
      cases untagged : untag? item with
      | none =>
        rw [untagged] at satisfied
        cases satisfied
      | some signature =>
        cases accepted : context.accepts signature key with
        | false =>
          simp only [untagged, accepted] at satisfied
          cases satisfied
        | true =>
          simp only [untagged, accepted] at satisfied
          exact ⟨item, deeper, rfl, ⟨signature, untag?_eq_some.mp untagged, accepted⟩, satisfied⟩
    · rintro ⟨_, _, ⟨⟩, ⟨signature, rfl, accepted⟩, satisfied⟩
      simp only [untag?_eq_some.mpr rfl, accepted]
      exact satisfied

theorem satisfied_allOf (clean : flags.cleanStack) (some_key : keys ≠ []) :
    Satisfied context flags (Script.allOf keys) items ↔
      List.Forall₂ (Signs context.accepts) items keys := by
  induction keys using Script.allOf.induct generalizing items with
  | case1 => exact absurd rfl some_key
  | case2 key =>
    refine (satisfied_checkSig clean).trans ⟨?_, ?_⟩
    · rintro ⟨item, rfl, signs⟩
      exact .cons signs .nil
    · rintro (_ | ⟨signs, ⟨⟩⟩)
      exact ⟨_, rfl, signs⟩
  | case3 key next rest ih =>
    refine satisfied_checkSigVerify.trans ⟨?_, ?_⟩
    · rintro ⟨item, deeper, rfl, signs, satisfied⟩
      exact .cons signs ((ih (List.cons_ne_nil _ _)).mp satisfied)
    · rintro (_ | ⟨signs, others⟩)
      exact ⟨_, _, rfl, signs, (ih (List.cons_ne_nil _ _)).mpr others⟩

/-- Where an input's script may only push, it must push items that satisfy the spent script. -/
theorem inputOutcome_eq_ok_of_sigPushOnly (decoded : Script.decode spentScript = .ok script)
    (pushOnly : flags.sigPushOnly) :
    inputOutcome spentScript tx input input_lt flags = .ok () ↔
      ∃ items : Stack, Script.decode tx.inputs[input].scriptSig = .ok (items.reverse.map .push) ∧
        Satisfied (.ofScript tx input input_lt script flags) flags script items := by
  have judged {scriptSig : Script} (pushing : scriptSig.isPushOnly)
      (found : Script.decode tx.inputs[input].scriptSig = .ok scriptSig) :
      inputOutcome spentScript tx input input_lt flags = .ok () ↔
        Satisfied (.ofScript tx input input_lt script flags) flags script scriptSig.pushed := by
    rw [inputOutcome_of_allowed found fun _ => pushing, decodeOutcome_of_ok decoded, Except.ok_bind,
      evalOutcome, Script.eval_of_isPushOnly pushing, List.append_nil]
    exact Iff.rfl
  constructor
  · intro valid
    cases found : Script.decode tx.inputs[input].scriptSig with
    | error error =>
      rw [inputOutcome_of_undecodable found] at valid
      cases valid
    | ok scriptSig =>
      by_cases pushing : scriptSig.isPushOnly
      · refine ⟨scriptSig.pushed, ?_, (judged pushing found).mp valid⟩
        rw [← Script.eq_map_push_of_isPushOnly pushing]
      · rw [inputOutcome_of_not_pushOnly found pushOnly pushing] at valid
        cases valid
  · rintro ⟨items, found, satisfied⟩
    have pushing : Script.isPushOnly (items.reverse.map .push) :=
      Script.isPushOnly_map_push items.reverse
    rw [judged pushing found, Script.pushed_map_push, List.reverse_reverse]
    exact satisfied

/-- Under the rules that the input's script only pushes and that one item is left, a spend from all
of the keys is valid exactly if that script pushes a signature for each key, and nothing else. -/
theorem outcome_allOf {raw : Bytes} {bits : UInt32} (some_key : keys ≠ [])
    (sizes : ∀ key ∈ keys, key.length < 2 ^ 32) (parsed : Transaction.parse raw = .ok tx)
    (input_lt : input < tx.inputs.length) (flags_eq : Flags.ofBits? bits = some flags)
    (pushOnly : flags.sigPushOnly) (clean : flags.cleanStack) :
    (Spend.mk (Script.allOf keys).encode raw input bits).report.outcome = .ok () ↔
      ∃ items : Stack, Script.decode tx.inputs[input].scriptSig = .ok (items.reverse.map .push) ∧
        List.Forall₂
          (Signs (SigningContext.ofScript tx input input_lt (Script.allOf keys) flags).accepts)
          items keys := by
  have decoded := Script.decode_encode (Script.wellFormed_allOf sizes)
  rw [outcome_eq_inputOutcome flags_eq parsed input_lt,
    inputOutcome_eq_ok_of_sigPushOnly decoded pushOnly]
  simp only [satisfied_allOf clean some_key]

def twoKeys : List Bytes :=
  [generatorKey,
    0x02 :: beBytes 32 0xc6047f9441ed7d6d3045406e95c07cd85c778e4b8cef3ca7abac09b95c709ee5]

def twoSignatures : List Bytes :=
  [signatureWith 0x45405fac2f5c22b0ce44c8b27ef6fbefe3e7fba3de0b23b313f3a1c23cd49923,
    signatureWith 0x45405fac2f5c22b0ce44c83b8d5a4f70d0a6207bb41fcf61b9d874154a15605d]

theorem outcome_twoKeys :
    (Spend.mk (Script.allOf twoKeys).encode
      (Transaction.ofInput
        (Script.encode ((twoSignatures.map tagged).reverse.map .push)) []).bytes
      0 0x124).report.outcome = .ok () := by
  have small : (Script.encode ((twoSignatures.map tagged).reverse.map .push)).length < 2 ^ 64 := by
    decide +kernel
  have flags_eq : Flags.ofBits? 0x124 =
      some { strictDer := true, sigPushOnly := true, cleanStack := true } := rfl
  refine (outcome_allOf (by decide) (by decide) (Transaction.parse_ofInput small) (by decide)
    flags_eq rfl rfl).mpr ⟨twoSignatures.map tagged, by decide +kernel, ?_⟩
  exact .cons ⟨_, rfl, by decide +kernel⟩ (.cons ⟨_, rfl, by decide +kernel⟩ .nil)

end Spend

end SpendScript
