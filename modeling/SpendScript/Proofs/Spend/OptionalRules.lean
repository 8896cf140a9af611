import Mathlib.Control.Monad.Basic
import SpendScript.Proofs.Machine.Agreement
import SpendScript.Proofs.Signature.Narrowing
import SpendScript.Proofs.Spend.Stages
import SpendScript.Proofs.Transaction.Canonical

/-!
# Verifying with fewer flags

A flag adds a rule, yet clearing one can make a valid spend invalid: a signature that strict DER
refuses leaves a false item on the stack, and a script may ask for just that. Main statement: this is
the only way. A spend stays valid under fewer flags as long as the signatures that were refused are
refused still.
-/

namespace SpendScript

namespace Flags

variable {bits stricterBits : UInt32} {flags stricter : Flags}

structure Within (flags stricter : Flags) : Prop where
  strictDer : flags.strictDer → stricter.strictDer
  sigPushOnly : flags.sigPushOnly → stricter.sigPushOnly
  cleanStack : flags.cleanStack → stricter.cleanStack

theorem and_eq_zero_of_fewer {mask : UInt32} (fewer : bits &&& stricterBits = bits)
    (h : stricterBits &&& mask = 0) : bits &&& mask = 0 := by
  rw [← fewer, UInt32.and_assoc, h, UInt32.and_zero]

theorem ofBits?_of_fewer (fewer : bits &&& stricterBits = bits)
    (h : ofBits? stricterBits = some stricter) :
    ∃ flags, ofBits? bits = some flags ∧ flags.Within stricter := by
  obtain ⟨known, rfl⟩ := ofBits?_eq_some.mp h
  have keeps (mask : UInt32) (set : bits &&& mask != 0) : stricterBits &&& mask != 0 := by
    simp only [bne_iff_ne] at set ⊢
    exact fun cleared => set (and_eq_zero_of_fewer fewer cleared)
  exact ⟨_, ofBits?_eq_some.mpr ⟨and_eq_zero_of_fewer fewer known, rfl⟩, keeps _, keeps _, keeps _⟩

end Flags

namespace Spend

variable {spend : Spend} {bits : UInt32} {flags : Flags}

theorem judge_of_within {stricter : Flags} {stack : Stack} (within : flags.Within stricter)
    (h : judge stricter stack = .ok ()) : judge flags stack = .ok () := by
  obtain ⟨top, rest, same, truthy, clean⟩ := judge_eq_ok.mp h
  exact judge_eq_ok.mpr ⟨top, rest, same, truthy, fun asked => clean (within.cleanStack asked)⟩

namespace Prepared

variable {prepared : spend.Prepared} {flags_eq : Flags.ofBits? bits = some flags}
  {within : flags.Within prepared.flags}

def withFlags (prepared : spend.Prepared) (flags_eq : Flags.ofBits? bits = some flags)
    (within : flags.Within prepared.flags) : Prepared { spend with flags := bits } :=
  { prepared with
    flags, flags_eq, pushOnly := fun asked => prepared.pushOnly (within.sigPushOnly asked) }

@[simp] theorem context_withFlags (role : Role) :
    (prepared.withFlags flags_eq within).context role = (prepared.context role).withFlags flags := by
  cases role <;> rfl

theorem answeredBy_of_mem_run (role : Role) :
    ∀ query ∈ (prepared.run role).queries, query.AnsweredBy (prepared.context role).accepts := by
  rw [prepared.run_eq]
  exact Script.answeredBy_of_mem_run

theorem run_withFlags (answered : ∀ role, ∀ query ∈ (prepared.run role).queries,
      query.AnsweredBy ((prepared.context role).withFlags flags).accepts) (role : Role) :
    (prepared.withFlags flags_eq within).run role = prepared.run role := by
  have input : (prepared.withFlags flags_eq within).inputRun = prepared.inputRun := by
    rw [inputRun, context_withFlags]
    exact Script.run_eq_of_answeredBy (answered .input)
  cases role with
  | input => exact input
  | spent =>
    -- The second run starts on what the first one left.
    show spentRun _ = prepared.spentRun
    rw [spentRun, input, context_withFlags]
    exact Script.run_eq_of_answeredBy (answered .spent)

/-- The signatures that were refused are refused in lax DER too. -/
def RefusalsStand (prepared : spend.Prepared) : Prop :=
  ∀ role, ∀ query ∈ (prepared.run role).queries, query.answer = false →
    ((prepared.context role).withFlags {}).accepts query.signature query.publicKey = false

theorem RefusalsStand.answeredBy (h : prepared.RefusalsStand) (within : flags.Within prepared.flags)
    (role : Role) : ∀ query ∈ (prepared.run role).queries,
      query.AnsweredBy ((prepared.context role).withFlags flags).accepts := by
  intro query mem
  have recorded := answeredBy_of_mem_run role query mem
  unfold Query.AnsweredBy at recorded ⊢
  cases answer : query.answer with
  | true =>
    rw [answer] at recorded
    exact SigningContext.accepts_withFlags recorded within.strictDer
  | false =>
    -- Were it accepted under these flags, it would be in lax DER.
    have refused := h role query mem answer
    cases accepted : ((prepared.context role).withFlags flags).accepts query.signature
      query.publicKey with
    | false => rfl
    | true =>
      have lax : ((prepared.context role).withFlags {}).accepts query.signature query.publicKey :=
        @SigningContext.accepts_withFlags ((prepared.context role).withFlags flags) {} _ _ accepted
          nofun
      rw [refused] at lax
      cases lax

end Prepared

/-- Fewer flags keep a spend valid if they read signatures alike, or if no refused signature is
accepted in lax DER. -/
theorem verify_of_fewer_flags (fewer : bits &&& spend.flags = bits) (valid : spend.verify = .ok ())
    (stand : bits &&& Flags.strictDerBit = spend.flags &&& Flags.strictDerBit ∨
      ∀ prepared : spend.Prepared, prepared.RefusalsStand) :
    Spend.verify { spend with flags := bits } = .ok () := by
  obtain ⟨prepared, settled⟩ := verify_eq_ok.mp valid
  obtain ⟨ends, judged⟩ := Prepared.settle_eq_ok.mp settled
  obtain ⟨flags, flags_eq, within⟩ := Flags.ofBits?_of_fewer fewer prepared.flags_eq
  have answered (role : Role) : ∀ query ∈ (prepared.run role).queries,
      query.AnsweredBy ((prepared.context role).withFlags flags).accepts := by
    rcases stand with alike | stand
    · have same : flags.strictDer = (prepared.context role).flags.strictDer := by
        rw [← (Flags.ofBits?_eq_some.mp flags_eq).2]
        show _ = prepared.flags.strictDer
        rw [← (Flags.ofBits?_eq_some.mp prepared.flags_eq).2, alike]
      rw [SigningContext.accepts_withFlags_eq same]
      exact Prepared.answeredBy_of_mem_run role
    · exact (stand prepared).answeredBy within role
  have same := @Prepared.run_withFlags _ _ _ prepared flags_eq within answered
  refine verify_eq_ok.mpr ⟨prepared.withFlags flags_eq within, Prepared.settle_eq_ok.mpr ⟨?_, ?_⟩⟩
  · intro role
    rw [same]
    exact ends role
  · show judge flags (Prepared.run _ .spent).stack = _
    rw [same]
    exact judge_of_within within judged

def wantsRefusal : Script :=
  [.push generatorKey, .op .checkSig, .push (boolItem false), .op .equal]

def ofRefused (signature : Bytes) (flags : UInt32) : Spend where
  spentScript := wantsRefusal.encode
  transaction := (Transaction.ofInput (Script.encode [.push (tagged signature)]) []).bytes
  input := 0
  flags

theorem verify_empty_signature : (ofRefused [] 0).verify = .ok () := by
  have valid : (ofRefused [] Flags.strictDerBit).verify = .ok () := by decide +kernel
  refine verify_of_fewer_flags (by decide) valid (.inr fun prepared => ?_)
  obtain rfl : prepared = {
    flags := { strictDer := true }
    transaction := .ofInput (Script.encode [.push (tagged [])]) []
    inputScript := [.push (tagged [])]
    spentScript := wantsRefusal
    flags_eq := rfl
    parsed := by decide +kernel
    input_lt := by decide
    inputDecoded := by decide +kernel
    pushOnly := nofun
    spentDecoded := by decide +kernel } := Subsingleton.elim _ _
  intro role
  cases role <;> decide +kernel

/-- A signature for that spend with a byte after it, which only lax DER reads. -/
def overlongSignature : Bytes :=
  signatureWith 0x5b71a014098058297b5c4354782f85563b34f76d7ff1efcbf64e9a85ae91814e ++ [0x00]

/-- Strict DER makes the spend valid: with no flags the script gets the answer it does not want. -/
theorem verify_strictDer_not_monotone :
    (0 : UInt32) &&& Flags.strictDerBit = 0 ∧
      (ofRefused overlongSignature Flags.strictDerBit).verify = .ok () ∧
      (ofRefused overlongSignature 0).verify = .error .falseResult := by
  decide +kernel

end Spend

end SpendScript
