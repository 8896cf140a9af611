import SpendScript.Proofs.Bytes
import SpendScript.Spend.SigningContext

/-!
# Strict and lax signatures

A signature that reads strictly as two scalars other than zero reads the same laxly. The scalars
matter: an integer that is out of range counts as zero for itself alone in one reading, and together
with the other one in the other. Main statement: what a checker accepts in strict DER it accepts in
lax DER.
-/

namespace SpendScript

namespace Signature

open Secp256k1 (groupOrder)

variable {bytes rest content : Bytes} {length n : Nat}

theorem Lax.skipLength?_of_strict (h : Strict.readLength? bytes = some (length, rest)) :
    Lax.skipLength? bytes = some rest := by
  cases bytes with
  | nil => cases h
  | cons head tail =>
    simp only [Strict.readLength?, Lax.skipLength?] at h ⊢
    split at h
    next short =>
      rw [if_pos short]
      simp_all
    next long =>
      rw [if_neg long]
      split at h
      · cases h
      · simp only [Option.bind_eq_bind, Option.bind_eq_some_iff, Prod.exists] at h
        obtain ⟨digits, after, split, h⟩ := h
        rw [split]
        split at h
        · cases h
        · split at h <;> simp_all

theorem Lax.readLength?_of_strict (h : Strict.readLength? bytes = some (length, rest))
    (short : length < 128) : Lax.readLength? bytes = some (length, rest) := by
  cases bytes with
  | nil => cases h
  | cons head tail =>
    simp only [Strict.readLength?, Lax.readLength?] at h ⊢
    split at h
    next one => rwa [if_pos one]
    next =>
      split at h
      · cases h
      · simp only [Option.bind_eq_bind, Option.bind_eq_some_iff, Prod.exists] at h
        obtain ⟨digits, after, -, h⟩ := h
        split at h
        · cases h
        · split at h
          next long =>
            -- The strict reading only takes lengths of 128 and more in this form.
            simp only [Option.some.injEq, Prod.mk.injEq] at h
            omega
          next => cases h

theorem Strict.exists_magnitude_of_scalar_ne_zero (h : Strict.scalar content ≠ 0) :
    ∃ magnitude, (content = magnitude ∨ content = 0 :: magnitude) ∧ magnitude.length ≤ 32 ∧
      ofBeBytes magnitude < groupOrder ∧ Strict.scalar content = ofBeBytes magnitude := by
  cases content with
  | nil => exact (h rfl).elim
  | cons first rest =>
    refine ⟨if first = 0 then rest else first :: rest, ?_, ?_⟩
    · split
      next zero => exact .inr (by rw [zero])
      next => exact .inl rfl
    · simp only [Strict.scalar] at h ⊢
      generalize (if first = 0 then rest else first :: rest) = magnitude at h ⊢
      split at h
      next => exact (h rfl).elim
      next fits =>
        rw [if_neg fits]
        split at h
        next below =>
          rw [if_pos below]
          exact ⟨Nat.le_of_not_lt fun long => fits (.inr long), below, rfl⟩
        next => exact (h rfl).elim

theorem Strict.length_le_of_scalar_ne_zero (h : Strict.scalar content ≠ 0) : content.length ≤ 33 := by
  obtain ⟨magnitude, rfl | rfl, small, -, -⟩ := Strict.exists_magnitude_of_scalar_ne_zero h
  · omega
  · rw [List.length_cons]
    omega

theorem Lax.scalar?_of_strict (h : Strict.scalar content ≠ 0) :
    Lax.scalar? content = some (Strict.scalar content) := by
  obtain ⟨magnitude, shape, small, below, value⟩ := Strict.exists_magnitude_of_scalar_ne_zero h
  have digits : content.dropWhile (· == 0) = magnitude.dropWhile (· == 0) := by
    rcases shape with rfl | rfl
    · rfl
    · rfl
  have short : (magnitude.dropWhile (· == 0)).length ≤ 32 :=
    Nat.le_trans (List.dropWhile_suffix _).length_le small
  simp only [Lax.scalar?]
  rw [digits, if_neg (Nat.not_lt.mpr short), ofBeBytes_dropWhile_zero, if_pos below, value]

theorem Lax.readInteger?_of_strict (h : Strict.readInteger? bytes = some (n, rest))
    (nonzero : n ≠ 0) :
    ∃ content, Lax.readInteger? bytes = some (content, rest) ∧ Lax.scalar? content = some n := by
  simp only [Strict.readInteger?, Lax.readInteger?, Option.bind_eq_bind, Option.bind_eq_some_iff,
    Prod.exists] at h ⊢
  obtain ⟨body, tag, length, after, read, content, _, split, h⟩ := h
  split at h
  · cases h
  · simp only [Option.some.injEq, Prod.mk.injEq] at h
    obtain ⟨rfl, rfl⟩ := h
    have size := Strict.length_le_of_scalar_ne_zero nonzero
    rw [(splitBytes?_eq_some.mp split).2] at size
    exact ⟨content, ⟨body, tag, length, after, Lax.readLength?_of_strict read (by omega), split⟩,
      Lax.scalar?_of_strict nonzero⟩

theorem ofLaxDer?_of_ofStrictDer? {signature : Secp256k1.Signature}
    (h : ofStrictDer? bytes = some signature) (hr : signature.r ≠ 0) (hs : signature.s ≠ 0) :
    ofLaxDer? bytes = some signature := by
  simp only [ofStrictDer?, ofLaxDer?, Option.bind_eq_bind, Option.bind_eq_some_iff,
    Prod.exists] at h ⊢
  obtain ⟨body, tag, length, after, read, h⟩ := h
  split at h
  next =>
    simp only [Option.bind_eq_some_iff, Prod.exists] at h
    obtain ⟨r, afterR, readR, s, afterS, readS, h⟩ := h
    split at h
    · cases h
      obtain ⟨_, laxR, scalarR⟩ := Lax.readInteger?_of_strict readR hr
      obtain ⟨_, laxS, scalarS⟩ := Lax.readInteger?_of_strict readS hs
      refine ⟨body, tag, after, Lax.skipLength?_of_strict read, _, _, laxR, _, _, laxS, ?_⟩
      rw [scalarR, scalarS]
    · cases h
  next => cases h

end Signature

theorem Secp256k1.Signature.ne_zero_of_verifies {signature : Signature} {digest : Nat}
    {key : PublicKey} (h : signature.lowered.verifies digest key) :
    signature.r ≠ 0 ∧ signature.s ≠ 0 := by
  constructor
  · intro zero
    have : signature.lowered.r = 0 := by
      unfold lowered
      split <;> exact zero
    simp [verifies, this] at h
  · intro zero
    have : signature.lowered = signature := if_neg (by omega)
    simp [verifies, this, zero] at h

namespace SigningContext

variable {context : SigningContext} {flags : Flags} {signature publicKey : Bytes}

def withFlags (context : SigningContext) (flags : Flags) : SigningContext :=
  { context with flags }

theorem withFlags_ofScript {tx : Transaction} {input : Nat} (input_lt : input < tx.inputs.length)
    (script : Script) (old new : Flags) :
    (ofScript tx input input_lt script old).withFlags new = ofScript tx input input_lt script new :=
  rfl

theorem accepts_eq_true : context.accepts signature publicKey = true ↔
    ∃ key parsed, Secp256k1.PublicKey.ofBytes? publicKey = some key ∧
      context.parseSignature? signature = some parsed ∧
      parsed.lowered.verifies (ofBeBytes (Hash.hash256 (context.signedBytes signature))) key := by
  unfold accepts
  cases Secp256k1.PublicKey.ofBytes? publicKey <;> cases context.parseSignature? signature <;> simp

theorem accepts_withFlags_eq (same : flags.strictDer = context.flags.strictDer) :
    (context.withFlags flags).accepts = context.accepts := by
  funext signature publicKey
  refine accepts_congr ?_ rfl
  simp only [parseSignature?, withFlags, same]

theorem accepts_withFlags_of_same_reading
    (same : Signature.ofStrictDer? signature = Signature.ofLaxDer? signature) :
    (context.withFlags flags).accepts signature publicKey = context.accepts signature publicKey := by
  refine accepts_congr ?_ rfl
  simp only [parseSignature?, same, ite_self]

theorem same_reading_of_accepts (strict : context.flags.strictDer)
    (h : context.accepts signature publicKey) :
    Signature.ofStrictDer? signature = Signature.ofLaxDer? signature := by
  obtain ⟨key, parsed, -, read, valid⟩ := accepts_eq_true.mp h
  obtain ⟨hr, hs⟩ := Secp256k1.Signature.ne_zero_of_verifies valid
  have strictly : Signature.ofStrictDer? signature = some parsed := by
    simpa only [parseSignature?, strict, if_true] using read
  rw [strictly, Signature.ofLaxDer?_of_ofStrictDer? strictly hr hs]

/-- Strict DER only takes signatures away. -/
theorem accepts_withFlags (h : context.accepts signature publicKey)
    (narrower : flags.strictDer → context.flags.strictDer) :
    (context.withFlags flags).accepts signature publicKey := by
  cases strict : context.flags.strictDer with
  | true => rwa [accepts_withFlags_of_same_reading (same_reading_of_accepts strict h)]
  | false =>
    have lax : flags.strictDer = false := by simpa [strict] using narrower
    rwa [accepts_withFlags_eq (lax.trans strict.symm)]

end SigningContext

namespace Spend

/-- The public key of the secret key 1. -/
def generatorKey : Bytes := 0x02 :: beBytes 32 Secp256k1.Point.generator.x

/-- Two scalars in strict DER: the first coordinate of half the generator, and `s`. -/
def signatureWith (s : Nat) : Bytes :=
  [0x30, 0x39, 0x02, 0x15] ++ beBytes 21 0x3b78ce563f89a0ed9414f5aa28ad0d96d6795f9c63 ++
    [0x02, 0x20] ++ beBytes 32 s

end Spend

end SpendScript
