import SpendScript.Secp256k1.PublicKey

/-!
# ECDSA

Verification of a pair of scalars against a message digest and a public key. A pair with a zero is
never valid. `Signature.lowered` replaces the second scalar by its negative if that is smaller; a
pair and the one so replaced are valid for the same messages, and only the smaller one is checked.
-/

namespace SpendScript.Secp256k1

structure Signature where
  r : Nat
  s : Nat
  deriving DecidableEq, Repr

namespace Signature

def lowered (signature : Signature) : Signature :=
  if groupOrder / 2 < signature.s then { signature with s := groupOrder - signature.s }
  else signature

/-- A scalar and its negative are lowered to the same one. The order is odd, so exactly one of them
is in the upper half. -/
theorem lowered_negated {r s : Nat} (positive : 0 < s) (below : s < groupOrder) :
    lowered { r, s := groupOrder - s } = lowered { r, s } := by
  have odd : groupOrder % 2 = 1 := by decide
  simp only [lowered]
  generalize groupOrder = n at *
  split
  next upper =>
    rw [if_neg (by omega)]
    exact congrArg (mk r) (by omega)
  next lower => rw [if_pos (by omega)]

def verifies (signature : Signature) (digest : Nat) (key : PublicKey) : Bool :=
  if signature.r = 0 ∨ signature.s = 0 then false
  else
    let inverse := inverseMod groupOrder signature.s
    let point := Point.linearCombination (digest % groupOrder * inverse % groupOrder) .generator
      (signature.r * inverse % groupOrder) key.point
    !point.isInfinity && point.affineX % groupOrder == signature.r

end Signature

end SpendScript.Secp256k1
