import SpendScript.Bytes
import SpendScript.Secp256k1.Point

/-!
# Public keys

A public key is a point of the curve other than infinity. It is written as its first coordinate with
a first byte that tells the parity of the second, or with both coordinates; then the first byte may
repeat the parity, and must not contradict it.
-/

namespace SpendScript.Secp256k1

def OnCurve (x y : Nat) : Prop :=
  x < fieldPrime ∧ y < fieldPrime ∧ Fp.mul y y = Fp.add (Fp.mul x (Fp.mul x x)) 7

instance (x y : Nat) : Decidable (OnCurve x y) :=
  inferInstanceAs (Decidable (_ ∧ _ ∧ _))

structure PublicKey where
  x : Nat
  y : Nat
  onCurve : OnCurve x y

namespace PublicKey

def ofCoordinates? (x y : Nat) : Option PublicKey :=
  if onCurve : OnCurve x y then some { x, y, onCurve } else none

def ofX? (x : Nat) (odd : Bool) : Option PublicKey :=
  let root := Fp.sqrtCandidate (Fp.add (Fp.mul x (Fp.mul x x)) 7)
  ofCoordinates? x (if (root % 2 == 1) == odd then root else fieldPrime - root)

inductive Form
  | compressed (odd : Bool)
  | uncompressed (odd? : Option Bool)

def Form.ofByte? (byte : UInt8) : Option Form :=
  match byte.toNat with
  | 2 => some (.compressed false)
  | 3 => some (.compressed true)
  | 4 => some (.uncompressed none)
  | 6 => some (.uncompressed (some false))
  | 7 => some (.uncompressed (some true))
  | _ => none

/-- The key written in these bytes: 33 of them in compressed form, 65 otherwise. -/
def ofBytes? : Bytes → Option PublicKey
  | [] => none
  | head :: coordinates =>
    match Form.ofByte? head with
    | none => none
    | some (.compressed odd) =>
      if coordinates.length = 32 then ofX? (ofBeBytes coordinates) odd else none
    | some (.uncompressed odd?) =>
      if coordinates.length = 64 then
        (ofCoordinates? (ofBeBytes (coordinates.take 32)) (ofBeBytes (coordinates.drop 32))).filter
          fun key => odd?.all (· == (key.y % 2 == 1))
      else none

def point (key : PublicKey) : Point := .ofAffine key.x key.y

end PublicKey

end SpendScript.Secp256k1
