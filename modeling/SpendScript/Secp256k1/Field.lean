/-!
# The two fields of secp256k1

Numbers modulo the field prime, in which the coordinates lie, and modulo the group order, in which
the scalars lie. Both are represented by `Nat`.
-/

namespace SpendScript.Secp256k1

def fieldPrime : Nat := 0xfffffffffffffffffffffffffffffffffffffffffffffffffffffffefffffc2f

def groupOrder : Nat := 0xfffffffffffffffffffffffffffffffebaaedce6af48a03bbfd25e8cd0364141

/-- `base` to the power of the `bits` low bits of `exponent`. -/
def powMod (modulus : Nat) : Nat → Nat → Nat → Nat
  | 0, _, _ => 1
  | bits + 1, base, exponent =>
    let half := powMod modulus bits base (exponent / 2)
    let square := half * half % modulus
    if exponent % 2 = 1 then square * base % modulus else square

/-- The inverse modulo a prime, by Fermat's little theorem; zero for zero. -/
def inverseMod (modulus n : Nat) : Nat := powMod modulus 256 n (modulus - 2)

namespace Fp

def add (a b : Nat) : Nat := (a + b) % fieldPrime

def mul (a b : Nat) : Nat := a * b % fieldPrime

def sub (a b : Nat) : Nat := (a + (fieldPrime - b)) % fieldPrime

def inverse (a : Nat) : Nat := inverseMod fieldPrime a

/-- A square root of `a`, if there is one: the prime is 3 modulo 4. -/
def sqrtCandidate (a : Nat) : Nat := powMod fieldPrime 256 a ((fieldPrime + 1) / 4)

end Fp

end SpendScript.Secp256k1
