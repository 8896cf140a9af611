import SpendScript.Secp256k1.Field

/-!
# Points of the curve

Points in Jacobian coordinates: `⟨x, y, z⟩` stands for the affine point `(x / z², y / z³)`, and for
the point at infinity if `z` is zero. The curve is `y² = x³ + 7`.
-/

namespace SpendScript.Secp256k1

structure Point where
  x : Nat
  y : Nat
  z : Nat

namespace Point

open Fp

def infinity : Point where
  x := 1
  y := 1
  z := 0

def ofAffine (x y : Nat) : Point where
  x
  y
  z := 1

def generator : Point :=
  ofAffine 0x79be667ef9dcbbac55a06295ce870b07029bfcdb2dce28d959f2815b16f81798
    0x483ada7726a3c4655da4fbfc0e1108a8fd17b448a68554199c47d08ffb10d4b8

def isInfinity (point : Point) : Bool := point.z == 0

def affineX (point : Point) : Nat :=
  let inverse := inverse point.z
  mul point.x (mul inverse inverse)

def double (point : Point) : Point :=
  let a := mul point.x point.x
  let b := mul point.y point.y
  let c := mul b b
  let d := mul 4 (mul point.x b)
  let e := mul 3 a
  let x := sub (mul e e) (mul 2 d)
  { x, y := sub (mul e (sub d x)) (mul 8 c), z := mul 2 (mul point.y point.z) }

def add (p q : Point) : Point :=
  if p.isInfinity then q
  else if q.isInfinity then p
  else
    let zp := mul p.z p.z
    let zq := mul q.z q.z
    let u := mul p.x zq
    let s := mul p.y (mul q.z zq)
    let h := sub (mul q.x zp) u
    let r := sub (mul q.y (mul p.z zp)) s
    if h = 0 then
      if r = 0 then p.double else infinity
    else
      let hh := mul h h
      let hhh := mul h hh
      let v := mul u hh
      let x := sub (sub (mul r r) hhh) (mul 2 v)
      { x, y := sub (mul r (sub v x)) (mul s hhh), z := mul h (mul p.z q.z) }

/-- `m • p + n • q` for the `bits` low bits of `m` and `n`, given the sum `both` of the points. -/
def combine (p q both : Point) : Nat → Nat → Nat → Point
  | 0, _, _ => infinity
  | bits + 1, m, n =>
    let twice := (combine p q both bits (m / 2) (n / 2)).double
    match m % 2, n % 2 with
    | 0, 0 => twice
    | 0, _ => twice.add q
    | _, 0 => twice.add p
    | _, _ => twice.add both

def linearCombination (m : Nat) (p : Point) (n : Nat) (q : Point) : Point :=
  combine p q (p.add q) 256 m n

end Point

end SpendScript.Secp256k1
