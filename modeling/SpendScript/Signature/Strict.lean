import SpendScript.Bytes
import SpendScript.Secp256k1.Ecdsa

/-!
# Signatures in strict DER

One sequence that spans the whole input and holds two integers and nothing else, each length written
in the fewest bytes and each integer without needless padding. An integer that is negative or not
below the group order still reads, but counts as zero, which no verification accepts.
-/

namespace SpendScript.Signature

open Secp256k1 (groupOrder)

def sequenceTag : UInt8 := 0x30

def integerTag : UInt8 := 0x02

def skipTag? (tag : UInt8) : Bytes → Option Bytes
  | [] => none
  | head :: rest => if head = tag then some rest else none

namespace Strict

/-- A length below 128 is one byte; a greater one is the count of its bytes, then these. The count
takes at most eight bytes, and the length may not exceed the input. -/
def readLength? : Bytes → Option (Nat × Bytes)
  | [] => none
  | head :: rest =>
    if head < 0x80 then some (head.toNat, rest)
    else if head = 0x80 ∨ head = 0xff then none
    else do
      let (digits, rest) ← splitBytes? (head.toNat - 0x80) rest
      if digits.head? = some 0 ∨ 8 < digits.length then none
      else
        let length := ofBeBytes digits
        if 128 ≤ length ∧ length ≤ rest.length then some (length, rest) else none

/-- Whether an integer starts with a byte that only repeats the sign of the next one. -/
def isPadded : Bytes → Bool
  | first :: second :: _ => first == 0 && second < 0x80 || first == 0xff && 0x80 ≤ second
  | _ => false

def scalar (content : Bytes) : Nat :=
  match content with
  | [] => 0
  | first :: rest =>
    let magnitude := if first = 0 then rest else content
    if 0x80 ≤ first ∨ 32 < magnitude.length then 0
    else
      let value := ofBeBytes magnitude
      if value < groupOrder then value else 0

def readInteger? (bytes : Bytes) : Option (Nat × Bytes) := do
  let bytes ← skipTag? integerTag bytes
  let (length, bytes) ← readLength? bytes
  let (content, rest) ← splitBytes? length bytes
  if content.isEmpty ∨ isPadded content then none else some (scalar content, rest)

end Strict

def ofStrictDer? (bytes : Bytes) : Option Secp256k1.Signature := do
  let bytes ← skipTag? sequenceTag bytes
  let (length, bytes) ← Strict.readLength? bytes
  if length = bytes.length then
    let (r, bytes) ← Strict.readInteger? bytes
    let (s, bytes) ← Strict.readInteger? bytes
    if bytes.isEmpty then some { r, s } else none
  else none

end SpendScript.Signature
