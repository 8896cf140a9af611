import SpendScript.Signature.Strict

/-!
# Signatures in lax DER

The reading of signatures that the network once accepted: the length of the sequence is skipped, the
lengths of the integers may be written in more bytes than needed, integers are unsigned with any
number of leading zeros, and what follows the second one is ignored. If either integer is too large,
both count as zero.
-/

namespace SpendScript.Signature

open Secp256k1 (groupOrder)

namespace Lax

/-- What follows a length, whatever the length is. -/
def skipLength? : Bytes → Option Bytes
  | [] => none
  | head :: rest =>
    if head < 0x80 then some rest
    else (splitBytes? (head.toNat - 0x80) rest).map Prod.snd

def readLength? : Bytes → Option (Nat × Bytes)
  | [] => none
  | head :: rest =>
    if head < 0x80 then some (head.toNat, rest)
    else do
      let (digits, rest) ← splitBytes? (head.toNat - 0x80) rest
      let digits := digits.dropWhile (· == 0)
      if digits.length < 8 then some (ofBeBytes digits, rest) else none

def scalar? (content : Bytes) : Option Nat :=
  let magnitude := content.dropWhile (· == 0)
  if 32 < magnitude.length then none
  else
    let value := ofBeBytes magnitude
    if value < groupOrder then some value else none

def readInteger? (bytes : Bytes) : Option (Bytes × Bytes) := do
  let bytes ← skipTag? integerTag bytes
  let (length, bytes) ← readLength? bytes
  splitBytes? length bytes

end Lax

def ofLaxDer? (bytes : Bytes) : Option Secp256k1.Signature := do
  let bytes ← skipTag? sequenceTag bytes
  let bytes ← Lax.skipLength? bytes
  let (r, bytes) ← Lax.readInteger? bytes
  let (s, _) ← Lax.readInteger? bytes
  match Lax.scalar? r, Lax.scalar? s with
  | some r, some s => some { r, s }
  | _, _ => some { r := 0, s := 0 }

end SpendScript.Signature
