import SpendScript.Bytes

/-!
# Signature checkers

A machine knows nothing of transactions: whether a signature is valid it asks a checker, and it
records what it asked.
-/

namespace SpendScript

/-- Answers whether a signature, its tag taken off, is valid for a public key. -/
abbrev Checker := Bytes → Bytes → Bool

def Checker.constant (answer : Bool) : Checker := fun _ _ => answer

def Checker.ofPairs (pairs : List (Bytes × Bytes)) : Checker := fun signature publicKey =>
  pairs.contains (signature, publicKey)

structure Query where
  signature : Bytes
  publicKey : Bytes
  answer : Bool
  deriving DecidableEq, Repr

end SpendScript
