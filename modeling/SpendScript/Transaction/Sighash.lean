import SpendScript.Signature.Tag
import SpendScript.Transaction.Wire

/-!
# What a signature signs

A signature for one input signs the whole transaction: every input without its script, the checked
one with the script code in its place, and every output.
-/

namespace SpendScript.Transaction

def withScriptCode (tx : Transaction) (index : Nat) (scriptCode : Bytes) : Transaction :=
  { tx with inputs := tx.inputs.mapIdx fun i input =>
      { input with scriptSig := if i = index then scriptCode else [] } }

/-- The bytes whose digest is signed: no witness, and the hash type at the end. -/
def signedBytes (tx : Transaction) (index : Nat) (scriptCode : Bytes) : Bytes :=
  (tx.withScriptCode index scriptCode).plainBytes ++ leBytes 4 sighashAll.toNat

end SpendScript.Transaction
