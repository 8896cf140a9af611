import SpendScript.Hash.Digest
import SpendScript.Script.Codec
import SpendScript.Script.ScriptCode
import SpendScript.Signature.Lax
import SpendScript.Signature.Tag
import SpendScript.Spend.Failure
import SpendScript.Spend.Flags
import SpendScript.Transaction.Sighash

/-!
# Checking signatures for an input

A signing context holds what the signature checks of one script need: the transaction, which of its
inputs is checked, and the part of the script that signatures commit to.
-/

namespace SpendScript

structure SigningContext where
  transaction : Transaction
  input : Nat
  input_lt : input < transaction.inputs.length
  scriptCode : Script
  flags : Flags

namespace SigningContext

def ofScript (transaction : Transaction) (input : Nat) (input_lt : input < transaction.inputs.length)
    (script : Script) (flags : Flags) : SigningContext :=
  { transaction, input, input_lt, scriptCode := script.subscript, flags }

def create (transaction : Transaction) (input : Nat) (script : Script) (flags : Flags) :
    Except ErrorCode SigningContext :=
  if input_lt : input < transaction.inputs.length then
    .ok (ofScript transaction input input_lt script flags)
  else .error .txIndex

def parseSignature? (context : SigningContext) (bytes : Bytes) : Option Secp256k1.Signature :=
  if context.flags.strictDer then Signature.ofStrictDer? bytes else Signature.ofLaxDer? bytes

/-- What a signature signs. No signature can sign itself, so pushes of it are left out of the script
code. -/
def signedBytes (context : SigningContext) (signature : Bytes) : Bytes :=
  context.transaction.signedBytes context.input
    (context.scriptCode.withoutPush (tagged signature)).encode

/-- Whether a signature, its tag taken off, is valid for a public key. -/
def accepts (context : SigningContext) (signature publicKey : Bytes) : Bool :=
  match Secp256k1.PublicKey.ofBytes? publicKey, context.parseSignature? signature with
  | some key, some parsed =>
    parsed.lowered.verifies (ofBeBytes (Hash.hash256 (context.signedBytes signature))) key
  | _, _ => false

theorem accepts_congr {context other : SigningContext} {signature publicKey : Bytes}
    (read : context.parseSignature? signature = other.parseSignature? signature)
    (signed : context.signedBytes signature = other.signedBytes signature) :
    context.accepts signature publicKey = other.accepts signature publicKey := by
  simp only [accepts, read, signed]

end SigningContext

end SpendScript
