import SpendScript.Transaction.Basic
import SpendScript.Transaction.Reader

/-!
# Transactions as bytes

There are two forms. The plain one has no witnesses. The extended one marks itself by a count of zero
inputs and a flag, and gives a witness for each input after the outputs; it is written when some
witness is not empty, or when there are no inputs and the plain form would read as a mark.
-/

namespace SpendScript

def sizedBytes (bytes : Bytes) : Bytes := compactSize bytes.length ++ bytes

def countedBytes {α : Type} (bytes : α → Bytes) (items : List α) : Bytes :=
  compactSize items.length ++ items.flatMap bytes

def maxWitnessSize : Nat := 4000000

def OutPoint.bytes (outPoint : OutPoint) : Bytes :=
  outPoint.txId.bytes ++ leBytes 4 outPoint.index.toNat

def TxInput.bytes (input : TxInput) : Bytes :=
  input.spent.bytes ++ sizedBytes input.scriptSig ++ leBytes 4 input.sequence.toNat

def TxInput.witnessBytes (input : TxInput) : Bytes := countedBytes sizedBytes input.witness

def TxOutput.bytes (output : TxOutput) : Bytes :=
  leBytes 8 output.amount.toNat ++ sizedBytes output.script

namespace Transaction

def plainBytes (tx : Transaction) : Bytes :=
  leBytes 4 tx.version.toUInt32.toNat ++ countedBytes TxInput.bytes tx.inputs ++
    countedBytes TxOutput.bytes tx.outputs ++ leBytes 4 tx.lockTime.toNat

def extendedBytes (tx : Transaction) : Bytes :=
  leBytes 4 tx.version.toUInt32.toNat ++ [0, 1] ++ countedBytes TxInput.bytes tx.inputs ++
    countedBytes TxOutput.bytes tx.outputs ++ tx.inputs.flatMap TxInput.witnessBytes ++
    leBytes 4 tx.lockTime.toNat

def isExtended (tx : Transaction) : Bool :=
  tx.inputs.isEmpty || tx.inputs.any (! ·.witness.isEmpty)

def bytes (tx : Transaction) : Bytes :=
  if tx.isExtended then tx.extendedBytes else tx.plainBytes

def readTxId : Reader TxId := fun input =>
  match split : splitBytes? 32 input with
  | some (bytes, rest) => some ({ bytes, length_eq := (splitBytes?_eq_some.mp split).2 }, rest)
  | none => none

def readInput : Reader TxInput := do
  let txId ← readTxId
  let index ← Reader.uint32
  let scriptSig ← Reader.sizedBytes
  let sequence ← Reader.uint32
  return { spent := { txId, index }, scriptSig, sequence }

def readOutput : Reader TxOutput := do
  let amount ← Reader.uint64
  let script ← Reader.sizedBytes
  return { amount, script }

def readWitness : Reader (List Bytes) := do
  let count ← Reader.compactSize
  if maxWitnessSize < count then failure
  let elements ← Reader.repeated Reader.sizedBytes count
  if maxWitnessSize < (elements.flatMap sizedBytes).length then failure
  return elements

/-- What follows the mark of the extended form: witnesses are given only if one is not empty. -/
def readExtended (version : Int32) : Reader Transaction := do
  let inputs ← Reader.counted readInput
  let outputs ← Reader.counted readOutput
  let witnesses ← Reader.repeated readWitness inputs.length
  let tx : Transaction :=
    { version, outputs, lockTime := 0,
      inputs := inputs.zipWith (fun input witness => { input with witness }) witnesses }
  if tx.isExtended then
    let lockTime ← Reader.uint32
    return { tx with lockTime }
  else failure

def read : Reader Transaction := do
  let version ← Reader.uint32
  let count ← Reader.compactSize
  if count = 0 then
    let flag ← Reader.byte
    if flag = 1 then readExtended version.toInt32 else failure
  else
    let inputs ← Reader.repeated readInput count
    let outputs ← Reader.counted readOutput
    let lockTime ← Reader.uint32
    return { version := version.toInt32, inputs, outputs, lockTime }

inductive ParseError
  | malformed
  | sizeMismatch
  deriving DecidableEq, Repr

/-- The transaction that all these bytes spell, provided that it is written in as many. -/
def parse (input : Bytes) : Except ParseError Transaction :=
  match read input with
  | some (tx, []) =>
    if tx.bytes.length = input.length then .ok tx else .error .sizeMismatch
  | _ => .error .malformed

end Transaction

end SpendScript
