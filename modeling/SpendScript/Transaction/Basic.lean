import SpendScript.Bytes

/-!
# Transactions

A transaction spends outputs of others, one an input, and creates outputs of its own.
-/

namespace SpendScript

/-- The digest that names a transaction, in the order of bytes in which it is sent. -/
structure TxId where
  bytes : Bytes
  length_eq : bytes.length = 32
  deriving DecidableEq, Repr

structure OutPoint where
  txId : TxId
  index : UInt32
  deriving DecidableEq, Repr

structure TxInput where
  spent : OutPoint
  scriptSig : Bytes
  sequence : UInt32
  witness : List Bytes := []
  deriving DecidableEq, Repr

structure TxOutput where
  amount : UInt64
  script : Bytes
  deriving DecidableEq, Repr

structure Transaction where
  version : Int32
  inputs : List TxInput
  outputs : List TxOutput
  lockTime : UInt32
  deriving DecidableEq, Repr

end SpendScript
