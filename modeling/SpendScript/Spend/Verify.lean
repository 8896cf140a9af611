import SpendScript.Spend.Log
import SpendScript.Spend.SigningContext

/-!
# Verifying a spend

The script of the input runs on an empty stack, then the script of the output that it spends on the
stack left behind. The spend is valid if both succeed and leave a true item on top. The first stage
that fails decides the outcome.
-/

namespace SpendScript

/-- One input of a transaction against the script of the output that it claims to spend. -/
structure Spend where
  spentScript : Bytes
  transaction : Bytes
  input : Nat
  flags : UInt32

namespace Spend

def decodeScript (role : Role) (bytes : Bytes) : Except Failure Script :=
  (Script.decode bytes).mapError (.undecodable role)

def runScript (role : Role) (context : SigningContext) (script : Script) (stack : Stack) :
    Except Failure Stack :=
  let final := script.run (some context.accepts) stack
  match final.halt? with
  | some halt => .error (.halted role halt)
  | none => .ok final.stack

def judge (flags : Flags) (stack : Stack) : Except Failure Unit :=
  match stack with
  | [] => .error .falseResult
  | top :: rest =>
    if !isTruthy top then .error .falseResult
    else if flags.cleanStack && !rest.isEmpty then .error .uncleanStack
    else .ok ()

/-- Runs the script of the input on an empty stack, then the spent script on what it leaves. -/
def runScripts (tx : Transaction) (input : Nat) (input_lt : input < tx.inputs.length)
    (flags : Flags) (scriptSig scriptPubKey : Script) : Except Failure Stack := do
  let stack ← runScript .input (.ofScript tx input input_lt scriptSig flags) scriptSig []
  runScript .spent (.ofScript tx input input_lt scriptPubKey flags) scriptPubKey stack

/-- The stack that is left once both scripts have been read and have run. -/
def finalStack (spentScript : Bytes) (tx : Transaction) (input : Nat)
    (input_lt : input < tx.inputs.length) (flags : Flags) : Except Failure Stack := do
  let scriptSig ← decodeScript .input tx.inputs[input].scriptSig
  if flags.sigPushOnly && !scriptSig.isPushOnly then throw .notPushOnly
  let scriptPubKey ← decodeScript .spent spentScript
  runScripts tx input input_lt flags scriptSig scriptPubKey

def verifyInput (spentScript : Bytes) (tx : Transaction) (input : Nat)
    (input_lt : input < tx.inputs.length) (flags : Flags) : Except Failure Unit := do
  let stack ← finalStack spentScript tx input input_lt flags
  judge flags stack

def verify (spend : Spend) : Except Failure Unit :=
  match Flags.ofBits? spend.flags with
  | none => .error .invalidFlags
  | some flags =>
    match Transaction.parse spend.transaction with
    | .error error => .error (.transaction error)
    | .ok tx =>
      if input_lt : spend.input < tx.inputs.length then
        verifyInput spend.spentScript tx spend.input input_lt flags
      else .error .noSuchInput

structure Report where
  outcome : Except Rejection Unit
  log : List LogEvent

def report (spend : Spend) : Report :=
  match spend.verify with
  | .ok () => { outcome := .ok (), log := [.verified spend.input] }
  | .error failure =>
    { outcome := .error failure.rejection,
      log := failure.log ++ [.rejected spend.input failure.rejection] }

end Spend

end SpendScript
