import SpendScript.Machine.Run
import SpendScript.Script.Lexeme
import SpendScript.Transaction.Wire

/-!
# Why a spend is rejected

A failure names the stage that failed and what it found. Callers see less of it: the code of the
kind of failure, and the script error if a script is to blame.
-/

namespace SpendScript

inductive ErrorCode
  | script
  | txIndex
  | txSizeMismatch
  | txDeserialize
  | invalidFlags
  deriving DecidableEq, Repr

namespace ErrorCode

def all : List ErrorCode := [.script, .txIndex, .txSizeMismatch, .txDeserialize, .invalidFlags]

def name : ErrorCode → String
  | .script => "Script"
  | .txIndex => "TxIndex"
  | .txSizeMismatch => "TxSizeMismatch"
  | .txDeserialize => "TxDeserialize"
  | .invalidFlags => "InvalidFlags"

def message : ErrorCode → String
  | .script => "script evaluated without success"
  | .txIndex => "an invalid index for the spending transaction"
  | .txSizeMismatch => "spending transaction is not canonically encoded"
  | .txDeserialize => "an error deserializing the spending transaction"
  | .invalidFlags => "script verification flags are invalid"

def ofName? (name : String) : Option ErrorCode := all.find? (·.name == name)

end ErrorCode

def Transaction.ParseError.code : Transaction.ParseError → ErrorCode
  | .malformed => .txDeserialize
  | .sizeMismatch => .txSizeMismatch

/-- The two scripts of a spend: the input's own, and that of the output it spends. -/
inductive Role
  | input
  | spent
  deriving DecidableEq, Repr

inductive Failure
  | invalidFlags
  | transaction (error : Transaction.ParseError)
  | noSuchInput
  | undecodable (role : Role) (error : DecodeError)
  | notPushOnly
  | halted (role : Role) (halt : Halt)
  | falseResult
  | uncleanStack
  deriving DecidableEq, Repr

/-- What callers see of a failure. -/
structure Rejection where
  code : ErrorCode
  scriptError? : Option ScriptError
  deriving DecidableEq, Repr

namespace Failure

def scriptError? : Failure → Option ScriptError
  | .invalidFlags | .transaction _ | .noSuchInput => none
  | .undecodable _ _ => some .badOpcode
  | .notPushOnly => some .sigPushOnly
  | .halted _ halt => some halt.error
  | .falseResult => some .evalFalse
  | .uncleanStack => some .cleanStack

def code : Failure → ErrorCode
  | .invalidFlags => .invalidFlags
  | .transaction error => error.code
  | .noSuchInput => .txIndex
  | .undecodable _ _ | .notPushOnly | .halted _ _ | .falseResult | .uncleanStack => .script

def rejection (failure : Failure) : Rejection where
  code := failure.code
  scriptError? := failure.scriptError?

end Failure

end SpendScript
