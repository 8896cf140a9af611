/-!
# Why a script fails
-/

namespace SpendScript

inductive ScriptError
  | unknown
  | evalFalse
  | badOpcode
  | invalidStackOperation
  | equalVerify
  | checkSigVerify
  | sigHashType
  | noSigningContext
  | sigPushOnly
  | cleanStack
  deriving DecidableEq, Repr

namespace ScriptError

def name : ScriptError → String
  | .unknown => "Unknown"
  | .evalFalse => "EvalFalse"
  | .badOpcode => "BadOpcode"
  | .invalidStackOperation => "InvalidStackOperation"
  | .equalVerify => "EqualVerify"
  | .checkSigVerify => "CheckSigVerify"
  | .sigHashType => "SigHashType"
  | .noSigningContext => "NoSigningContext"
  | .sigPushOnly => "SigPushOnly"
  | .cleanStack => "CleanStack"

def statusName : Option ScriptError → String
  | none => "Ok"
  | some error => error.name

end ScriptError

end SpendScript
