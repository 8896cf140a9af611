import SpendScript.Spend.Failure

/-!
# The log

What a run of a script and a verification report on the way. Nothing is reported of a run that ends
well; a verification reports its outcome last.
-/

namespace SpendScript

inductive LogEvent
  | halted (halt : Halt)
  | undecodable (error : DecodeError)
  | verified (input : Nat)
  | rejected (input : Nat) (rejection : Rejection)
  deriving DecidableEq, Repr

namespace LogEvent

def level : LogEvent → String
  | .halted _ | .undecodable _ => "TRACE"
  | .verified _ | .rejected _ _ => "DEBUG"

def text : LogEvent → String
  | .halted halt =>
    "script failed at instruction " ++ halt.index.repr ++ " (" ++ halt.instruction.text ++ "): " ++
      halt.error.name
  | .undecodable error => "script rejected at decode: " ++ error.message
  | .verified input => "input " ++ input.repr ++ " verified"
  | .rejected input rejection =>
    "input " ++ input.repr ++ " failed verification: " ++ rejection.code.message ++ " (" ++
      ScriptError.statusName rejection.scriptError? ++ ")"

def line (event : LogEvent) : String := event.level ++ " " ++ event.text

end LogEvent

def Machine.log (machine : Machine) : List LogEvent := machine.halt?.toList.map .halted

def Failure.log : Failure → List LogEvent
  | .undecodable _ error => [.undecodable error]
  | .halted _ halt => [.halted halt]
  | _ => []

end SpendScript
