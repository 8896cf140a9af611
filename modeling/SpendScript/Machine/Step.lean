import SpendScript.Hash.Digest
import SpendScript.Machine.Checker
import SpendScript.Machine.ScriptError
import SpendScript.Machine.Stack
import SpendScript.Script.Instruction
import SpendScript.Signature.Tag

/-!
# One instruction on a stack

A step tells the stack that an instruction leaves, the question that it put to the signature checker,
and the error if it failed. Depth is tested before anything else, so a step that runs short of items
leaves the stack as it was.
-/

namespace SpendScript

structure Step where
  stack : Stack
  query? : Option Query := none
  error? : Option ScriptError := none
  deriving Repr

namespace Step

def done (stack : Stack) : Step := { stack }

def fail (error : ScriptError) (stack : Stack) : Step := { stack, error? := some error }

/-- Asks about the two topmost items, a tagged signature and the key above it. The answer decides
how the step ends on what lies below them. -/
def ofSignatureCheck (checker? : Option Checker) (publicKey item : Bytes) (rest : Stack)
    (settle : Bool → Step) : Step :=
  match checker? with
  | none => fail .noSigningContext (publicKey :: item :: rest)
  | some checker =>
    match untag? item with
    | none => fail .sigHashType rest
    | some signature =>
      let answer := checker signature publicKey
      { settle answer with query? := some { signature, publicKey, answer } }

end Step

def Opcode.step (checker? : Option Checker) (opcode : Opcode) (stack : Stack) : Step :=
  match opcode, stack with
  | .pushData1, _ | .pushData2, _ | .pushData4, _ | .checkMultiSig, _ | .checkMultiSigVerify, _ =>
    .fail .badOpcode stack
  | .codeSeparator, _ => .done stack
  | .dup, top :: rest => .done (top :: top :: rest)
  | .ripemd160, top :: rest => .done (Hash.ripemd160 top :: rest)
  | .sha1, top :: rest => .done (Hash.sha1 top :: rest)
  | .sha256, top :: rest => .done (Hash.sha256 top :: rest)
  | .hash160, top :: rest => .done (Hash.hash160 top :: rest)
  | .hash256, top :: rest => .done (Hash.hash256 top :: rest)
  | .equal, first :: second :: rest => .done (boolItem (first == second) :: rest)
  | .equalVerify, first :: second :: rest =>
    if first == second then .done rest else .fail .equalVerify rest
  | .checkSig, publicKey :: item :: rest =>
    .ofSignatureCheck checker? publicKey item rest fun valid => .done (boolItem valid :: rest)
  | .checkSigVerify, publicKey :: item :: rest =>
    .ofSignatureCheck checker? publicKey item rest fun valid =>
      if valid then .done rest else .fail .checkSigVerify rest
  | _, _ => .fail .invalidStackOperation stack

theorem Opcode.step_checkSig (checker? : Option Checker) (publicKey item : Bytes) (rest : Stack) :
    Opcode.checkSig.step checker? (publicKey :: item :: rest) =
      .ofSignatureCheck checker? publicKey item rest fun valid => .done (boolItem valid :: rest) :=
  rfl

theorem Opcode.step_checkSigVerify (checker? : Option Checker) (publicKey item : Bytes)
    (rest : Stack) :
    Opcode.checkSigVerify.step checker? (publicKey :: item :: rest) =
      .ofSignatureCheck checker? publicKey item rest fun valid =>
        if valid then .done rest else .fail .checkSigVerify rest :=
  rfl

def Instruction.step (checker? : Option Checker) (instruction : Instruction) (stack : Stack) : Step :=
  match instruction with
  | .push data => .done (data :: stack)
  | .op opcode => opcode.step checker? stack
  | .unknown _ => .fail .badOpcode stack

end SpendScript
