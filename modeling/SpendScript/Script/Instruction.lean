import SpendScript.Hex
import SpendScript.Opcode

/-!
# Instructions and scripts

A script is a list of instructions: a push of literal data, a registered opcode, or a byte without
a registry entry, kept as it is. A script need not come from bytes; `Script.text` shows any of them.
-/

namespace SpendScript

inductive Instruction
  | push (data : Bytes)
  | op (opcode : Opcode)
  | unknown (byte : UInt8)
  deriving BEq, ReflBEq, LawfulBEq, Repr

instance : DecidableEq Instruction := fun a b => decidable_of_iff (a == b) beq_iff_eq

namespace Instruction

def isPush : Instruction → Bool
  | .push _ => true
  | _ => false

def pushes (data : Bytes) : Instruction → Bool
  | .push pushed => pushed == data
  | _ => false

def isCodeSeparator : Instruction → Bool
  | .op .codeSeparator => true
  | _ => false

def isSignatureCheck : Instruction → Bool
  | .op opcode => opcode.isSignatureCheck
  | _ => false

/-- Data in brackets, an opcode by its name, any other byte with its value. -/
def chars : Instruction → List Char
  | .push data => '[' :: Hex.chars data ++ [']']
  | .op opcode => opcode.name.toList
  | .unknown byte => '0' :: 'x' :: Hex.byteChars byte

def text (instruction : Instruction) : String := String.ofList instruction.chars

end Instruction

abbrev Script := List Instruction

namespace Script

def isPushOnly (script : Script) : Bool := script.all Instruction.isPush

def chars (script : Script) : List Char := List.intercalate [' '] (script.map Instruction.chars)

def text (script : Script) : String := String.ofList script.chars

end Script

end SpendScript
