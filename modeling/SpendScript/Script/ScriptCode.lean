import SpendScript.Script.Instruction

/-!
# Script code

The script code is the part of a script that a signature commits to: what follows the last code
separator before the first signature check, without the separators that remain, and without pushes
of the signature itself.
-/

namespace SpendScript.Script

/-- What follows the last code separator of `script` that stands before its first signature check,
or `start` if none does. -/
def afterSeparator (start : Script) : Script → Script
  | [] => start
  | instruction :: rest =>
    if instruction.isCodeSeparator then afterSeparator rest rest
    else if instruction.isSignatureCheck then start
    else afterSeparator start rest

def withoutSeparators (script : Script) : Script := script.filter (! ·.isCodeSeparator)

/-- The part of the script that its signatures commit to. -/
def subscript (script : Script) : Script := (afterSeparator script script).withoutSeparators

def withoutPush (data : Bytes) (script : Script) : Script := script.filter (! ·.pushes data)

end SpendScript.Script
