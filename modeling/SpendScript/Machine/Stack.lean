import SpendScript.Bytes

/-!
# The stack

Items are byte strings, the top one first. As a truth value an item is false when it is a zero of
any length and either sign, and true otherwise.
-/

namespace SpendScript

abbrev Stack := List Bytes

def boolItem (value : Bool) : Bytes := [if value then 1 else 0]

/-- Whether an item counts as true: some byte is not zero, a lone sign bit in the last one aside. -/
def isTruthy : Bytes → Bool
  | [] => false
  | [last] => last != 0 && last != 0x80
  | byte :: rest => byte != 0 || isTruthy rest

end SpendScript
