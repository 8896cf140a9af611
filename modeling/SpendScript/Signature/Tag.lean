import SpendScript.Bytes

/-!
# Tagged signatures

On the stack, and where a script pushes it, a signature ends in a byte that tells what it signs. One
tag is accepted: every input and every output is signed.
-/

namespace SpendScript

def sighashAll : UInt8 := 0x01

def tagged (signature : Bytes) : Bytes := signature ++ [sighashAll]

def untag? (item : Bytes) : Option Bytes :=
  if item.getLast? = some sighashAll then some item.dropLast else none

theorem untag?_eq_some {item signature : Bytes} :
    untag? item = some signature ↔ item = tagged signature := by
  unfold untag? tagged
  constructor
  · intro untagged
    split at untagged
    next last =>
      obtain ⟨front, rfl⟩ := List.getLast?_eq_some_iff.mp last
      simpa using untagged
    next => cases untagged
  · rintro rfl
    simp

end SpendScript
