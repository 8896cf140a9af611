import SpendScript.Bytes

/-!
# Reading a byte stream

A reader takes a value off the front of its input and returns what follows. Numbers come lowest byte
first. A compact size takes one, three, five or nine bytes and must take the fewest that hold it;
`compactSize` writes it.
-/

namespace SpendScript

/-- A count in the fewest bytes: alone if it is small, else after a byte that tells its width. -/
def compactSize (n : Nat) : Bytes :=
  if n < 0xfd then [UInt8.ofNat n]
  else if n ≤ 0xffff then 0xfd :: leBytes 2 n
  else if n ≤ 0xffffffff then 0xfe :: leBytes 4 n
  else 0xff :: leBytes 8 n

abbrev Reader := StateT Bytes Option

namespace Reader

def byte : Reader UInt8 := fun
  | [] => none
  | head :: rest => some (head, rest)

def bytes (count : Nat) : Reader Bytes := splitBytes? count

def number (width : Nat) : Reader Nat := do
  let digits ← bytes width
  return ofLeBytes digits

def uint32 : Reader UInt32 := do
  let n ← number 4
  return UInt32.ofNat n

def uint64 : Reader UInt64 := do
  let n ← number 8
  return UInt64.ofNat n

/-- A number of `width` bytes that does not fit a narrower form, which ends before `least`. -/
def numberFrom (least width : Nat) : Reader Nat := do
  let n ← number width
  if least ≤ n then return n else failure

def compactSize : Reader Nat := do
  let head ← byte
  if head < 0xfd then return head.toNat
  else if head = 0xfd then numberFrom 0xfd 2
  else if head = 0xfe then numberFrom 0x10000 4
  else numberFrom 0x100000000 8

def sizedBytes : Reader Bytes := do
  let count ← compactSize
  bytes count

def repeatOnto {α : Type} (item : Reader α) (read : List α) : Nat → Reader (List α)
  | 0 => fun rest => some (read.reverse, rest)
  | count + 1 => fun input =>
    match item input with
    | none => none
    | some (value, rest) => repeatOnto item (value :: read) count rest

def repeated {α : Type} (item : Reader α) (count : Nat) : Reader (List α) :=
  repeatOnto item [] count

def counted {α : Type} (item : Reader α) : Reader (List α) := do
  let count ← compactSize
  repeated item count

end Reader

end SpendScript
