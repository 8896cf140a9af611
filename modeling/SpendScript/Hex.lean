import SpendScript.Bytes

/-!
# Hexadecimal text

Two digits a byte, high digit first. Text is written in lower case and read in either case.
-/

namespace SpendScript.Hex

def byteChars (byte : UInt8) : List Char :=
  [Nat.digitChar (byte.toNat / 16), Nat.digitChar (byte.toNat % 16)]

def chars (bytes : Bytes) : List Char := bytes.flatMap byteChars

def text (bytes : Bytes) : String := String.ofList (chars bytes)

def digit? (c : Char) : Option Nat :=
  if '0' ≤ c ∧ c ≤ '9' then some (c.toNat - '0'.toNat)
  else if 'a' ≤ c ∧ c ≤ 'f' then some (c.toNat - 'a'.toNat + 10)
  else if 'A' ≤ c ∧ c ≤ 'F' then some (c.toNat - 'A'.toNat + 10)
  else none

private def readOnto (read : Bytes) : List Char → Option Bytes
  | [] => some read.reverse
  | high :: low :: rest =>
    match digit? high, digit? low with
    | some high, some low => readOnto (UInt8.ofNat (16 * high + low) :: read) rest
    | _, _ => none
  | [_] => none

/-- The bytes that a text names: digits only, and an even number of them. -/
def ofText? (text : String) : Option Bytes := readOnto [] text.toList

theorem digit?_digitChar {n : Nat} (h : n < 16) : digit? (Nat.digitChar n) = some n := by
  revert n
  decide

theorem isSome_digit?_of_mem_chars {c : Char} {bytes : Bytes} (mem : c ∈ chars bytes) :
    (digit? c).isSome := by
  obtain ⟨byte, -, mem⟩ := List.mem_flatMap.mp mem
  have := byte.toNat_lt
  have high := digit?_digitChar (n := byte.toNat / 16) (by omega)
  have low := digit?_digitChar (n := byte.toNat % 16) (by omega)
  simp only [byteChars, List.mem_cons, List.not_mem_nil, or_false] at mem
  rcases mem with rfl | rfl
  · rw [high]; rfl
  · rw [low]; rfl

private theorem readOnto_chars (read bytes : Bytes) :
    readOnto read (chars bytes) = some (read.reverse ++ bytes) := by
  induction bytes generalizing read with
  | nil => simp [chars, readOnto]
  | cons byte rest ih =>
    have := byte.toNat_lt
    have high := digit?_digitChar (n := byte.toNat / 16) (by omega)
    have low := digit?_digitChar (n := byte.toNat % 16) (by omega)
    have value : UInt8.ofNat (16 * (byte.toNat / 16) + byte.toNat % 16) = byte := by
      rw [Nat.div_add_mod, UInt8.ofNat_toNat]
    show readOnto read (byteChars byte ++ chars rest) = _
    simp only [byteChars, List.cons_append, List.nil_append, readOnto, high, low, value, ih,
      List.reverse_cons, List.append_assoc]

theorem ofText?_text (bytes : Bytes) : ofText? (text bytes) = some bytes := by
  rw [ofText?, text, String.toList_ofList, readOnto_chars, List.reverse_nil, List.nil_append]

end SpendScript.Hex
