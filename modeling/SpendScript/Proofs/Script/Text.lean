import SpendScript.Script.Instruction

/-!
# Reading the text of a script

The text of a script is its instructions with a space between two, and no instruction has a space in
it. An instruction shows by its first characters which kind it is. Main statement: reading the text of
any script gives the script back, so no two scripts have the same text.
-/

namespace SpendScript

namespace Instruction

def ofChars? : List Char → Option Instruction
  | '[' :: rest =>
    if rest.getLast? = some ']' then (Hex.ofText? (String.ofList rest.dropLast)).map .push else none
  | '0' :: 'x' :: digits =>
    match Hex.ofText? (String.ofList digits) with
    | some [byte] => some (.unknown byte)
    | _ => none
  | name => (Opcode.ofName? (String.ofList name)).map .op

theorem ofChars?_push (data : Bytes) : ofChars? (push data).chars = some (.push data) := by
  show ofChars? ('[' :: (Hex.chars data ++ [']'])) = _
  rw [ofChars?, if_pos List.getLast?_concat, List.dropLast_concat]
  exact congrArg (Option.map push) (Hex.ofText?_text data)

theorem ofChars?_unknown (byte : UInt8) : ofChars? (unknown byte).chars = some (.unknown byte) := by
  have digits : Hex.ofText? (String.ofList (Hex.byteChars byte)) = some [byte] := by
    have written := Hex.ofText?_text [byte]
    rwa [Hex.text, Hex.chars, List.flatMap_singleton] at written
  simp only [chars, ofChars?, digits]

/-- No name of an opcode starts as the other instructions do. -/
theorem ofChars?_op (opcode : Opcode) : ofChars? (op opcode).chars = some (.op opcode) := by
  have named : ofChars? opcode.name.toList =
      (Opcode.ofName? (String.ofList opcode.name.toList)).map .op := by
    cases opcode <;> rfl
  rw [String.ofList_toList, Opcode.ofName?_name] at named
  exact named

theorem ofChars?_chars (instruction : Instruction) :
    ofChars? instruction.chars = some instruction := by
  cases instruction with
  | push data => exact ofChars?_push data
  | op opcode => exact ofChars?_op opcode
  | unknown byte => exact ofChars?_unknown byte

theorem chars_ne_nil (instruction : Instruction) : instruction.chars ≠ [] := by
  cases instruction with
  | op opcode => cases opcode <;> decide
  | _ => nofun

theorem space_not_mem_chars (instruction : Instruction) : ' ' ∉ instruction.chars := by
  have digits (bytes : Bytes) : ' ' ∉ Hex.chars bytes := fun mem => by
    cases Hex.isSome_digit?_of_mem_chars mem
  cases instruction with
  | push data => simp [chars, digits data]
  | op opcode => cases opcode <;> decide
  | unknown byte =>
    have two := digits [byte]
    rw [Hex.chars, List.flatMap_singleton] at two
    simp [chars, two]

end Instruction

namespace Script

variable {script : Script}

def ofChars? (chars : List Char) : Option Script :=
  if chars = [] then some [] else (chars.splitOn ' ').mapM Instruction.ofChars?

def ofText? (text : String) : Option Script := ofChars? text.toList

theorem chars_ne_nil (nonempty : script ≠ []) : script.chars ≠ [] := by
  obtain ⟨instruction, rest, rfl⟩ := List.exists_cons_of_ne_nil nonempty
  cases rest with
  | nil => simpa [chars] using instruction.chars_ne_nil
  | cons second rest => simp [chars, List.intercalate_cons_cons]

theorem splitOn_chars (nonempty : script ≠ []) :
    script.chars.splitOn ' ' = script.map Instruction.chars := by
  refine List.splitOn_intercalate ' ' (fun token mem => ?_) (by simpa using nonempty)
  obtain ⟨instruction, -, rfl⟩ := List.mem_map.mp mem
  exact instruction.space_not_mem_chars

theorem mapM_ofChars? (script : Script) :
    (script.map Instruction.chars).mapM Instruction.ofChars? = some script := by
  induction script with
  | nil => rfl
  | cons instruction rest ih => simp [Instruction.ofChars?_chars, ih]

theorem ofChars?_chars (script : Script) : ofChars? script.chars = some script := by
  by_cases empty : script = []
  · subst empty
    rfl
  · rw [ofChars?, if_neg (chars_ne_nil empty), splitOn_chars empty, mapM_ofChars?]

/-- The text of a script loses nothing of it: it reads back as the script, however the script was
made, and so it is the text of no other script. -/
theorem text_lossless :
    (∀ script : Script, ofText? script.text = some script) ∧
      ∀ script other : Script, script.text = other.text → script = other := by
  have reads (script : Script) : ofText? script.text = some script := by
    rw [ofText?, text, String.toList_ofList, ofChars?_chars]
  refine ⟨reads, fun script other same => ?_⟩
  have read := reads script
  rw [same, reads other] at read
  exact (Option.some.inj read).symm

example : text [.op .pushData1, .unknown 0x76, .unknown 0x01, .push []] =
    "pushdata1 0x76 0x01 []" := by
  decide

end Script

end SpendScript
