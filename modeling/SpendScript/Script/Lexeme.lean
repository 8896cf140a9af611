import SpendScript.Script.Instruction

/-!
# Spellings of instructions

A lexeme is one instruction together with the way it is spelled in bytes: a push either gives the
length of its data in its first byte, or announces a length prefix of one, two or four bytes. Main
statements: `Lexeme.read` splits off the lexeme at the front of its input and nothing else, and
`Instruction.lexeme` is the spelling that scripts are written in.
-/

namespace SpendScript

def maxInlinePush : Nat := 0x75

inductive DecodeError
  | truncatedLength (offset width : Nat)
  | truncatedPush (offset declared available : Nat)
  deriving DecidableEq, Repr

def DecodeError.message : DecodeError → String
  | .truncatedLength offset width =>
    "push at offset " ++ offset.repr ++ " is missing its " ++ width.repr ++ "-byte length prefix"
  | .truncatedPush offset declared available =>
    "push at offset " ++ offset.repr ++ " declares " ++ declared.repr ++ " bytes but only " ++
      available.repr ++ " remain"

inductive Lexeme
  | inlinePush (data : Bytes)
  | prefixedPush (width : PushWidth) (data : Bytes)
  | op (opcode : Opcode)
  | unknown (byte : UInt8)

namespace Lexeme

def instruction : Lexeme → Instruction
  | .inlinePush data | .prefixedPush _ data => .push data
  | .op opcode => .op opcode
  | .unknown byte => .unknown byte

def bytes : Lexeme → Bytes
  | .inlinePush data => UInt8.ofNat data.length :: data
  | .prefixedPush width data =>
    width.opcode.byte :: (leBytes width.size data.length ++ data)
  | .op opcode => [opcode.byte]
  | .unknown byte => [byte]

def size : Lexeme → Nat
  | .inlinePush data => data.length + 1
  | .prefixedPush width data => width.size + data.length + 1
  | .op _ | .unknown _ => 1

@[simp] theorem length_bytes (lexeme : Lexeme) : lexeme.bytes.length = lexeme.size := by
  cases lexeme <;> simp [bytes, size]

theorem size_pos (lexeme : Lexeme) : 0 < lexeme.size := by
  cases lexeme <;> simp [size]

def readLength (offset : Nat) (width : PushWidth) (bytes : Bytes) :
    Except DecodeError (Nat × Bytes) :=
  match splitBytes? width.size bytes with
  | some (length, rest) => .ok (ofLeBytes length, rest)
  | none => .error (.truncatedLength offset width.size)

def readData (offset declared : Nat) (bytes : Bytes) : Except DecodeError (Bytes × Bytes) :=
  match splitBytes? declared bytes with
  | some split => .ok split
  | none => .error (.truncatedPush offset declared bytes.length)

def read (offset : Nat) (head : UInt8) (tail : Bytes) : Except DecodeError (Lexeme × Bytes) :=
  match Opcode.ofByte? head with
  | some opcode =>
    match opcode.pushWidth? with
    | some width => do
      let (declared, tail) ← readLength offset width tail
      let (data, rest) ← readData offset declared tail
      return (.prefixedPush width data, rest)
    | none => return (.op opcode, tail)
  | none =>
    if 1 ≤ head.toNat ∧ head.toNat ≤ maxInlinePush then do
      let (data, rest) ← readData offset head.toNat tail
      return (.inlinePush data, rest)
    else return (.unknown head, tail)

theorem readLength_eq_ok {offset declared : Nat} {width : PushWidth} {bytes rest : Bytes} :
    readLength offset width bytes = .ok (declared, rest) ↔
      ∃ length, bytes = length ++ rest ∧ length.length = width.size ∧
        ofLeBytes length = declared := by
  unfold readLength
  split
  next length after split =>
    simp only [Except.ok.injEq, Prod.mk.injEq]
    constructor
    · rintro ⟨rfl, rfl⟩
      exact ⟨length, (splitBytes?_eq_some.mp split).1, (splitBytes?_eq_some.mp split).2, rfl⟩
    · rintro ⟨length', rfl, size, rfl⟩
      rw [splitBytes?_eq_some.mpr ⟨rfl, size⟩] at split
      cases split
      exact ⟨rfl, rfl⟩
  next short =>
    simp only [reduceCtorEq, false_iff]
    rintro ⟨length, rfl, size, -⟩
    rw [splitBytes?_eq_some.mpr ⟨rfl, size⟩] at short
    cases short

theorem readData_eq_ok {offset declared : Nat} {bytes data rest : Bytes} :
    readData offset declared bytes = .ok (data, rest) ↔
      bytes = data ++ rest ∧ data.length = declared := by
  unfold readData
  rw [← splitBytes?_eq_some]
  split
  next split => simp [split]
  next short => simp [short]

theorem bytes_append_of_read {offset : Nat} {head : UInt8} {tail rest : Bytes} {lexeme : Lexeme}
    (read_ok : read offset head tail = .ok (lexeme, rest)) :
    head :: tail = lexeme.bytes ++ rest := by
  unfold read at read_ok
  split at read_ok
  next opcode found =>
    have byte := Opcode.byte_eq_of_ofByte? found
    split at read_ok
    next width announced =>
      obtain rfl := Opcode.pushWidth?_eq_some.mp announced
      cases hl : readLength offset width tail with
      | error e => simp [hl, bind, Except.bind] at read_ok
      | ok length =>
        obtain ⟨declared, after⟩ := length
        cases hd : readData offset declared after with
        | error e => simp [hl, hd, bind, Except.bind] at read_ok
        | ok split =>
          obtain ⟨data, rest'⟩ := split
          simp only [hl, hd, bind, Except.bind, pure, Except.pure, Except.ok.injEq,
            Prod.mk.injEq] at read_ok
          obtain ⟨rfl, rfl⟩ := read_ok
          obtain ⟨digits, rfl, size, rfl⟩ := readLength_eq_ok.mp hl
          obtain ⟨rfl, length⟩ := readData_eq_ok.mp hd
          simp only [bytes, length, byte, List.cons_append, List.append_assoc]
          rw [← size, leBytes_ofLeBytes]
    next =>
      simp only [pure, Except.pure, Except.ok.injEq, Prod.mk.injEq] at read_ok
      obtain ⟨rfl, rfl⟩ := read_ok
      simp [bytes, byte]
  next =>
    split at read_ok
    next =>
      cases hd : readData offset head.toNat tail with
      | error e => simp [hd, bind, Except.bind] at read_ok
      | ok split =>
        obtain ⟨data, rest'⟩ := split
        simp only [hd, bind, Except.bind, pure, Except.pure, Except.ok.injEq,
          Prod.mk.injEq] at read_ok
        obtain ⟨rfl, rfl⟩ := read_ok
        obtain ⟨rfl, length⟩ := readData_eq_ok.mp hd
        simp [bytes, length]
    next =>
      simp only [pure, Except.pure, Except.ok.injEq, Prod.mk.injEq] at read_ok
      obtain ⟨rfl, rfl⟩ := read_ok
      rfl

theorem length_lt_of_read {offset : Nat} {head : UInt8} {tail rest : Bytes} {lexeme : Lexeme}
    (read_ok : read offset head tail = .ok (lexeme, rest)) : rest.length < (head :: tail).length := by
  rw [bytes_append_of_read read_ok]
  have := lexeme.size_pos
  simp only [List.length_append, length_bytes]
  omega

end Lexeme

/-- The shortest spelling that reads back as this instruction, where one does. A length that is
also the byte of an opcode cannot stand inline. -/
def Instruction.lexeme : Instruction → Lexeme
  | .push data =>
    if 1 ≤ data.length ∧ data.length ≤ maxInlinePush ∧
        (Opcode.ofByte? (UInt8.ofNat data.length)).isNone then
      .inlinePush data
    else .prefixedPush (PushWidth.narrowest data.length) data
  | .op opcode => .op opcode
  | .unknown byte => .unknown byte

end SpendScript
