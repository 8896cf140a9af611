import SpendScript.Proofs.Script.Truncation

/-!
# Decoding by position

`Script.decode` takes bytes off the front of its input. A machine with words of 64 bits would rather
keep the input in one place and a position in it, and there is much that it could do wrong:
`Script.scan` decodes in this way and refuses every sum, difference, shift, index and slice that is
out of range. Main statement: for an input that fits into the memory of such a machine nothing is
refused, every turn moves the position on inside the input, and what is read is what `Script.decode`
reads.
-/

namespace SpendScript

namespace Scan

inductive Fault
  | overflow
  | underflow
  | outsideInput
  deriving DecidableEq, Repr

inductive Stop
  | fault (fault : Fault)
  | outOfTurns
  | undecodable (error : DecodeError)
  deriving DecidableEq, Repr

-- ----------------------------------------------------------------------------
-- The operations of the machine
-- ----------------------------------------------------------------------------

def add (a b : Nat) : Except Stop Nat :=
  if a + b < 2 ^ 64 then .ok (a + b) else .error (.fault .overflow)

def subtract (a b : Nat) : Except Stop Nat :=
  if b ≤ a then .ok (a - b) else .error (.fault .underflow)

/-- Bits that are shifted out of the word are lost. -/
def shiftLeft (n count : Nat) : Except Stop Nat :=
  if count < 64 then .ok (n <<< count % 2 ^ 64) else .error (.fault .overflow)

variable (bytes : Bytes)

def byteAt (position : Nat) : Except Stop UInt8 :=
  match bytes[position]? with
  | some byte => .ok byte
  | none => .error (.fault .outsideInput)

def slice (start stop : Nat) : Except Stop Bytes :=
  if start ≤ stop ∧ stop ≤ bytes.length then .ok ((bytes.take stop).drop start)
  else .error (.fault .outsideInput)

def moveTo (position : Nat) : Except Stop Nat :=
  if position ≤ bytes.length then .ok position else .error (.fault .outsideInput)

def advance (cursor count : Nat) : Except Stop Nat := do
  moveTo bytes (← add cursor count)

-- ----------------------------------------------------------------------------
-- The scan
-- ----------------------------------------------------------------------------

/-- The number in the first `count` bytes from the cursor on, put together byte by byte. -/
def assemble (cursor : Nat) : Nat → Except Stop Nat
  | 0 => .ok 0
  | count + 1 => do
    let length ← assemble cursor count
    let byte ← byteAt bytes (← add cursor count)
    let digit ← shiftLeft byte.toNat (8 * count)
    return length ||| digit

def lengthAt (offset cursor : Nat) (width : PushWidth) : Except Stop (Nat × Nat) := do
  let stop ← add cursor width.size
  if bytes.length < stop then throw (.undecodable (.truncatedLength offset width.size))
  let length ← assemble bytes cursor width.size
  let next ← advance bytes cursor width.size
  return (length, next)

/-- The data that stands at the cursor, and the cursor behind it. How many bytes there are is computed
whether it has to be told or not. -/
def dataAt (offset cursor declared : Nat) : Except Stop (Bytes × Nat) := do
  let stop ← add cursor declared
  let available ← subtract bytes.length cursor
  if bytes.length < stop then throw (.undecodable (.truncatedPush offset declared available))
  let data ← slice bytes cursor stop
  let next ← moveTo bytes stop
  return (data, next)

def turn (cursor : Nat) : Except Stop (Instruction × Nat) := do
  let byte ← byteAt bytes cursor
  let next ← advance bytes cursor 1
  match (Opcode.ofByte? byte).bind Opcode.pushWidth? with
  | some width =>
    let (length, next) ← lengthAt bytes cursor next width
    let (data, next) ← dataAt bytes cursor next length
    return (.push data, next)
  | none =>
    if IsInlineLength byte.toNat then
      let (data, next) ← dataAt bytes cursor next byte.toNat
      return (.push data, next)
    else
      match Opcode.ofByte? byte with
      | some opcode => return (.op opcode, next)
      | none => return (.unknown byte, next)

def loop (turns cursor : Nat) (read : Script) : Except Stop Script :=
  if cursor < bytes.length then
    match turns with
    | 0 => .error .outOfTurns
    | turns + 1 => do
      let (instruction, next) ← turn bytes cursor
      loop turns next (read ++ [instruction])
  else .ok read

end Scan

def Script.scan (turns : Nat) (bytes : Bytes) : Except Scan.Stop Script := Scan.loop bytes turns 0 []

namespace Scan

variable {bytes : Bytes} {offset cursor declared count : Nat} {width : PushWidth}

-- ----------------------------------------------------------------------------
-- Lengths
-- ----------------------------------------------------------------------------

theorem two_pow_bits (count : Nat) : 2 ^ (8 * count) = 256 ^ count := Nat.pow_mul 2 8 count

theorem or_digit {n : Nat} (below : n < 256 ^ count) (byte : UInt8) :
    n ||| byte.toNat <<< (8 * count) = n + 256 ^ count * byte.toNat := by
  rw [Nat.or_comm, ← Nat.shiftLeft_add_eq_or_of_lt (two_pow_bits count ▸ below), Nat.shiftLeft_eq,
    two_pow_bits, Nat.add_comm, Nat.mul_comm]

theorem shiftLeft_byte (byte : UInt8) (small : count < 8) :
    shiftLeft byte.toNat (8 * count) = .ok (byte.toNat <<< (8 * count)) := by
  have below : byte.toNat <<< (8 * count) < 2 ^ 64 := calc
    byte.toNat <<< (8 * count) = byte.toNat * 2 ^ (8 * count) := Nat.shiftLeft_eq ..
    _ < 2 ^ 8 * 2 ^ (8 * count) := Nat.mul_lt_mul_of_pos_right byte.toNat_lt (Nat.two_pow_pos _)
    _ = 2 ^ (8 + 8 * count) := (Nat.pow_add 2 8 _).symm
    _ ≤ 2 ^ 64 := Nat.pow_le_pow_right (by decide) (by omega)
  rw [shiftLeft, if_pos (by omega), Nat.mod_eq_of_lt below]

theorem advance_eq (fits : bytes.length < 2 ^ 63) (inside : cursor + count ≤ bytes.length) :
    advance bytes cursor count = .ok (cursor + count) := by
  rw [advance, add, if_pos (by omega)]
  exact if_pos inside

theorem assemble_eq (fits : bytes.length < 2 ^ 63) (inside : cursor + count ≤ bytes.length)
    (small : count ≤ 8) :
    assemble bytes cursor count = .ok (ofLeBytes ((bytes.drop cursor).take count)) := by
  induction count with
  | zero => rfl
  | succ count ih =>
    -- The next byte goes above all the bits that the number has so far.
    have present : bytes[cursor + count]? = some bytes[cursor + count] :=
      List.getElem?_eq_getElem (by omega)
    have low : ((bytes.drop cursor).take count).length = count := by
      rw [List.length_take, List.length_drop]
      omega
    have below := ofLeBytes_lt ((bytes.drop cursor).take count)
    rw [low] at below
    rw [List.take_add_one, List.getElem?_drop, present, Option.toList_some, ofLeBytes_append, low]
    simp only [assemble, ih (by omega) (by omega), add, if_pos (show cursor + count < 2 ^ 64 by omega),
      byteAt, present, shiftLeft_byte _ (show count < 8 by omega), bind, Except.bind, pure,
      Except.pure, or_digit below, ofLeBytes, Nat.mul_zero, Nat.add_zero]

theorem declared_lt (bytes : Bytes) (width : PushWidth) :
    ofLeBytes (bytes.take width.size) < 2 ^ (8 * width.size) := calc
  ofLeBytes (bytes.take width.size) < 256 ^ (bytes.take width.size).length := ofLeBytes_lt _
  _ ≤ 256 ^ width.size := Nat.pow_le_pow_right (by decide) (List.length_take_le ..)
  _ = 2 ^ (8 * width.size) := (two_pow_bits _).symm

theorem declared_lt_word (bytes : Bytes) (width : PushWidth) :
    ofLeBytes (bytes.take width.size) < 2 ^ 32 := by
  have := width.size_le
  exact Nat.lt_of_lt_of_le (declared_lt bytes width) (Nat.pow_le_pow_right (by decide) (by omega))

theorem lengthAt_eq (fits : bytes.length < 2 ^ 63) (inside : cursor ≤ bytes.length) :
    lengthAt bytes offset cursor width =
      if bytes.length < cursor + width.size then
        .error (.undecodable (.truncatedLength offset width.size))
      else .ok (ofLeBytes ((bytes.drop cursor).take width.size), cursor + width.size) := by
  have small := width.size_le
  simp only [lengthAt, add, if_pos (show cursor + width.size < 2 ^ 64 by omega), bind, Except.bind]
  split
  next short => rfl
  next enough =>
    simp only [assemble_eq fits (Nat.not_lt.mp enough) (by omega),
      advance_eq fits (Nat.not_lt.mp enough)]
    rfl

theorem dataAt_eq (fits : bytes.length < 2 ^ 63) (inside : cursor ≤ bytes.length)
    (small : declared < 2 ^ 32) :
    dataAt bytes offset cursor declared =
      if bytes.length < cursor + declared then
        .error (.undecodable (.truncatedPush offset declared (bytes.length - cursor)))
      else .ok ((bytes.drop cursor).take declared, cursor + declared) := by
  simp only [dataAt, add, if_pos (show cursor + declared < 2 ^ 64 by omega), subtract,
    if_pos inside, bind, Except.bind]
  split
  next short => rfl
  next enough =>
    have between : cursor ≤ cursor + declared ∧ cursor + declared ≤ bytes.length := by omega
    simp only [slice, if_pos between, moveTo, if_pos between.2, List.drop_take,
      Nat.add_sub_cancel_left]
    rfl

-- ----------------------------------------------------------------------------
-- The same instructions as decoding
-- ----------------------------------------------------------------------------

theorem length_take_drop (enough : ¬ bytes.length < cursor + count) :
    ((bytes.drop cursor).take count).length = count := by
  rw [List.length_take, List.length_drop]
  omega

theorem readLength_drop (inside : cursor ≤ bytes.length) :
    Lexeme.readLength offset width (bytes.drop cursor) =
      if bytes.length < cursor + width.size then .error (.truncatedLength offset width.size)
      else .ok (ofLeBytes ((bytes.drop cursor).take width.size), bytes.drop (cursor + width.size)) := by
  split
  next short =>
    rw [Lexeme.readLength_eq_error, List.length_drop]
    exact ⟨by omega, rfl⟩
  next enough =>
    rw [Lexeme.readLength_eq_ok, ← List.drop_drop]
    exact ⟨_, (List.take_append_drop ..).symm, length_take_drop enough, rfl⟩

theorem readData_drop (inside : cursor ≤ bytes.length) :
    Lexeme.readData offset declared (bytes.drop cursor) =
      if bytes.length < cursor + declared then
        .error (.truncatedPush offset declared (bytes.length - cursor))
      else .ok ((bytes.drop cursor).take declared, bytes.drop (cursor + declared)) := by
  split
  next short =>
    rw [Lexeme.readData_eq_error, List.length_drop]
    exact ⟨by omega, rfl⟩
  next enough =>
    rw [Lexeme.readData_eq_ok, ← List.drop_drop]
    exact ⟨(List.take_append_drop ..).symm, length_take_drop enough⟩

/-- What reading one spelling comes to, told by position. -/
def placed (cursor : Nat) (read : Except DecodeError (Lexeme × Bytes)) :
    Except Stop (Instruction × Nat) :=
  (read.map fun (lexeme, _) => (lexeme.instruction, cursor + lexeme.size)).mapError .undecodable

theorem placed_ok (cursor : Nat) (lexeme : Lexeme) (rest : Bytes) :
    placed cursor (.ok (lexeme, rest)) = .ok (lexeme.instruction, cursor + lexeme.size) := rfl

theorem turn_of_pushOpcode (fits : bytes.length < 2 ^ 63) (inside : cursor + 1 ≤ bytes.length)
    (first : bytes[cursor]? = some width.opcode.byte) :
    turn bytes cursor =
      placed cursor (Lexeme.read cursor width.opcode.byte (bytes.drop (cursor + 1))) := by
  simp only [turn, byteAt, first, advance_eq fits inside, Opcode.ofByte?_byte, Option.bind_some,
    Opcode.pushWidth?_opcode, lengthAt_eq fits inside, Lexeme.read_pushOpcode,
    readLength_drop inside, bind, Except.bind]
  -- The input may end in the length or in the data, each found by the sum that both sides compare.
  by_cases short : bytes.length < cursor + 1 + width.size
  · simp only [if_pos short]
    rfl
  · have small := declared_lt_word (bytes.drop (cursor + 1)) width
    simp only [if_neg short, dataAt_eq fits (Nat.not_lt.mp short) small,
      readData_drop (Nat.not_lt.mp short)]
    by_cases short' : bytes.length < cursor + 1 + width.size +
        ofLeBytes ((bytes.drop (cursor + 1)).take width.size)
    · simp only [if_pos short']
      rfl
    · simp only [if_neg short', pure, Except.pure, placed_ok, Lexeme.instruction, Lexeme.size,
        length_take_drop short']
      congr 2
      omega

theorem turn_of_op {opcode : Opcode} (fits : bytes.length < 2 ^ 63)
    (inside : cursor + 1 ≤ bytes.length) (first : bytes[cursor]? = some opcode.byte)
    (h : ¬ opcode.IsPushData) :
    turn bytes cursor =
      placed cursor (Lexeme.read cursor opcode.byte (bytes.drop (cursor + 1))) := by
  have single : ¬ IsInlineLength opcode.byte.toNat := by
    revert h
    cases opcode <;> decide
  simp only [turn, byteAt, first, advance_eq fits inside, Opcode.ofByte?_byte, Option.bind_some,
    Opcode.pushWidth?_eq_none.mpr h, if_neg single, Lexeme.read_op h, bind, Except.bind]
  rfl

theorem turn_of_inline {head : UInt8} (fits : bytes.length < 2 ^ 63)
    (inside : cursor + 1 ≤ bytes.length) (first : bytes[cursor]? = some head)
    (unregistered : Opcode.ofByte? head = none) (h : IsInlineLength head.toNat) :
    turn bytes cursor = placed cursor (Lexeme.read cursor head (bytes.drop (cursor + 1))) := by
  have small : head.toNat < 2 ^ 32 := Nat.lt_of_lt_of_le head.toNat_lt (by decide)
  simp only [turn, byteAt, first, advance_eq fits inside, unregistered, Option.bind_none, if_pos h,
    Lexeme.read_inline unregistered h, dataAt_eq fits inside small, readData_drop inside, bind,
    Except.bind]
  by_cases short : bytes.length < cursor + 1 + head.toNat
  · simp only [if_pos short]
    rfl
  · simp only [if_neg short, pure, Except.pure, placed_ok, Lexeme.instruction, Lexeme.size,
      length_take_drop short]
    congr 2
    omega

theorem turn_of_unknown {head : UInt8} (fits : bytes.length < 2 ^ 63)
    (inside : cursor + 1 ≤ bytes.length) (first : bytes[cursor]? = some head)
    (unregistered : Opcode.ofByte? head = none) (h : ¬ IsInlineLength head.toNat) :
    turn bytes cursor = placed cursor (Lexeme.read cursor head (bytes.drop (cursor + 1))) := by
  simp only [turn, byteAt, first, advance_eq fits inside, unregistered, Option.bind_none, if_neg h,
    Lexeme.read_unknown unregistered h, bind, Except.bind]
  rfl

theorem turn_eq (fits : bytes.length < 2 ^ 63) (inside : cursor < bytes.length) :
    turn bytes cursor =
      placed cursor (Lexeme.read cursor bytes[cursor] (bytes.drop (cursor + 1))) := by
  have first : bytes[cursor]? = some bytes[cursor] := List.getElem?_eq_getElem inside
  rcases Lexeme.head_cases bytes[cursor] with ⟨width, h⟩ | ⟨opcode, hop, h⟩ | ⟨hn, hi⟩ | ⟨hn, hi⟩
  · rw [h] at first ⊢
    exact turn_of_pushOpcode fits inside first
  · rw [h] at first ⊢
    exact turn_of_op fits inside first hop
  · exact turn_of_inline fits inside first hn hi
  · exact turn_of_unknown fits inside first hn hi

theorem rest_of_read {lexeme : Lexeme} {rest : Bytes} (inside : cursor < bytes.length)
    (step : Lexeme.read cursor bytes[cursor] (bytes.drop (cursor + 1)) = .ok (lexeme, rest)) :
    cursor + lexeme.size ≤ bytes.length ∧ bytes.drop (cursor + lexeme.size) = rest := by
  have spelled := Lexeme.bytes_append_of_read step
  rw [← List.drop_eq_getElem_cons inside] at spelled
  have total := congrArg List.length spelled
  rw [List.length_drop, List.length_append, Lexeme.length_bytes] at total
  refine ⟨by omega, ?_⟩
  rw [← List.drop_drop, spelled, ← lexeme.length_bytes, List.drop_left]

def readOn (bytes : Bytes) (cursor : Nat) (read : Script) : Except Stop Script :=
  ((lexFrom cursor (bytes.drop cursor)).map (read ++ ·.map Lexeme.instruction)).mapError .undecodable

theorem readOn_of_ended (ended : bytes.length ≤ cursor) (read : Script) :
    readOn bytes cursor read = .ok read := by
  rw [readOn, List.drop_eq_nil_of_le ended, lexFrom_nil]
  exact congrArg Except.ok (List.append_nil read)

theorem readOn_of_step {lexeme : Lexeme} {rest : Bytes} (inside : cursor < bytes.length)
    (step : Lexeme.read cursor bytes[cursor] (bytes.drop (cursor + 1)) = .ok (lexeme, rest))
    (read : Script) :
    readOn bytes cursor read =
      readOn bytes (cursor + lexeme.size) (read ++ [lexeme.instruction]) := by
  rw [readOn, readOn, (rest_of_read inside step).2, List.drop_eq_getElem_cons inside, lexFrom_cons]
  simp only [step]
  cases lexFrom (cursor + lexeme.size) rest with
  | error error => rfl
  | ok later => exact congrArg Except.ok (List.append_cons read lexeme.instruction _)

theorem loop_eq (fits : bytes.length < 2 ^ 63) {turns cursor : Nat}
    (enough : bytes.length ≤ cursor + turns) (read : Script) :
    loop bytes turns cursor read = readOn bytes cursor read := by
  induction turns generalizing cursor read with
  | zero =>
    rw [Nat.add_zero] at enough
    rw [loop, if_neg (Nat.not_lt.mpr enough), readOn_of_ended enough]
  | succ turns ih =>
    rcases Nat.lt_or_ge cursor bytes.length with inside | ended
    · rw [loop, if_pos inside, turn_eq fits inside]
      cases step : Lexeme.read cursor bytes[cursor] (bytes.drop (cursor + 1)) with
      | error error =>
        rw [readOn, List.drop_eq_getElem_cons inside, lexFrom_cons, step]
        rfl
      | ok item =>
        obtain ⟨lexeme, rest⟩ := item
        have := lexeme.size_pos
        -- The turn took a byte at least, so one turn fewer is enough for the others.
        rw [readOn_of_step inside step]
        exact ih (by omega) (read ++ [lexeme.instruction])
    · rw [loop, if_neg (Nat.not_lt.mpr ended), readOn_of_ended ended]

-- ----------------------------------------------------------------------------
-- Inside the input
-- ----------------------------------------------------------------------------

variable (bytes offset cursor declared width)

def LengthSafe : Except Stop (Nat × Nat) → Prop
  | .ok (length, next) =>
    length < 2 ^ (8 * width.size) ∧ next = cursor + width.size ∧ next ≤ bytes.length
  | .error stop => stop = .undecodable (.truncatedLength offset width.size)

def DataSafe : Except Stop (Bytes × Nat) → Prop
  | .ok (data, next) =>
    data.length = declared ∧ next = cursor + data.length ∧ next ≤ bytes.length
  | .error stop =>
    bytes.length - cursor < declared ∧
      stop = .undecodable (.truncatedPush offset declared (bytes.length - cursor))

/-- A turn moves on inside the input, with less data than the input had left, or the input ends in the
middle of a push. -/
def TurnSafe : Except Stop (Instruction × Nat) → Prop
  | .ok (instruction, next) =>
    cursor < next ∧ next ≤ bytes.length ∧
      ∀ data, instruction = .push data → data.length < bytes.length - cursor
  | .error stop => ∃ error, stop = .undecodable error

variable {bytes offset cursor declared width}

theorem lengthAt_safe (fits : bytes.length < 2 ^ 63) (inside : cursor ≤ bytes.length) :
    LengthSafe bytes offset cursor width (lengthAt bytes offset cursor width) := by
  rw [lengthAt_eq fits inside]
  split
  next short => rfl
  next enough => exact ⟨declared_lt _ width, rfl, Nat.not_lt.mp enough⟩

theorem dataAt_safe (fits : bytes.length < 2 ^ 63) (inside : cursor ≤ bytes.length)
    (small : declared < 2 ^ 32) :
    DataSafe bytes offset cursor declared (dataAt bytes offset cursor declared) := by
  rw [dataAt_eq fits inside small]
  split
  next short => exact ⟨by omega, rfl⟩
  next enough =>
    have whole := length_take_drop enough
    exact ⟨whole, by rw [whole], Nat.not_lt.mp enough⟩

theorem turn_safe (fits : bytes.length < 2 ^ 63) (inside : cursor < bytes.length) :
    TurnSafe bytes cursor (turn bytes cursor) := by
  rw [turn_eq fits inside]
  cases step : Lexeme.read cursor bytes[cursor] (bytes.drop (cursor + 1)) with
  | error error => exact ⟨error, rfl⟩
  | ok item =>
    obtain ⟨lexeme, rest⟩ := item
    obtain ⟨within, -⟩ := rest_of_read inside step
    have := lexeme.size_pos
    refine ⟨by omega, within, fun data pushed => ?_⟩
    have less : data.length < lexeme.size := by
      cases lexeme <;> cases pushed <;> simp only [Lexeme.size] <;> omega
    omega

end Scan

namespace Script

/-- An input that fits into memory is decoded without a fault and within one turn for each of its
bytes, to what `decode` reads. Every turn, every length and every piece of data on the way is safe. -/
theorem scan_safe (bytes : Bytes) (fits : bytes.length < 2 ^ 63) :
    scan bytes.length bytes = (decode bytes).mapError .undecodable ∧
      (∀ cursor, cursor < bytes.length → Scan.TurnSafe bytes cursor (Scan.turn bytes cursor)) ∧
      (∀ offset cursor width, cursor ≤ bytes.length →
        Scan.LengthSafe bytes offset cursor width (Scan.lengthAt bytes offset cursor width)) ∧
      (∀ offset cursor declared, cursor ≤ bytes.length → declared < 2 ^ 32 →
        Scan.DataSafe bytes offset cursor declared (Scan.dataAt bytes offset cursor declared)) := by
  refine ⟨?_, fun _ => Scan.turn_safe fits, fun _ _ _ => Scan.lengthAt_safe fits,
    fun _ _ _ => Scan.dataAt_safe fits⟩
  rw [scan, Scan.loop_eq fits (Nat.le_of_eq (Nat.zero_add _).symm), Scan.readOn, List.drop_zero, decode, lex]
  cases lexFrom 0 bytes <;> rfl

def endingPrefix : Bytes := [0xac, 0x4e, 0xff, 0xff, 0xff, 0xff]

theorem scan_endingPrefix :
    endingPrefix.length < 2 ^ 63 ∧
      scan endingPrefix.length endingPrefix =
        .error (.undecodable (.truncatedPush 1 (2 ^ 32 - 1) 0)) ∧
      Scan.TurnSafe endingPrefix 1 (.error (.undecodable (.truncatedPush 1 (2 ^ 32 - 1) 0))) ∧
      Scan.LengthSafe endingPrefix 1 2 .four (.ok (2 ^ 32 - 1, 6)) ∧
      Scan.DataSafe endingPrefix 1 6 (2 ^ 32 - 1)
        (.error (.undecodable (.truncatedPush 1 (2 ^ 32 - 1) 0))) := by
  have fits : endingPrefix.length < 2 ^ 63 := by decide
  have truncated : decode endingPrefix = .error (.truncatedPush 1 (2 ^ 32 - 1) 0) := by cbv
  obtain ⟨same, turns, lengths, data⟩ := scan_safe endingPrefix fits
  rw [truncated] at same
  exact ⟨fits, same, turns 1 (by decide), lengths 1 2 .four (by decide),
    data 1 6 (2 ^ 32 - 1) (by decide) (by decide)⟩

end Script

end SpendScript
