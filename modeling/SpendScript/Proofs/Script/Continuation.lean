import SpendScript.Proofs.Script.Truncation

/-!
# Scripts followed by more bytes

Bytes that follow a script decode as they would alone, only further on. Bytes that follow a push
that is cut short complete it, or leave it cut short at the same offset; nothing before the push
changes. Main statement: decoding a concatenation, whether its first part decodes or not.
-/

namespace SpendScript

variable {offset declared : Nat} {bytes after : Bytes} {error : DecodeError}

namespace DecodeError

def shifted (distance : Nat) : DecodeError → DecodeError
  | .truncatedLength offset width => .truncatedLength (offset + distance) width
  | .truncatedPush offset declared available =>
    .truncatedPush (offset + distance) declared available

/-- What may become of an error if `count` more bytes do not complete the push that it is about. A
length that was missing may still be missing or be known by now; a length that was declared stays,
and all that follows is data. -/
inductive Persists (count : Nat) : DecodeError → DecodeError → Prop
  | missing (offset width : Nat) :
      Persists count (.truncatedLength offset width) (.truncatedLength offset width)
  | declares (offset width declared available : Nat) :
      Persists count (.truncatedLength offset width) (.truncatedPush offset declared available)
  | waits (offset declared available : Nat) :
      Persists count (.truncatedPush offset declared available)
        (.truncatedPush offset declared (available + count))

end DecodeError

theorem CutShort.shifted (h : CutShort offset bytes error) (distance : Nat) :
    CutShort (offset + distance) bytes (error.shifted distance) := by
  cases h with
  | length width short => exact .length width short
  | data starts short => exact .data starts short

theorem offset_le_of_lexFrom (h : lexFrom offset bytes = .error error) : offset ≤ error.offset := by
  obtain ⟨lexemes, rest, -, -, cut⟩ := exists_cutShort_of_lexFrom h
  rw [cut.offset_eq]
  exact Nat.le_add_right ..

theorem lexFrom_shifted (offset distance : Nat) (bytes : Bytes) :
    lexFrom (offset + distance) bytes =
      (lexFrom offset bytes).mapError (DecodeError.shifted distance) := by
  cases lexed : lexFrom offset bytes with
  | ok lexemes => exact lexFrom_eq_ok.mpr (lexFrom_eq_ok.mp lexed)
  | error error =>
    obtain ⟨lexemes, rest, wellFormed, rfl, cut⟩ := exists_cutShort_of_lexFrom lexed
    have behind := cut.shifted distance
    rw [Nat.add_right_comm] at behind
    rw [lexFrom_append wellFormed, lexFrom_of_cutShort behind]
    rfl

def StartsWithPush (bytes : Bytes) : Prop :=
  ∃ (lexeme : Lexeme) (data rest : Bytes), lexeme.WellFormed ∧ lexeme.instruction = .push data ∧
    lexeme.bytes ++ rest = bytes

theorem StartsPush.append (h : StartsPush bytes declared after) (more : Bytes) :
    StartsPush (bytes ++ more) declared (after ++ more) := by
  cases h with
  | inlineLength after inline fresh => exact .inlineLength (after ++ more) inline fresh
  | lengthPrefix width after size =>
    rw [List.cons_append, List.append_assoc]
    exact .lengthPrefix width (after ++ more) size

theorem StartsPush.startsWithPush (h : StartsPush bytes declared after)
    (enough : declared ≤ after.length) : StartsWithPush bytes := by
  have length : (after.take declared).length = declared := List.length_take_of_le enough
  cases h with
  | @inlineLength head after inline fresh =>
    refine ⟨.inlinePush (after.take head.toNat), _, after.drop head.toNat, ?_, rfl, ?_⟩
    · rw [Lexeme.WellFormed, length]
      exact ⟨inline, fresh⟩
    · simp [Lexeme.bytes, Nat.min_eq_left enough]
  | @lengthPrefix width digits after size =>
    refine ⟨.prefixedPush width (after.take (ofLeBytes digits)), _,
      after.drop (ofLeBytes digits), ?_, rfl, ?_⟩
    · rw [Lexeme.WellFormed, length, ← size]
      exact ofLeBytes_lt digits
    · have written : leBytes width.size (ofLeBytes digits) = digits := by
        rw [← size, leBytes_ofLeBytes]
      simp [Lexeme.bytes, Nat.min_eq_left enough, written]

theorem StartsPush.startsWithPush_or_cutShort (h : StartsPush bytes declared after) (offset : Nat) :
    StartsWithPush bytes ∨ CutShort offset bytes (.truncatedPush offset declared after.length) := by
  rcases Nat.lt_or_ge after.length declared with short | enough
  · exact .inr (.data h short)
  · exact .inl (h.startsWithPush enough)

theorem CutShort.append (h : CutShort offset bytes error) (more : Bytes) :
    StartsWithPush (bytes ++ more) ∨
      ∃ later, CutShort offset (bytes ++ more) later ∧ error.Persists more.length later := by
  cases h with
  | @length width after short =>
    rcases Nat.lt_or_ge (after ++ more).length width.size with still | enough
    · exact .inr ⟨_, .length width still, .missing ..⟩
    · -- The length prefix is there now, and it may end inside `more`.
      have starts := StartsPush.lengthPrefix width ((after ++ more).drop width.size)
        (List.length_take_of_le enough)
      rw [List.take_append_drop] at starts
      rcases starts.startsWithPush_or_cutShort offset with whole | cut
      · exact .inl whole
      · exact .inr ⟨_, cut, .declares ..⟩
  | data starts short =>
    rcases (starts.append more).startsWithPush_or_cutShort offset with whole | cut
    · exact .inl whole
    · rw [List.length_append] at cut
      exact .inr ⟨_, cut, .waits ..⟩

theorem lexFrom_append_of_cutShort (h : CutShort offset bytes error) (more : Bytes) :
    (∃ lexeme data others, lexeme.instruction = .push data ∧
      lexFrom offset (bytes ++ more) = .ok (lexeme :: others)) ∨
    ∃ later, lexFrom offset (bytes ++ more) = .error later ∧ offset ≤ later.offset ∧
      (later.offset = offset → error.Persists more.length later) := by
  rcases h.append more with
    ⟨lexeme, data, rest, wellFormed, pushes, spelled⟩ | ⟨later, cut, persists⟩
  · have read := lexFrom_append (List.forall_mem_singleton.mpr wellFormed) offset rest
    rw [List.flatMap_singleton, spelled, Lexeme.length_bytes] at read
    cases lexed : lexFrom (offset + lexeme.size) rest with
    | ok others =>
      rw [lexed] at read
      exact .inl ⟨lexeme, data, others, pushes, read⟩
    | error later =>
      rw [lexed] at read
      have beyond := offset_le_of_lexFrom lexed
      have size := lexeme.size_pos
      exact .inr ⟨later, read, by omega, by omega⟩
  · exact .inr ⟨later, lexFrom_of_cutShort cut, Nat.le_of_eq cut.offset_eq.symm, fun _ => persists⟩

namespace Script

theorem decode_append_of_ok {script : Script} (decoded : decode bytes = .ok script) (more : Bytes) :
    decode (bytes ++ more) =
      match decode more with
      | .ok other => .ok (script ++ other)
      | .error error => .error (error.shifted bytes.length) := by
  obtain ⟨lexemes, wellFormed, rfl, rfl⟩ := decode_eq_ok.mp decoded
  have read := lexFrom_append wellFormed 0 more
  rw [lexFrom_shifted] at read
  simp only [decode, lex, read]
  cases lexFrom 0 more with
  | ok others => exact congrArg Except.ok List.map_append
  | error error => rfl

theorem decode_append_of_error (failed : decode bytes = .error error) (more : Bytes) :
    ∃ before, decode (bytes.take error.offset) = .ok before ∧
      ((∃ data after, decode (bytes ++ more) = .ok (before ++ .push data :: after)) ∨
        ∃ later, decode (bytes ++ more) = .error later ∧ error.offset ≤ later.offset ∧
          (later.offset = error.offset → error.Persists more.length later)) := by
  obtain ⟨offset, truncated⟩ := truncated_of_decode failed
  obtain rfl := truncated.2.offset_eq
  have inside := truncated.length_take
  obtain ⟨⟨before, decoded⟩, cut⟩ := truncated
  refine ⟨before, decoded, ?_⟩
  obtain ⟨lexemes, wellFormed, spelled, rfl⟩ := decode_eq_ok.mp decoded
  have read := lexFrom_append wellFormed 0 (bytes.drop error.offset ++ more)
  rw [spelled, ← List.append_assoc, List.take_append_drop, inside, Nat.zero_add] at read
  rcases lexFrom_append_of_cutShort cut more with
    ⟨lexeme, data, others, pushes, lexed⟩ | ⟨later, lexed, beyond, persists⟩
  · refine .inl ⟨data, others.map Lexeme.instruction, ?_⟩
    rw [lexed] at read
    simp [decode, lex, read, Except.map, pushes]
  · rw [lexed] at read
    exact .inr ⟨later, decode_eq_error.mpr read, beyond, persists⟩

/-- Bytes after a script decode as they would alone, with their errors further on. Bytes after a
push that is cut short leave what stands before it as it is: they complete the push, or decoding
fails there or later, and if it fails there it does for what is left of the same error. -/
theorem decode_append (bytes more : Bytes) :
    (∀ script, decode bytes = .ok script → decode (bytes ++ more) =
      match decode more with
      | .ok other => .ok (script ++ other)
      | .error error => .error (error.shifted bytes.length)) ∧
    ∀ error, decode bytes = .error error →
      ∃ before, decode (bytes.take error.offset) = .ok before ∧
        ((∃ data after, decode (bytes ++ more) = .ok (before ++ .push data :: after)) ∨
          ∃ later, decode (bytes ++ more) = .error later ∧ error.offset ≤ later.offset ∧
            (later.offset = error.offset → error.Persists more.length later)) := by
  constructor
  · intro script decoded
    exact decode_append_of_ok decoded more
  · intro error failed
    exact decode_append_of_error failed more

example : decode [0xac, 0x4d, 0x02] = .error (.truncatedLength 1 2) ∧
    decode ([0xac, 0x4d, 0x02] ++ [0x00, 0xaa]) = .error (.truncatedPush 1 2 1) := by
  constructor <;> cbv

end Script

end SpendScript
