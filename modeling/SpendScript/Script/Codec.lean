import SpendScript.Script.Lexeme

/-!
# Scripts as bytes

`Script.decode` splits bytes into lexemes and keeps their instructions; `Script.encode` writes every
instruction in its shortest spelling. Main statement: the lexemes of an input, written one after
another, are the input.
-/

namespace SpendScript

/-- The lexemes of the bytes that start at `offset`, after those already read (last one first). -/
def lexOnto (read : List Lexeme) (offset : Nat) (bytes : Bytes) :
    Except DecodeError (List Lexeme) :=
  match bytes with
  | [] => .ok read.reverse
  | head :: tail =>
    match step : Lexeme.read offset head tail with
    | .error error => .error error
    | .ok (lexeme, rest) =>
      have := Lexeme.length_lt_of_read step
      lexOnto (lexeme :: read) (offset + lexeme.size) rest
termination_by bytes.length
decreasing_by assumption

theorem lexOnto_nil (read : List Lexeme) (offset : Nat) :
    lexOnto read offset [] = .ok read.reverse := by
  rw [lexOnto]

theorem lexOnto_cons (read : List Lexeme) (offset : Nat) (head : UInt8) (tail : Bytes) :
    lexOnto read offset (head :: tail) =
      match Lexeme.read offset head tail with
      | .error error => .error error
      | .ok (lexeme, rest) => lexOnto (lexeme :: read) (offset + lexeme.size) rest := by
  rw [lexOnto]
  split <;> simp_all

theorem lexOnto_eq_map (read : List Lexeme) (offset : Nat) (bytes : Bytes) :
    lexOnto read offset bytes = (lexOnto [] offset bytes).map (read.reverse ++ ·) := by
  match bytes with
  | [] => simp [lexOnto_nil, Except.map]
  | head :: tail =>
    simp only [lexOnto_cons]
    match step : Lexeme.read offset head tail with
    | .error error => rfl
    | .ok (lexeme, rest) =>
      simp only [lexOnto_eq_map (lexeme :: read) _ rest, lexOnto_eq_map [lexeme] _ rest]
      cases lexOnto [] (offset + lexeme.size) rest <;> simp [Except.map]
termination_by bytes.length
decreasing_by all_goals simpa only [List.length_cons] using Lexeme.length_lt_of_read step

def lexFrom (offset : Nat) (bytes : Bytes) : Except DecodeError (List Lexeme) :=
  lexOnto [] offset bytes

def lex (bytes : Bytes) : Except DecodeError (List Lexeme) := lexFrom 0 bytes

@[simp] theorem lexFrom_nil (offset : Nat) : lexFrom offset [] = .ok [] := lexOnto_nil [] offset

theorem lexFrom_cons (offset : Nat) (head : UInt8) (tail : Bytes) :
    lexFrom offset (head :: tail) =
      match Lexeme.read offset head tail with
      | .error error => .error error
      | .ok (lexeme, rest) => (lexFrom (offset + lexeme.size) rest).map (lexeme :: ·) := by
  unfold lexFrom
  rw [lexOnto_cons]
  split
  · rfl
  · rw [lexOnto_eq_map]
    rfl

theorem flatMap_bytes_of_lexFrom {offset : Nat} {bytes : Bytes} {lexemes : List Lexeme}
    (lexed : lexFrom offset bytes = .ok lexemes) : lexemes.flatMap Lexeme.bytes = bytes := by
  match bytes with
  | [] =>
    rw [lexFrom_nil] at lexed
    cases lexed
    rfl
  | head :: tail =>
    rw [lexFrom_cons] at lexed
    match step : Lexeme.read offset head tail with
    | .error error => simp [step] at lexed
    | .ok (lexeme, rest) =>
      match more : lexFrom (offset + lexeme.size) rest with
      | .error error => simp [step, more, Except.map] at lexed
      | .ok others =>
        simp only [step, more, Except.map, Except.ok.injEq] at lexed
        subst lexed
        simp [flatMap_bytes_of_lexFrom more, Lexeme.bytes_append_of_read step]
termination_by bytes.length
decreasing_by simpa only [List.length_cons] using Lexeme.length_lt_of_read step

namespace Script

def decode (bytes : Bytes) : Except DecodeError Script :=
  (lex bytes).map (List.map Lexeme.instruction)

def encode (script : Script) : Bytes := script.flatMap (·.lexeme.bytes)

end Script

end SpendScript
