/-!
# The opcode registry

Each opcode has one byte and one name. A byte without an entry is no opcode, and scripts keep it
as it is.
-/

namespace SpendScript

inductive PushWidth
  | one
  | two
  | four
  deriving DecidableEq, Repr

def PushWidth.size : PushWidth → Nat
  | .one => 1
  | .two => 2
  | .four => 4

/-- The narrowest width that can hold a length; the widest one where none can. -/
def PushWidth.narrowest (length : Nat) : PushWidth :=
  if length ≤ 0xff then .one else if length ≤ 0xffff then .two else .four

inductive Opcode
  | pushData1
  | pushData2
  | pushData4
  | dup
  | equal
  | equalVerify
  | ripemd160
  | sha1
  | sha256
  | hash160
  | hash256
  | codeSeparator
  | checkSig
  | checkSigVerify
  | checkMultiSig
  | checkMultiSigVerify
  deriving DecidableEq, Repr

namespace Opcode

def all : List Opcode :=
  [.pushData1, .pushData2, .pushData4, .dup, .equal, .equalVerify, .ripemd160, .sha1, .sha256,
    .hash160, .hash256, .codeSeparator, .checkSig, .checkSigVerify, .checkMultiSig,
    .checkMultiSigVerify]

def byte : Opcode → UInt8
  | .pushData1 => 0x4c
  | .pushData2 => 0x4d
  | .pushData4 => 0x4e
  | .dup => 0x76
  | .equal => 0x87
  | .equalVerify => 0x88
  | .ripemd160 => 0xa6
  | .sha1 => 0xa7
  | .sha256 => 0xa8
  | .hash160 => 0xa9
  | .hash256 => 0xaa
  | .codeSeparator => 0xab
  | .checkSig => 0xac
  | .checkSigVerify => 0xad
  | .checkMultiSig => 0xae
  | .checkMultiSigVerify => 0xaf

def name : Opcode → String
  | .pushData1 => "pushdata1"
  | .pushData2 => "pushdata2"
  | .pushData4 => "pushdata4"
  | .dup => "dup"
  | .equal => "eq"
  | .equalVerify => "eqverify"
  | .ripemd160 => "ripemd160"
  | .sha1 => "sha1"
  | .sha256 => "sha256"
  | .hash160 => "hash160"
  | .hash256 => "hash256"
  | .codeSeparator => "codesep"
  | .checkSig => "checksig"
  | .checkSigVerify => "checksigverify"
  | .checkMultiSig => "checkmultisig"
  | .checkMultiSigVerify => "checkmultisigverify"

def ofByte? (byte : UInt8) : Option Opcode := all.find? (·.byte == byte)

def ofName? (name : String) : Option Opcode := all.find? (·.name == name)

def pushWidth? : Opcode → Option PushWidth
  | .pushData1 => some .one
  | .pushData2 => some .two
  | .pushData4 => some .four
  | _ => none

/-- The opcodes at which the scan for code separators ends. -/
def isSignatureCheck : Opcode → Bool
  | .checkSig | .checkSigVerify | .checkMultiSig | .checkMultiSigVerify => true
  | _ => false

theorem ofByte?_byte (opcode : Opcode) : ofByte? opcode.byte = some opcode := by
  cases opcode <;> rfl

theorem ofName?_name (opcode : Opcode) : ofName? opcode.name = some opcode := by
  cases opcode <;> rfl

theorem byte_eq_of_ofByte? {byte : UInt8} {opcode : Opcode} (found : ofByte? byte = some opcode) :
    opcode.byte = byte := by
  simpa using List.find?_some found

theorem ofByte?_eq_some {byte : UInt8} {opcode : Opcode} :
    ofByte? byte = some opcode ↔ opcode.byte = byte :=
  ⟨byte_eq_of_ofByte?, fun h => h ▸ ofByte?_byte opcode⟩

theorem ofByte?_eq_none {byte : UInt8} :
    ofByte? byte = none ↔ ∀ opcode : Opcode, opcode.byte ≠ byte := by
  simp only [Option.eq_none_iff_forall_ne_some, ne_eq, ofByte?_eq_some]

end Opcode

def PushWidth.opcode : PushWidth → Opcode
  | .one => .pushData1
  | .two => .pushData2
  | .four => .pushData4

theorem Opcode.pushWidth?_eq_some {opcode : Opcode} {width : PushWidth} :
    opcode.pushWidth? = some width ↔ opcode = width.opcode := by
  cases opcode <;> cases width <;> decide

end SpendScript
