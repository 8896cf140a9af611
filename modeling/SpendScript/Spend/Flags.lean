/-!
# Verification flags

Three optional rules, each with its bit in a word. A word with any other bit is no set of flags.
-/

namespace SpendScript

structure Flags where
  /-- Signatures must be in strict DER. -/
  strictDer : Bool := false
  /-- The input's script may only push. -/
  sigPushOnly : Bool := false
  /-- One item, and no other, must be left on the stack. -/
  cleanStack : Bool := false
  deriving DecidableEq, Repr

namespace Flags

def strictDerBit : UInt32 := 4

def sigPushOnlyBit : UInt32 := 32

def cleanStackBit : UInt32 := 256

def knownBits : UInt32 := strictDerBit ||| sigPushOnlyBit ||| cleanStackBit

/-- The flags whose bits are set in a word, unless others are set too. -/
def ofBits? (bits : UInt32) : Option Flags :=
  if bits &&& ~~~knownBits = 0 then
    some { strictDer := bits &&& strictDerBit != 0, sigPushOnly := bits &&& sigPushOnlyBit != 0,
           cleanStack := bits &&& cleanStackBit != 0 }
  else none

def bits (flags : Flags) : UInt32 :=
  (if flags.strictDer then strictDerBit else 0) |||
    (if flags.sigPushOnly then sigPushOnlyBit else 0) |||
    (if flags.cleanStack then cleanStackBit else 0)

theorem ofBits?_bits (flags : Flags) : ofBits? flags.bits = some flags := by
  obtain ⟨strictDer, sigPushOnly, cleanStack⟩ := flags
  cases strictDer <;> cases sigPushOnly <;> cases cleanStack <;> rfl

theorem ofBits?_eq_some {bits : UInt32} {flags : Flags} :
    ofBits? bits = some flags ↔ bits &&& ~~~knownBits = 0 ∧
      { strictDer := bits &&& strictDerBit != 0, sigPushOnly := bits &&& sigPushOnlyBit != 0,
        cleanStack := bits &&& cleanStackBit != 0 } = flags := by
  simp only [ofBits?, Option.ite_none_right_eq_some, Option.some.injEq]

theorem ofBits?_eq_none {bits : UInt32} : ofBits? bits = none ↔ bits &&& ~~~knownBits ≠ 0 := by
  simp only [ofBits?, ite_eq_right_iff, reduceCtorEq, imp_false, ne_eq]

def contains (flags : Flags) (mask : UInt32) : Bool := flags.bits &&& mask != 0

end Flags

end SpendScript
