import SpendScript.Hash.Blocks

/-!
# SHA-1
-/

namespace SpendScript.Hash.Sha1

structure State where
  a : UInt32
  b : UInt32
  c : UInt32
  d : UInt32
  e : UInt32

def initial : State where
  a := 0x67452301
  b := 0xefcdab89
  c := 0x98badcfe
  d := 0x10325476
  e := 0xc3d2e1f0

def nextWord (window : List UInt32) : UInt32 :=
  rotateLeft (window.getD 13 0 ^^^ window.getD 8 0 ^^^ window.getD 2 0 ^^^ window.getD 0 0) 1

/-- The function and the constant of each of the four groups of twenty rounds. -/
def mix (group : Nat) (b c d : UInt32) : UInt32 :=
  match group with
  | 0 => (b &&& c ||| ~~~b &&& d) + 0x5a827999
  | 1 => (b ^^^ c ^^^ d) + 0x6ed9eba1
  | 2 => (b &&& c ||| b &&& d ||| c &&& d) + 0x8f1bbcdc
  | _ => (b ^^^ c ^^^ d) + 0xca62c1d6

def round (s : State) (index : Nat) (word : UInt32) : State where
  a := rotateLeft s.a 5 + mix (index / 20) s.b s.c s.d + s.e + word
  b := s.a
  c := rotateLeft s.b 30
  d := s.c
  e := s.d

def rounds : State → Nat → List UInt32 → State
  | state, _, [] => state
  | state, index, word :: words => rounds (round state index word) (index + 1) words

def compress (s : State) (block : List UInt32) : State :=
  let t := rounds s 0 (schedule nextWord 80 block)
  { a := s.a + t.a, b := s.b + t.b, c := s.c + t.c, d := s.d + t.d, e := s.e + t.e }

def State.words (s : State) : List UInt32 := [s.a, s.b, s.c, s.d, s.e]

end Sha1

def sha1 (message : Bytes) : Bytes :=
  ByteOrder.highFirst.ofWords (absorbAll .highFirst Sha1.compress Sha1.initial message).words

end SpendScript.Hash
