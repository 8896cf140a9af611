import SpendScript.Hash.Blocks

/-!
# RIPEMD-160

Two lines of eighty rounds work on the same block, taking its words in different orders, and their
results are added crosswise.
-/

namespace SpendScript.Hash.Ripemd160

structure State where
  a : UInt32
  b : UInt32
  c : UInt32
  d : UInt32
  e : UInt32

def initial : State where
  a := 0x67452301
  b := 0xefcdab89
  c := 0x98badcfe
  d := 0x10325476
  e := 0xc3d2e1f0

/-- Sixteen rounds of one line: which function they mix with, their constant, and for each round the
word that it takes and how far it rotates. -/
structure Group where
  function : Nat
  constant : UInt32
  turns : List (Nat × UInt32)

def left : List Group :=
  [⟨0, 0x00000000, [(0, 11), (1, 14), (2, 15), (3, 12), (4, 5), (5, 8), (6, 7), (7, 9),
      (8, 11), (9, 13), (10, 14), (11, 15), (12, 6), (13, 7), (14, 9), (15, 8)]⟩,
   ⟨1, 0x5a827999, [(7, 7), (4, 6), (13, 8), (1, 13), (10, 11), (6, 9), (15, 7), (3, 15),
      (12, 7), (0, 12), (9, 15), (5, 9), (2, 11), (14, 7), (11, 13), (8, 12)]⟩,
   ⟨2, 0x6ed9eba1, [(3, 11), (10, 13), (14, 6), (4, 7), (9, 14), (15, 9), (8, 13), (1, 15),
      (2, 14), (7, 8), (0, 13), (6, 6), (13, 5), (11, 12), (5, 7), (12, 5)]⟩,
   ⟨3, 0x8f1bbcdc, [(1, 11), (9, 12), (11, 14), (10, 15), (0, 14), (8, 15), (12, 9), (4, 8),
      (13, 9), (3, 14), (7, 5), (15, 6), (14, 8), (5, 6), (6, 5), (2, 12)]⟩,
   ⟨4, 0xa953fd4e, [(4, 9), (0, 15), (5, 5), (9, 11), (7, 6), (12, 8), (2, 13), (10, 12),
      (14, 5), (1, 12), (3, 13), (8, 14), (11, 11), (6, 8), (15, 5), (13, 6)]⟩]

def right : List Group :=
  [⟨4, 0x50a28be6, [(5, 8), (14, 9), (7, 9), (0, 11), (9, 13), (2, 15), (11, 15), (4, 5),
      (13, 7), (6, 7), (15, 8), (8, 11), (1, 14), (10, 14), (3, 12), (12, 6)]⟩,
   ⟨3, 0x5c4dd124, [(6, 9), (11, 13), (3, 15), (7, 7), (0, 12), (13, 8), (5, 9), (10, 11),
      (14, 7), (15, 7), (8, 12), (12, 7), (4, 6), (9, 15), (1, 13), (2, 11)]⟩,
   ⟨2, 0x6d703ef3, [(15, 9), (5, 7), (1, 15), (3, 11), (7, 8), (14, 6), (6, 6), (9, 14),
      (11, 12), (8, 13), (12, 5), (2, 14), (10, 13), (0, 13), (4, 7), (13, 5)]⟩,
   ⟨1, 0x7a6d76e9, [(8, 15), (6, 5), (4, 8), (1, 11), (3, 14), (11, 14), (15, 6), (0, 14),
      (5, 6), (12, 9), (2, 12), (13, 9), (9, 12), (7, 5), (10, 15), (14, 8)]⟩,
   ⟨0, 0x00000000, [(12, 8), (15, 5), (10, 12), (4, 9), (1, 12), (5, 5), (8, 14), (7, 6),
      (6, 8), (2, 13), (13, 6), (14, 5), (0, 15), (3, 13), (9, 11), (11, 11)]⟩]

def mix (function : Nat) (x y z : UInt32) : UInt32 :=
  match function with
  | 0 => x ^^^ y ^^^ z
  | 1 => x &&& y ||| ~~~x &&& z
  | 2 => (x ||| ~~~y) ^^^ z
  | 3 => x &&& z ||| y &&& ~~~z
  | _ => x ^^^ (y ||| ~~~z)

def Group.round (group : Group) (block : List UInt32) (s : State) (word : Nat) (count : UInt32) :
    State where
  a := s.e
  b := rotateLeft
    (s.a + mix group.function s.b s.c s.d + block.getD word 0 + group.constant) count + s.e
  c := s.b
  d := rotateLeft s.c 10
  e := s.d

def Group.run (block : List UInt32) (state : State) (group : Group) : State :=
  group.turns.foldl (fun state (word, count) => group.round block state word count) state

def compress (s : State) (block : List UInt32) : State :=
  let l := left.foldl (Group.run block) s
  let r := right.foldl (Group.run block) s
  { a := s.b + l.c + r.d, b := s.c + l.d + r.e, c := s.d + l.e + r.a, d := s.e + l.a + r.b,
    e := s.a + l.b + r.c }

def State.words (s : State) : List UInt32 := [s.a, s.b, s.c, s.d, s.e]

end Ripemd160

def ripemd160 (message : Bytes) : Bytes :=
  ByteOrder.lowFirst.ofWords
    (absorbAll .lowFirst Ripemd160.compress Ripemd160.initial message).words

end SpendScript.Hash
