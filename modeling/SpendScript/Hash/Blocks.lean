import SpendScript.Bytes

/-!
# Hashing block by block

The three hash functions here pad their input to whole blocks of 64 bytes with a one bit, zeros and
the input's length in bits, and fold a compression function over the blocks, each block read as
sixteen words of 32 bits. They differ in the order of bytes and in the compression function.
-/

namespace SpendScript.Hash

inductive ByteOrder
  | lowFirst
  | highFirst

namespace ByteOrder

def number : ByteOrder → Bytes → Nat
  | .lowFirst, bytes => ofLeBytes bytes
  | .highFirst, bytes => ofBeBytes bytes

def bytes : ByteOrder → Nat → Nat → Bytes
  | .lowFirst, width, n => leBytes width n
  | .highFirst, width, n => beBytes width n

def words (order : ByteOrder) : Bytes → List UInt32
  | a :: b :: c :: d :: rest => UInt32.ofNat (order.number [a, b, c, d]) :: order.words rest
  | _ => []

def ofWords (order : ByteOrder) (words : List UInt32) : Bytes :=
  words.flatMap fun word => order.bytes 4 word.toNat

end ByteOrder

def rotateLeft (word count : UInt32) : UInt32 := word <<< count ||| word >>> (32 - count)

def rotateRight (word count : UInt32) : UInt32 := word >>> count ||| word <<< (32 - count)

/-- The message with a one bit, zeros, and its length in bits, to whole blocks of 64 bytes. -/
def padded (order : ByteOrder) (message : Bytes) : Bytes :=
  message ++ 0x80 :: (List.replicate ((119 - message.length % 64) % 64) 0 ++
    order.bytes 8 (8 * message.length))

def absorb {σ : Type} (order : ByteOrder) (compress : σ → List UInt32 → σ) :
    Nat → σ → Bytes → σ
  | 0, state, _ => state
  | count + 1, state, bytes =>
    absorb order compress count (compress state (order.words (bytes.take 64))) (bytes.drop 64)

def absorbAll {σ : Type} (order : ByteOrder) (compress : σ → List UInt32 → σ) (initial : σ)
    (message : Bytes) : σ :=
  let blocks := padded order message
  absorb order compress (blocks.length / 64) initial blocks

/-- The first `count` words of the sequence that starts with a window of sixteen words and goes on
with the word that `next` gives for the sixteen before it. -/
def schedule (next : List UInt32 → UInt32) : Nat → List UInt32 → List UInt32
  | count + 1, first :: rest => first :: schedule next count (rest ++ [next (first :: rest)])
  | _, _ => []

end SpendScript.Hash
