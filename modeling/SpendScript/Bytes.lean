/-!
# Byte strings

Byte strings are lists of bytes. Numbers are written in a fixed number of bytes and read back, in
either order; `leBytes_ofLeBytes` says that every byte string is the writing of the number it reads
as. `splitBytes?` is how all readers take a known number of bytes off their input.
-/

namespace SpendScript

abbrev Bytes := List UInt8

/-- The `width` low bytes of `n`, least significant first. -/
def leBytes : Nat → Nat → Bytes
  | 0, _ => []
  | width + 1, n => UInt8.ofNat n :: leBytes width (n / 256)

def ofLeBytes : Bytes → Nat
  | [] => 0
  | byte :: rest => byte.toNat + 256 * ofLeBytes rest

def beBytes (width n : Nat) : Bytes := (leBytes width n).reverse

def ofBeBytes (bytes : Bytes) : Nat := bytes.foldl (fun n byte => 256 * n + byte.toNat) 0

/-- The first `count` bytes and what follows them, if there are that many. -/
def splitBytes? (count : Nat) (bytes : Bytes) : Option (Bytes × Bytes) :=
  let taken := bytes.take count
  if taken.length = count then some (taken, bytes.drop count) else none

@[simp] theorem leBytes_length (width n : Nat) : (leBytes width n).length = width := by
  induction width generalizing n with
  | zero => rfl
  | succ width ih => simp [leBytes, ih]

theorem leBytes_ofLeBytes (bytes : Bytes) : leBytes bytes.length (ofLeBytes bytes) = bytes := by
  induction bytes with
  | nil => rfl
  | cons byte rest ih =>
    have low : UInt8.ofNat (byte.toNat + 256 * ofLeBytes rest) = byte := by
      apply UInt8.toNat_inj.mp
      have := byte.toNat_lt
      rw [UInt8.toNat_ofNat']
      omega
    have high : (byte.toNat + 256 * ofLeBytes rest) / 256 = ofLeBytes rest := by
      have := byte.toNat_lt
      omega
    simp only [List.length_cons, leBytes, ofLeBytes, low, high, ih]

theorem splitBytes?_eq_some {count : Nat} {bytes taken rest : Bytes} :
    splitBytes? count bytes = some (taken, rest) ↔
      bytes = taken ++ rest ∧ taken.length = count := by
  constructor
  · intro split
    obtain ⟨enough, rfl, rfl⟩ : (bytes.take count).length = count ∧
        bytes.take count = taken ∧ bytes.drop count = rest := by
      simpa only [splitBytes?, Option.ite_none_right_eq_some, Option.some.injEq,
        Prod.mk.injEq] using split
    exact ⟨(List.take_append_drop count bytes).symm, enough⟩
  · rintro ⟨rfl, rfl⟩
    simp [splitBytes?]

theorem splitBytes?_eq_none {count : Nat} {bytes : Bytes} :
    splitBytes? count bytes = none ↔ bytes.length < count := by
  simp only [splitBytes?, List.length_take]
  split <;> simp <;> omega

end SpendScript
