import SpendScript.Proofs.Bytes
import SpendScript.Transaction.Wire

/-!
# Readers and writers

`Reader.Inverts` says that a reader accepts exactly what a writer writes, followed by anything. It
holds of every reader of this library and its writer, and is passed on from items to lists of them.
-/

namespace SpendScript

/-- The reader takes back exactly what is written of values that fit, and accepts nothing else. -/
structure Reader.Inverts {α : Type} (item : Reader α) (write : α → Bytes) (Fits : α → Prop) :
    Prop where
  eq_some {input : Bytes} {value : α} {rest : Bytes} :
    item input = some (value, rest) ↔ Fits value ∧ input = write value ++ rest

namespace Reader

variable {α β : Type} {input rest : Bytes}

theorem bind_eq_some {x : Reader α} {f : α → Reader β} {b : β} :
    (x >>= f) input = some (b, rest) ↔
      ∃ a after, x input = some (a, after) ∧ f a after = some (b, rest) := by
  show (x input).bind _ = _ ↔ _
  rw [Option.bind_eq_some_iff, Prod.exists]

theorem pure_eq_some {a b : α} :
    (pure a : Reader α) input = some (b, rest) ↔ a = b ∧ input = rest := by
  show some (a, input) = some (b, rest) ↔ _
  simp

theorem accept_eq_some {c : Prop} [Decidable c] {x : Reader α} {a : α} :
    (if c then x else failure) input = some (a, rest) ↔ c ∧ x input = some (a, rest) := by
  split
  next h => simp only [h, true_and]
  next h => exact ⟨fun read => (nomatch read), fun read => (h read.1).elim⟩

theorem refuse_eq_some {c : Prop} [Decidable c] {f : β → Reader α} {x : Reader α} {a : α} :
    (if c then failure >>= f else x) input = some (a, rest) ↔ ¬ c ∧ x input = some (a, rest) := by
  split
  next h => exact ⟨fun read => (nomatch read), fun read => (read.1 h).elim⟩
  next h => simp only [h, not_false_eq_true, true_and]

theorem Inverts.map {item : Reader α} {write : α → Bytes} {Fits : α → Prop} {FitsAs : β → Prop}
    {decode : α → β} {encode : β → α} (h : item.Inverts write Fits)
    (decode_encode : ∀ value, decode (encode value) = value)
    (encode_decode : ∀ value, Fits value → encode (decode value) = value)
    (fits : ∀ value, Fits (encode value) ↔ FitsAs value) :
    Inverts (do let value ← item; return decode value) (fun value => write (encode value))
      FitsAs := by
  refine ⟨fun {input value rest} => ?_⟩
  simp only [bind_eq_some, h.eq_some, pure_eq_some, ← fits]
  constructor
  · rintro ⟨read, _, ⟨hf, rfl⟩, rfl, rfl⟩
    rw [encode_decode read hf]
    exact ⟨hf, rfl⟩
  · rintro ⟨hf, rfl⟩
    exact ⟨_, _, ⟨hf, rfl⟩, decode_encode value, rfl⟩

theorem number_inverts (width : Nat) :
    (number width).Inverts (leBytes width) (· < 256 ^ width) := by
  refine ⟨fun {input n rest} => ?_⟩
  simp only [number, bytes, bind_eq_some, splitBytes?_eq_some, pure_eq_some]
  constructor
  · rintro ⟨digits, _, ⟨rfl, rfl⟩, rfl, rfl⟩
    exact ⟨ofLeBytes_lt digits, by rw [leBytes_ofLeBytes]⟩
  · rintro ⟨h, rfl⟩
    exact ⟨_, _, ⟨rfl, leBytes_length width n⟩, ofLeBytes_leBytes h, rfl⟩

theorem uint32_inverts : uint32.Inverts (fun n => leBytes 4 n.toNat) fun _ => True :=
  (number_inverts 4).map (fun _ => UInt32.ofNat_toNat) (fun _ h => UInt32.toNat_ofNat_of_lt' h)
    fun n => iff_true_intro n.toNat_lt

theorem uint64_inverts : uint64.Inverts (fun n => leBytes 8 n.toNat) fun _ => True :=
  (number_inverts 8).map (fun _ => UInt64.ofNat_toNat) (fun _ h => UInt64.toNat_ofNat_of_lt' h)
    fun n => iff_true_intro n.toNat_lt

theorem numberFrom_inverts (least width : Nat) :
    (numberFrom least width).Inverts (leBytes width) fun n => least ≤ n ∧ n < 256 ^ width := by
  refine ⟨fun {input n rest} => ?_⟩
  simp only [numberFrom, bind_eq_some, (number_inverts width).eq_some, accept_eq_some,
    pure_eq_some]
  constructor
  · rintro ⟨_, _, ⟨fits, rfl⟩, enough, rfl, rfl⟩
    exact ⟨⟨enough, fits⟩, rfl⟩
  · rintro ⟨⟨enough, fits⟩, rfl⟩
    exact ⟨_, _, ⟨fits, rfl⟩, enough, rfl, rfl⟩

theorem byte_inverts : byte.Inverts (fun b => [b]) fun _ => True := by
  refine ⟨fun {input b rest} => ?_⟩
  cases input <;> simp [byte]

theorem compactSize_small {head : UInt8} (h : head < 0xfd) :
    compactSize (head :: rest) = some (head.toNat, rest) := by
  show (if head < 0xfd then pure head.toNat else _ : Reader Nat) rest = _
  rw [if_pos h]
  rfl

theorem compactSize_fd : compactSize (0xfd :: rest) = numberFrom 0xfd 2 rest := rfl

theorem compactSize_fe : compactSize (0xfe :: rest) = numberFrom 0x10000 4 rest := rfl

theorem compactSize_ff : compactSize (0xff :: rest) = numberFrom 0x100000000 8 rest := rfl

theorem compactSize_head_cases (head : UInt8) :
    head < 0xfd ∨ head = 0xfd ∨ head = 0xfe ∨ head = 0xff := by
  simp only [UInt8.lt_iff_toNat_lt, ← UInt8.toNat_inj]
  have := head.toNat_lt
  simp only [UInt8.reduceToNat]
  omega

theorem compactSize_sound {n : Nat} (h : compactSize input = some (n, rest)) :
    n < 2 ^ 64 ∧ input = SpendScript.compactSize n ++ rest := by
  cases input with
  | nil => cases h
  | cons head tail =>
    unfold SpendScript.compactSize
    rcases compactSize_head_cases head with small | rfl | rfl | rfl
    · rw [compactSize_small small] at h
      obtain ⟨rfl, rfl⟩ : head.toNat = n ∧ tail = rest := by simpa using h
      have : head.toNat < 0xfd := small
      rw [if_pos this]
      exact ⟨by omega, by simp⟩
    · rw [compactSize_fd] at h
      obtain ⟨⟨least, most⟩, rfl⟩ := (numberFrom_inverts _ _).eq_some.mp h
      rw [if_neg (by omega), if_pos (by omega)]
      exact ⟨by omega, rfl⟩
    · rw [compactSize_fe] at h
      obtain ⟨⟨least, most⟩, rfl⟩ := (numberFrom_inverts _ _).eq_some.mp h
      rw [if_neg (by omega), if_neg (by omega), if_pos (by omega)]
      exact ⟨by omega, rfl⟩
    · rw [compactSize_ff] at h
      obtain ⟨⟨least, most⟩, rfl⟩ := (numberFrom_inverts _ _).eq_some.mp h
      rw [if_neg (by omega), if_neg (by omega), if_neg (by omega)]
      exact ⟨most, rfl⟩

theorem compactSize_complete {n : Nat} (fits : n < 2 ^ 64) (rest : Bytes) :
    compactSize (SpendScript.compactSize n ++ rest) = some (n, rest) := by
  unfold SpendScript.compactSize
  split
  next small =>
    have value : (UInt8.ofNat n).toNat = n := by
      rw [UInt8.toNat_ofNat']
      omega
    have head : UInt8.ofNat n < 0xfd := by
      show (UInt8.ofNat n).toNat < _
      rwa [value]
    rw [List.cons_append, compactSize_small head, value]
    rfl
  next =>
    split
    · rw [List.cons_append, compactSize_fd, (numberFrom_inverts _ _).eq_some]
      exact ⟨⟨by omega, by omega⟩, rfl⟩
    · split
      · rw [List.cons_append, compactSize_fe, (numberFrom_inverts _ _).eq_some]
        exact ⟨⟨by omega, by omega⟩, rfl⟩
      · rw [List.cons_append, compactSize_ff, (numberFrom_inverts _ _).eq_some]
        exact ⟨⟨by omega, fits⟩, rfl⟩

theorem compactSize_inverts : compactSize.Inverts SpendScript.compactSize (· < 2 ^ 64) := by
  refine ⟨compactSize_sound, ?_⟩
  rintro ⟨fits, rfl⟩
  exact compactSize_complete fits _

theorem sizedBytes_inverts : sizedBytes.Inverts SpendScript.sizedBytes (·.length < 2 ^ 64) := by
  refine ⟨fun {input value rest} => ?_⟩
  simp only [sizedBytes, bytes, SpendScript.sizedBytes, bind_eq_some, compactSize_inverts.eq_some,
    splitBytes?_eq_some, List.append_assoc]
  constructor
  · rintro ⟨_, _, ⟨fits, rfl⟩, rfl, rfl⟩
    exact ⟨fits, rfl⟩
  · rintro ⟨fits, rfl⟩
    exact ⟨_, _, ⟨fits, rfl⟩, rfl, rfl⟩

section
variable {item : Reader α} {write : α → Bytes} {Fits : α → Prop}

theorem repeatOnto_eq_some (h : item.Inverts write Fits) {count : Nat} {read items : List α} :
    repeatOnto item read count input = some (items, rest) ↔
      ∃ more, items = read.reverse ++ more ∧ more.length = count ∧ (∀ value ∈ more, Fits value) ∧
        input = more.flatMap write ++ rest := by
  induction count generalizing input read with
  | zero =>
    simp only [repeatOnto, Option.some.injEq, Prod.mk.injEq, List.length_eq_zero_iff]
    constructor
    · rintro ⟨rfl, rfl⟩
      exact ⟨[], by simp⟩
    · rintro ⟨_, rfl, rfl, -, rfl⟩
      simp
  | succ count ih =>
    simp only [repeatOnto]
    constructor
    · intro read_ok
      split at read_ok
      next => cases read_ok
      next value after step =>
        obtain ⟨fits, rfl⟩ := h.eq_some.mp step
        obtain ⟨more, rfl, rfl, all, rfl⟩ := ih.mp read_ok
        exact ⟨value :: more, by simp, rfl, List.forall_mem_cons.mpr ⟨fits, all⟩, by simp⟩
    · rintro ⟨more, rfl, length, all, rfl⟩
      cases more with
      | nil => cases length
      | cons value more =>
        obtain ⟨fits, all⟩ := List.forall_mem_cons.mp all
        rw [List.flatMap_cons, List.append_assoc, h.eq_some.mpr ⟨fits, rfl⟩]
        exact ih.mpr ⟨more, by simp, by simpa using length, all, rfl⟩

theorem repeated_eq_some (h : item.Inverts write Fits) {count : Nat} {items : List α} :
    repeated item count input = some (items, rest) ↔
      items.length = count ∧ (∀ value ∈ items, Fits value) ∧
        input = items.flatMap write ++ rest := by
  rw [repeated, repeatOnto_eq_some h]
  simp

theorem counted_inverts (h : item.Inverts write Fits) :
    (counted item).Inverts (countedBytes write)
      fun items => items.length < 2 ^ 64 ∧ ∀ value ∈ items, Fits value := by
  refine ⟨fun {input items rest} => ?_⟩
  simp only [counted, countedBytes, bind_eq_some, compactSize_inverts.eq_some, repeated_eq_some h,
    List.append_assoc]
  constructor
  · rintro ⟨_, _, ⟨count, rfl⟩, rfl, all, rfl⟩
    exact ⟨⟨count, all⟩, rfl⟩
  · rintro ⟨⟨count, all⟩, rfl⟩
    exact ⟨_, _, ⟨count, rfl⟩, rfl, all, rfl⟩

end

end Reader

end SpendScript
