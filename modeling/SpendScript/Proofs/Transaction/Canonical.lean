import Mathlib.Control.Monad.Basic
import SpendScript.Proofs.Transaction.Reading

/-!
# The wire format of transactions

`Transaction.Fits` says what a transaction must keep to so that it can be written. Main statements:
`Transaction.read` succeeds exactly on an input that starts with the bytes of such a transaction, and
`Transaction.parse` exactly on the bytes of one, so that the wire form is canonical.
-/

namespace SpendScript

open Reader

def TxInput.bare (input : TxInput) : TxInput := { input with witness := [] }

@[simp] theorem TxInput.bytes_bare (input : TxInput) : input.bare.bytes = input.bytes := rfl

def WitnessFits (witness : List Bytes) : Prop :=
  witness.length ≤ maxWitnessSize ∧ (witness.flatMap sizedBytes).length ≤ maxWitnessSize

namespace Transaction

/-- Counts and lengths are compact sizes, and no witness is too large. -/
structure Fits (tx : Transaction) : Prop where
  inputs : tx.inputs.length < 2 ^ 64
  outputs : tx.outputs.length < 2 ^ 64
  scriptSigs : ∀ input ∈ tx.inputs, input.scriptSig.length < 2 ^ 64
  witnesses : ∀ input ∈ tx.inputs, WitnessFits input.witness
  scripts : ∀ output ∈ tx.outputs, output.script.length < 2 ^ 64

-- ----------------------------------------------------------------------------
-- Parts of a transaction
-- ----------------------------------------------------------------------------

theorem readTxId_inverts : readTxId.Inverts TxId.bytes fun _ => True := by
  refine ⟨fun {input txId rest} => ?_⟩
  simp only [readTxId, true_and]
  split
  next bytes after split =>
    obtain ⟨rfl, length⟩ := splitBytes?_eq_some.mp split
    simp only [Option.some.injEq, Prod.mk.injEq]
    constructor
    · rintro ⟨rfl, rfl⟩
      rfl
    · intro same
      obtain ⟨rfl, rfl⟩ := List.append_inj same (length.trans txId.length_eq.symm)
      exact ⟨rfl, rfl⟩
  next short =>
    simp only [reduceCtorEq, false_iff]
    rintro rfl
    rw [splitBytes?_eq_some.mpr ⟨rfl, txId.length_eq⟩] at short
    cases short

theorem readInput_inverts :
    readInput.Inverts TxInput.bytes fun input =>
      input.scriptSig.length < 2 ^ 64 ∧ input.witness = [] := by
  refine ⟨fun {input value rest} => ?_⟩
  simp only [readInput, bind_eq_some, pure_eq_some, readTxId_inverts.eq_some,
    uint32_inverts.eq_some, sizedBytes_inverts.eq_some, TxInput.bytes, OutPoint.bytes,
    List.append_assoc, true_and]
  constructor
  · rintro ⟨_, _, rfl, _, _, rfl, _, _, ⟨fits, rfl⟩, _, _, rfl, rfl, rfl⟩
    exact ⟨⟨fits, rfl⟩, rfl⟩
  · rintro ⟨⟨fits, bare⟩, rfl⟩
    obtain ⟨⟨txId, index⟩, scriptSig, sequence, witness⟩ := value
    obtain rfl : witness = [] := bare
    exact ⟨_, _, rfl, _, _, rfl, _, _, ⟨fits, rfl⟩, _, _, rfl, rfl, rfl⟩

theorem readOutput_inverts :
    readOutput.Inverts TxOutput.bytes fun output => output.script.length < 2 ^ 64 := by
  refine ⟨fun {input value rest} => ?_⟩
  simp only [readOutput, bind_eq_some, pure_eq_some, uint64_inverts.eq_some,
    sizedBytes_inverts.eq_some, TxOutput.bytes, List.append_assoc, true_and]
  constructor
  · rintro ⟨_, _, rfl, _, _, ⟨fits, rfl⟩, rfl, rfl⟩
    exact ⟨fits, rfl⟩
  · rintro ⟨fits, rfl⟩
    exact ⟨_, _, rfl, _, _, ⟨fits, rfl⟩, rfl, rfl⟩

theorem length_lt_of_witnessFits {witness : List Bytes} (h : WitnessFits witness) :
    ∀ element ∈ witness, element.length < 2 ^ 64 := by
  intro element he
  obtain ⟨before, after, rfl⟩ := List.append_of_mem he
  have total := h.2
  simp only [List.flatMap_append, List.flatMap_cons, sizedBytes, List.length_append,
    maxWitnessSize] at total
  omega

theorem readWitness_inverts : readWitness.Inverts (countedBytes sizedBytes) WitnessFits := by
  refine ⟨fun {input witness rest} => ?_⟩
  simp only [readWitness, bind_eq_some, compactSize_inverts.eq_some, refuse_eq_some,
    repeated_eq_some sizedBytes_inverts, pure_eq_some, countedBytes, List.append_assoc, Nat.not_lt]
  constructor
  · rintro ⟨_, _, ⟨-, rfl⟩, few, _, _, ⟨rfl, -, rfl⟩, small, rfl, rfl⟩
    exact ⟨⟨few, small⟩, rfl⟩
  · rintro ⟨fits, rfl⟩
    have count : witness.length < 2 ^ 64 := Nat.lt_of_le_of_lt fits.1 (by decide)
    exact ⟨_, _, ⟨count, rfl⟩, fits.1, _, _, ⟨rfl, length_lt_of_witnessFits fits, rfl⟩, fits.2,
      rfl, rfl⟩

-- ----------------------------------------------------------------------------
-- The two forms
-- ----------------------------------------------------------------------------

def readPlain (version : Int32) (count : Nat) : Reader Transaction := do
  let inputs ← Reader.repeated readInput count
  let outputs ← Reader.counted readOutput
  let lockTime ← Reader.uint32
  return { version, inputs, outputs, lockTime }

theorem readPlain_eq_some {version : Int32} {count : Nat} {input rest : Bytes} {tx : Transaction}
    (few : count < 2 ^ 64) :
    readPlain version count input = some (tx, rest) ↔
      tx.Fits ∧ tx.version = version ∧ tx.inputs.length = count ∧
        (∀ input ∈ tx.inputs, input.witness = []) ∧
        input = tx.inputs.flatMap TxInput.bytes ++ countedBytes TxOutput.bytes tx.outputs ++
          leBytes 4 tx.lockTime.toNat ++ rest := by
  simp only [readPlain, bind_eq_some, pure_eq_some, repeated_eq_some readInput_inverts,
    (counted_inverts readOutput_inverts).eq_some, uint32_inverts.eq_some, true_and,
    List.append_assoc]
  constructor
  · rintro ⟨inputs, _, ⟨rfl, fit, rfl⟩, outputs, _, ⟨⟨fewOutputs, scripts⟩, rfl⟩, _, _, rfl, rfl,
      rfl⟩
    have bare := fun input hi => (fit input hi).2
    refine ⟨⟨few, fewOutputs, fun input hi => (fit input hi).1, fun input hi => ?_, scripts⟩, rfl,
      rfl, bare, rfl⟩
    rw [bare input hi]
    exact ⟨by decide, by decide⟩
  · rintro ⟨fits, rfl, rfl, bare, rfl⟩
    exact ⟨_, _, ⟨rfl, fun input hi => ⟨fits.scriptSigs input hi, bare input hi⟩, rfl⟩, _, _,
      ⟨⟨fits.outputs, fits.scripts⟩, rfl⟩, _, _, rfl, rfl, rfl⟩

theorem zipWith_bare (inputs : List TxInput) :
    (inputs.map TxInput.bare).zipWith (fun input witness => { input with witness })
      (inputs.map TxInput.witness) = inputs := by
  induction inputs with
  | nil => rfl
  | cons input rest ih => rw [List.map_cons, List.map_cons, List.zipWith_cons_cons, ih]; rfl

theorem map_bare_zipWith {inputs : List TxInput} {witnesses : List (List Bytes)}
    (bare : ∀ input ∈ inputs, input.witness = []) (same : witnesses.length = inputs.length) :
    ∃ joined, inputs.zipWith (fun input witness => { input with witness }) witnesses = joined ∧
      inputs = joined.map TxInput.bare ∧ witnesses = joined.map TxInput.witness := by
  induction inputs generalizing witnesses with
  | nil => simp_all
  | cons input rest ih =>
    cases witnesses with
    | nil => cases same
    | cons witness more =>
      obtain ⟨first, others⟩ := List.forall_mem_cons.mp bare
      obtain ⟨_, rfl, hi, hw⟩ := ih others (by simpa using same)
      obtain ⟨spent, scriptSig, sequence, _⟩ := input
      obtain rfl := first
      refine ⟨_, rfl, ?_, ?_⟩
      · rw [List.zipWith_cons_cons, List.map_cons, ← hi]; rfl
      · rw [List.zipWith_cons_cons, List.map_cons, ← hw]

theorem countedBytes_bare (inputs : List TxInput) :
    countedBytes TxInput.bytes (inputs.map TxInput.bare) = countedBytes TxInput.bytes inputs := by
  simp only [countedBytes, List.length_map, List.flatMap_map, TxInput.bytes_bare]

theorem flatMap_witness (inputs : List TxInput) :
    (inputs.map TxInput.witness).flatMap (countedBytes sizedBytes) =
      inputs.flatMap TxInput.witnessBytes :=
  List.flatMap_map ..

theorem readExtended_eq_some {version : Int32} {input rest : Bytes} {tx : Transaction} :
    readExtended version input = some (tx, rest) ↔
      tx.Fits ∧ tx.isExtended ∧ tx.version = version ∧
        input = countedBytes TxInput.bytes tx.inputs ++ countedBytes TxOutput.bytes tx.outputs ++
          tx.inputs.flatMap TxInput.witnessBytes ++ leBytes 4 tx.lockTime.toNat ++ rest := by
  simp only [readExtended, bind_eq_some, pure_eq_some, accept_eq_some,
    (counted_inverts readInput_inverts).eq_some, (counted_inverts readOutput_inverts).eq_some,
    repeated_eq_some readWitness_inverts, uint32_inverts.eq_some, true_and, List.append_assoc]
  constructor
  · rintro ⟨inputs, _, ⟨⟨few, fit⟩, rfl⟩, outputs, _, ⟨⟨fewOutputs, scripts⟩, rfl⟩, witnesses, _,
      ⟨same, sizes, rfl⟩, extended, lockTime, _, rfl, rfl, rfl⟩
    obtain ⟨joined, eq, rfl, rfl⟩ := map_bare_zipWith (fun input hi => (fit input hi).2) same
    simp only [List.length_map, List.forall_mem_map] at few fit sizes
    rw [eq] at extended ⊢
    refine ⟨⟨few, fewOutputs, fun input hi => (fit input hi).1, sizes, scripts⟩, extended, rfl, ?_⟩
    rw [countedBytes_bare, flatMap_witness]
  · rintro ⟨fits, extended, rfl, rfl⟩
    rw [← countedBytes_bare, ← flatMap_witness]
    have bare : ∀ input ∈ tx.inputs.map TxInput.bare,
        input.scriptSig.length < 2 ^ 64 ∧ input.witness = [] := by
      simpa only [List.forall_mem_map] using fun input hi => ⟨fits.scriptSigs input hi, rfl⟩
    have sizes : ∀ witness ∈ tx.inputs.map TxInput.witness, WitnessFits witness := by
      simpa only [List.forall_mem_map] using fits.witnesses
    refine ⟨_, _, ⟨⟨by simpa using fits.inputs, bare⟩, rfl⟩, _, _,
      ⟨⟨fits.outputs, fits.scripts⟩, rfl⟩, _, _, ⟨by simp, sizes, rfl⟩, ?_, _, _, rfl, ?_, rfl⟩
    · rw [zipWith_bare]
      exact extended
    · rw [zipWith_bare]

-- ----------------------------------------------------------------------------
-- Transactions
-- ----------------------------------------------------------------------------

variable {input rest : Bytes} {tx : Transaction}

theorem isExtended_eq_false : tx.isExtended = false ↔
    tx.inputs ≠ [] ∧ ∀ input ∈ tx.inputs, input.witness = [] := by
  simp [isExtended]

/-- A count of zero and a flag of one mark the extended form. -/
def readForm (version : Int32) (count : Nat) : Reader Transaction :=
  if count = 0 then do
    let flag ← Reader.byte
    if flag = 1 then readExtended version else failure
  else readPlain version count

theorem readForm_zero {version : Int32} :
    readForm version 0 input = some (tx, rest) ↔
      ∃ body, input = 1 :: body ∧ readExtended version body = some (tx, rest) := by
  simp only [readForm, if_true, bind_eq_some, byte_inverts.eq_some, accept_eq_some, true_and]
  constructor
  · rintro ⟨_, body, rfl, rfl, h⟩
    exact ⟨body, rfl, h⟩
  · rintro ⟨body, rfl, h⟩
    exact ⟨1, body, rfl, rfl, h⟩

theorem readForm_of_ne_zero {version : Int32} {count : Nat} (h : count ≠ 0) :
    readForm version count = readPlain version count := if_neg h

theorem read_eq : read = (do
    let version ← Reader.uint32
    let count ← Reader.compactSize
    readForm version.toInt32 count) := rfl

theorem read_sound (h : read input = some (tx, rest)) : tx.Fits ∧ input = tx.bytes ++ rest := by
  simp only [read_eq, bind_eq_some, uint32_inverts.eq_some, compactSize_inverts.eq_some,
    true_and] at h
  obtain ⟨version, _, rfl, count, _, ⟨few, rfl⟩, h⟩ := h
  by_cases zero : count = 0
  · subst zero
    obtain ⟨_, rfl, h⟩ := readForm_zero.mp h
    obtain ⟨fits, extended, hv, rfl⟩ := readExtended_eq_some.mp h
    refine ⟨fits, ?_⟩
    rw [bytes, if_pos extended, extendedBytes, hv, UInt32.toUInt32_toInt32]
    simp [SpendScript.compactSize]
  · rw [readForm_of_ne_zero zero] at h
    obtain ⟨fits, hv, rfl, bare, rfl⟩ := (readPlain_eq_some few).mp h
    have plain : tx.isExtended = false :=
      isExtended_eq_false.mpr ⟨List.ne_nil_of_length_pos (by omega), bare⟩
    refine ⟨fits, ?_⟩
    rw [bytes, plain, if_neg (by decide), plainBytes, hv, UInt32.toUInt32_toInt32]
    simp [countedBytes]

theorem read_complete (fits : tx.Fits) (rest : Bytes) : read (tx.bytes ++ rest) = some (tx, rest) := by
  simp only [read_eq, bind_eq_some, uint32_inverts.eq_some, compactSize_inverts.eq_some, true_and]
  cases extended : tx.isExtended with
  | true =>
    -- The mark of this form reads as a count of zero.
    refine ⟨tx.version.toUInt32, _, ?_, 0, _, ⟨by decide, rfl⟩, readForm_zero.mpr ⟨_, rfl,
      readExtended_eq_some.mpr ⟨fits, extended, rfl, rfl⟩⟩⟩
    rw [bytes, extended, if_pos rfl, extendedBytes]
    simp [SpendScript.compactSize]
  | false =>
    obtain ⟨nonempty, bare⟩ := isExtended_eq_false.mp extended
    have count : tx.inputs.length ≠ 0 := by simpa using nonempty
    have form := (@readPlain_eq_some tx.version _ _ rest tx fits.inputs).mpr
      ⟨fits, rfl, rfl, bare, rfl⟩
    rw [← readForm_of_ne_zero count] at form
    refine ⟨tx.version.toUInt32, _, ?_, _, _, ⟨fits.inputs, rfl⟩, form⟩
    rw [bytes, extended, if_neg (by decide), plainBytes, countedBytes]
    simp only [List.append_assoc]

theorem read_inverts : read.Inverts bytes Fits := by
  refine ⟨read_sound, ?_⟩
  rintro ⟨fits, rfl⟩
  exact read_complete fits _

theorem read_whole : read input = some (tx, []) ↔ tx.Fits ∧ tx.bytes = input := by
  rw [read_inverts.eq_some, List.append_nil, eq_comm (a := input)]

theorem parse_eq_ok : parse input = .ok tx ↔ tx.Fits ∧ tx.bytes = input := by
  rw [← read_whole]
  unfold parse
  constructor
  · intro parsed
    split at parsed
    next _ whole =>
      split at parsed
      next =>
        cases parsed
        exact whole
      next => cases parsed
    next => cases parsed
  · intro whole
    rw [whole]
    exact if_pos (congrArg List.length (read_whole.mp whole).2)

/-- Bytes that are read to their end are written as they were, and so in as many. -/
theorem parse_ne_sizeMismatch (input : Bytes) : parse input ≠ .error .sizeMismatch := by
  unfold parse
  split
  next tx whole =>
    rw [if_pos (congrArg List.length (read_whole.mp whole).2)]
    nofun
  next => nofun

theorem fits_of_parse (h : parse input = .ok tx) : tx.Fits := (parse_eq_ok.mp h).1

def bare (tx : Transaction) : Transaction := { tx with inputs := tx.inputs.map TxInput.bare }

theorem Fits.bare (h : tx.Fits) : tx.bare.Fits where
  inputs := by simpa [Transaction.bare] using h.inputs
  outputs := h.outputs
  scriptSigs := List.forall_mem_map.mpr h.scriptSigs
  witnesses := List.forall_mem_map.mpr fun _ _ => ⟨Nat.zero_le _, Nat.zero_le _⟩
  scripts := h.scripts

theorem plainBytes_bare (tx : Transaction) : tx.bare.plainBytes = tx.plainBytes := by
  rw [plainBytes, plainBytes, bare, countedBytes_bare]

theorem bytes_bare (nonempty : tx.inputs ≠ []) : tx.bare.bytes = tx.plainBytes := by
  have plain : tx.bare.isExtended = false :=
    isExtended_eq_false.mpr ⟨by simpa [bare] using nonempty, List.forall_mem_map.mpr fun _ _ => rfl⟩
  rw [bytes, plain, if_neg (by decide), plainBytes_bare]

theorem plainBytes_append_inj {other : Transaction} {rest' : Bytes} (h : tx.Fits) (ho : other.Fits)
    (nonempty : tx.inputs ≠ []) (nonempty' : other.inputs ≠ []) :
    tx.plainBytes ++ rest = other.plainBytes ++ rest' ↔ tx.bare = other.bare ∧ rest = rest' := by
  constructor
  · intro same
    have first := read_inverts.eq_some.mpr ⟨h.bare, congrArg (· ++ rest) (bytes_bare nonempty).symm⟩
    have second := read_inverts.eq_some.mpr ⟨ho.bare, congrArg (· ++ rest') (bytes_bare nonempty').symm⟩
    rw [same, second] at first
    simpa [eq_comm] using first
  · rintro ⟨same, rfl⟩
    rw [← bytes_bare nonempty, ← bytes_bare nonempty', same]

def ofInput (scriptSig : Bytes) (witness : List Bytes) : Transaction where
  version := 2
  inputs := [{
    spent := { txId := { bytes := List.replicate 32 0xaa, length_eq := rfl }, index := 1 }
    scriptSig, sequence := 0xfffffffe, witness }]
  outputs := []
  lockTime := 7

theorem parse_ofInput {scriptSig : Bytes} (small : scriptSig.length < 2 ^ 64) :
    parse (ofInput scriptSig []).bytes = .ok (ofInput scriptSig []) := by
  refine parse_eq_ok.mpr ⟨?_, rfl⟩
  exact {
    inputs := show 1 < 2 ^ 64 by decide
    outputs := show 0 < 2 ^ 64 by decide
    scriptSigs := List.forall_mem_singleton.mpr small
    witnesses := List.forall_mem_singleton.mpr ⟨Nat.zero_le _, Nat.zero_le _⟩
    scripts := nofun }

/-- Comparing lengths is enough to make parsing canonical. -/
theorem parse_canonical (input : Bytes) :
    (∀ tx, parse input = .ok tx ↔ tx.Fits ∧ tx.bytes = input) ∧
      parse input ≠ .error .sizeMismatch ∧
      ∀ tx other, parse input = .ok tx → parse other = .ok tx → input = other := by
  refine ⟨fun tx => parse_eq_ok, parse_ne_sizeMismatch input, ?_⟩
  intro tx other parsed parsed'
  exact (parse_eq_ok.mp parsed).2.symm.trans (parse_eq_ok.mp parsed').2

theorem parse_canonical_extended :
    parse (ofInput [0x51] [[0xbb], []]).bytes = .ok (ofInput [0x51] [[0xbb], []]) ∧
      ∀ raw, parse raw = .ok (ofInput [0x51] [[0xbb], []]) →
        raw = (ofInput [0x51] [[0xbb], []]).bytes := by
  have parsed : parse (ofInput [0x51] [[0xbb], []]).bytes = .ok (ofInput [0x51] [[0xbb], []]) := by
    decide +kernel
  exact ⟨parsed, fun raw parsed' => (parse_canonical raw).2.2 _ _ parsed' parsed⟩

end Transaction

end SpendScript
