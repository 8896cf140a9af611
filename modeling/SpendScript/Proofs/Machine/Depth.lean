import Mathlib.Algebra.Ring.Int.Defs
import SpendScript.Proofs.Machine.Progress

/-!
# How deep a script reaches into the stack

An instruction needs a number of items, and changes the height of the stack by a fixed amount when
it succeeds. It looks at no item below those that it needs. Main statement: where a script runs short
of items is told by its text and the height that it starts on.
-/

namespace SpendScript

variable {checker? : Option Checker} {stack : Stack} {instruction : Instruction}
  {error : ScriptError}

theorem Stack.exists_two (enough : 2 ≤ stack.length) :
    ∃ first second rest, stack = first :: second :: rest := by
  rcases stack with _ | ⟨first, _ | ⟨second, rest⟩⟩
  · cases enough
  · simp at enough
  · exact ⟨first, second, rest, rfl⟩

-- ----------------------------------------------------------------------------
-- Steps
-- ----------------------------------------------------------------------------

namespace Step

def onto (base : Stack) (step : Step) : Step := { step with stack := step.stack ++ base }

/-- A step on `stack` that found the items it needs: running short is not how it ends, and if it
succeeds it has changed the height by `change`. -/
structure Settles (change : Int) (stack : Stack) (step : Step) : Prop where
  deep : step.error? ≠ some .invalidStackOperation
  height : step.error? = none → (step.stack.length : Int) = stack.length + change

variable {change : Int} {publicKey item : Bytes} {rest base : Stack} {settle settle' : Bool → Step}

theorem Settles.done {left : Stack} (height : (left.length : Int) = stack.length + change) :
    Settles change stack (.done left) :=
  ⟨nofun, fun _ => height⟩

theorem Settles.fail {left : Stack} (other : error ≠ .invalidStackOperation) :
    Settles change stack (.fail error left) :=
  ⟨fun short => other (Option.some.inj short), nofun⟩

theorem Settles.ofSignatureCheck (settled : ∀ answer, Settles change stack (settle answer)) :
    Settles change stack (.ofSignatureCheck checker? publicKey item rest settle) := by
  unfold Step.ofSignatureCheck
  cases checker? with
  | none => exact .fail (by decide)
  | some checker =>
    cases untag? item with
    | none => exact .fail (by decide)
    | some signature => exact ⟨(settled _).deep, (settled _).height⟩

theorem ofSignatureCheck_onto (settled : ∀ answer, settle' answer = (settle answer).onto base) :
    ofSignatureCheck checker? publicKey item (rest ++ base) settle' =
      (ofSignatureCheck checker? publicKey item rest settle).onto base := by
  unfold ofSignatureCheck
  cases checker? with
  | none => rfl
  | some checker =>
    cases untag? item with
    | none => rfl
    | some signature =>
      simp only [settled]
      rfl

end Step

namespace Opcode

def need : Opcode → Nat
  | .dup | .ripemd160 | .sha1 | .sha256 | .hash160 | .hash256 => 1
  | .equal | .equalVerify | .checkSig | .checkSigVerify => 2
  | .codeSeparator | .pushData1 | .pushData2 | .pushData4 | .checkMultiSig | .checkMultiSigVerify =>
    0

/-- By how much the opcode changes the height of the stack, if it can succeed at all. -/
def change : Opcode → Int
  | .dup => 1
  | .equal | .checkSig => -1
  | .equalVerify | .checkSigVerify => -2
  | .ripemd160 | .sha1 | .sha256 | .hash160 | .hash256 | .codeSeparator => 0
  | .pushData1 | .pushData2 | .pushData4 | .checkMultiSig | .checkMultiSigVerify => 0

theorem step_of_short (opcode : Opcode) (short : stack.length < opcode.need) :
    opcode.step checker? stack = .fail .invalidStackOperation stack := by
  cases opcode with
  | pushData1 | pushData2 | pushData4 | checkMultiSig | checkMultiSigVerify | codeSeparator =>
    cases short
  | dup | ripemd160 | sha1 | sha256 | hash160 | hash256 =>
    obtain rfl := List.length_eq_zero_iff.mp (Nat.lt_one_iff.mp short)
    rfl
  | equal | equalVerify | checkSig | checkSigVerify =>
    rcases stack with _ | ⟨first, _ | ⟨second, rest⟩⟩
    · rfl
    · rfl
    · simp only [need, List.length_cons] at short
      omega

theorem settles (checker? : Option Checker) (opcode : Opcode)
    (enough : opcode.need ≤ stack.length) :
    Step.Settles opcode.change stack (opcode.step checker? stack) := by
  cases opcode with
  | pushData1 | pushData2 | pushData4 | checkMultiSig | checkMultiSigVerify =>
    exact .fail (by decide)
  | codeSeparator => exact .done (Int.add_zero _).symm
  | dup | ripemd160 | sha1 | sha256 | hash160 | hash256 =>
    obtain ⟨top, rest, rfl⟩ := List.exists_cons_of_length_pos enough
    exact .done (by simp only [change, List.length_cons]; omega)
  | equal =>
    obtain ⟨first, second, rest, rfl⟩ := Stack.exists_two enough
    exact .done (by simp only [change, List.length_cons]; omega)
  | equalVerify =>
    obtain ⟨first, second, rest, rfl⟩ := Stack.exists_two enough
    simp only [step]
    split
    · exact .done (by simp only [change, List.length_cons]; omega)
    · exact .fail (by decide)
  | checkSig =>
    obtain ⟨publicKey, item, rest, rfl⟩ := Stack.exists_two enough
    rw [step_checkSig]
    exact .ofSignatureCheck fun _ => .done (by simp only [change, List.length_cons]; omega)
  | checkSigVerify =>
    obtain ⟨publicKey, item, rest, rfl⟩ := Stack.exists_two enough
    rw [step_checkSigVerify]
    refine .ofSignatureCheck fun answer => ?_
    cases answer with
    | true => exact .done (by simp only [change, List.length_cons]; omega)
    | false => exact .fail (by decide)

theorem step_append (checker? : Option Checker) (opcode : Opcode)
    (enough : opcode.need ≤ stack.length) (base : Stack) :
    opcode.step checker? (stack ++ base) = (opcode.step checker? stack).onto base := by
  cases opcode with
  | pushData1 | pushData2 | pushData4 | checkMultiSig | checkMultiSigVerify | codeSeparator => rfl
  | dup | ripemd160 | sha1 | sha256 | hash160 | hash256 =>
    obtain ⟨top, rest, rfl⟩ := List.exists_cons_of_length_pos enough
    rfl
  | equal =>
    obtain ⟨first, second, rest, rfl⟩ := Stack.exists_two enough
    rfl
  | equalVerify =>
    obtain ⟨first, second, rest, rfl⟩ := Stack.exists_two enough
    simp only [List.cons_append, step]
    split <;> rfl
  | checkSig =>
    obtain ⟨publicKey, item, rest, rfl⟩ := Stack.exists_two enough
    rw [List.cons_append, List.cons_append, step_checkSig, step_checkSig]
    exact Step.ofSignatureCheck_onto fun _ => rfl
  | checkSigVerify =>
    obtain ⟨publicKey, item, rest, rfl⟩ := Stack.exists_two enough
    rw [List.cons_append, List.cons_append, step_checkSigVerify, step_checkSigVerify]
    refine Step.ofSignatureCheck_onto fun answer => ?_
    cases answer <;> rfl

end Opcode

namespace Instruction

def need : Instruction → Nat
  | .op opcode => opcode.need
  | .push _ | .unknown _ => 0

def change : Instruction → Int
  | .push _ => 1
  | .op opcode => opcode.change
  | .unknown _ => 0

theorem step_of_short (short : stack.length < instruction.need) :
    instruction.step checker? stack = .fail .invalidStackOperation stack := by
  cases instruction with
  | push data => cases short
  | op opcode => exact opcode.step_of_short short
  | unknown byte => cases short

theorem settles (checker? : Option Checker) (enough : instruction.need ≤ stack.length) :
    Step.Settles instruction.change stack (instruction.step checker? stack) := by
  cases instruction with
  | push data => exact .done (by simp only [change, List.length_cons]; omega)
  | op opcode => exact opcode.settles checker? enough
  | unknown byte => exact .fail (by decide)

theorem step_short_iff :
    (instruction.step checker? stack).error? = some .invalidStackOperation ↔
      stack.length < instruction.need := by
  constructor
  · intro failed
    by_contra enough
    exact (settles checker? (Nat.le_of_not_lt enough)).deep failed
  · intro short
    rw [step_of_short short]
    rfl

theorem step_append (deep : (instruction.step checker? stack).error? ≠ some .invalidStackOperation)
    (base : Stack) :
    instruction.step checker? (stack ++ base) = (instruction.step checker? stack).onto base := by
  cases instruction with
  | push data => rfl
  | op opcode =>
    have enough : opcode.need ≤ stack.length :=
      Nat.le_of_not_lt fun short => deep (step_short_iff.mpr short)
    exact opcode.step_append checker? enough base
  | unknown byte => rfl

end Instruction

-- ----------------------------------------------------------------------------
-- Scripts
-- ----------------------------------------------------------------------------

namespace Script

variable {script : Script} {machine : Machine} {i : Nat}

/-- The height at position `j` of a run that starts on `height` items, told from the text alone. No
run comes to a position where this is negative. -/
def heightAt (script : Script) (height j : Nat) : Int :=
  height + ((script.take j).map Instruction.change).sum

def ShortAt (script : Script) (height k : Nat) : Prop :=
  ∃ instruction, script[k]? = some instruction ∧ script.heightAt height k < instruction.need

def FirstShortAt (script : Script) (height k : Nat) : Prop :=
  script.ShortAt height k ∧ ∀ j < k, ¬ script.ShortAt height j

instance (script : Script) (height k : Nat) : Decidable (script.ShortAt height k) :=
  match holds : script[k]? with
  | none => .isFalse fun ⟨_, found, _⟩ => by cases holds.symm.trans found
  | some instruction =>
    decidable_of_iff (script.heightAt height k < instruction.need)
      ⟨fun short => ⟨instruction, holds, short⟩,
        fun ⟨_, found, short⟩ => Option.some.inj (holds.symm.trans found) ▸ short⟩

instance (script : Script) (height k : Nat) : Decidable (script.FirstShortAt height k) :=
  inferInstanceAs (Decidable (_ ∧ _))

theorem heightAt_succ (height : Nat) (holds : script[i]? = some instruction) :
    script.heightAt height (i + 1) = script.heightAt height i + instruction.change := by
  simp only [heightAt, List.take_add_one, holds, Option.toList_some, List.map_append,
    List.sum_append, List.map_singleton, List.sum_singleton, Int.add_assoc]

theorem Reaches.height (h : script.Reaches checker? stack i machine) :
    (machine.stack.length : Int) = script.heightAt stack.length i := by
  induction h with
  | start => simp [heightAt]
  | @next i machine instruction _ holds succeeds ih =>
    have enough : instruction.need ≤ machine.stack.length :=
      Nat.le_of_not_lt fun short => by
        cases succeeds.symm.trans (Instruction.step_short_iff.mpr short)
    rw [heightAt_succ _ holds, ← ih]
    exact (Instruction.settles checker? enough).height succeeds

theorem Reaches.shortAt_iff (h : script.Reaches checker? stack i machine)
    (holds : script[i]? = some instruction) : script.ShortAt stack.length i ↔
      (instruction.step checker? machine.stack).error? = some .invalidStackOperation := by
  rw [Instruction.step_short_iff, ← Int.ofNat_lt, h.height, ShortAt, holds]
  constructor
  · rintro ⟨_, ⟨rfl⟩, short⟩
    exact short
  · intro short
    exact ⟨instruction, rfl, short⟩

theorem Reaches.not_shortAt (h : script.Reaches checker? stack i machine) {j : Nat}
    (before : j < i) : ¬ script.ShortAt stack.length j := by
  obtain ⟨start, instruction, reached, holds, succeeds⟩ := h.earlier before
  rw [reached.shortAt_iff holds, succeeds]
  nofun

theorem stopsAt_short_iff :
    script.StopsAt checker? stack i machine instruction .invalidStackOperation ↔
      script.Reaches checker? stack i machine ∧ script[i]? = some instruction ∧
        script.FirstShortAt stack.length i := by
  constructor
  · intro ⟨reached, holds, fails⟩
    exact ⟨reached, holds, (reached.shortAt_iff holds).mpr fails, fun _ => reached.not_shortAt⟩
  · intro ⟨reached, holds, short, _⟩
    exact ⟨reached, holds, (reached.shortAt_iff holds).mp short⟩

/-- Running short is decided by the text and the height that a run starts on: it happens exactly at
the first position that is short, if the run comes there at all. -/
theorem run_short_iff_firstShortAt (script : Script) (checker? : Option Checker) (stack : Stack) :
    (∀ i machine, script.Reaches checker? stack i machine →
      (machine.stack.length : Int) = script.heightAt stack.length i) ∧
    ((script.run checker? stack).error? = some .invalidStackOperation ↔
      ∃ k machine, script.FirstShortAt stack.length k ∧ script.Reaches checker? stack k machine) ∧
    (∀ k instruction,
      (script.run checker? stack).halt? =
          some { index := k, instruction, error := .invalidStackOperation } ↔
        script[k]? = some instruction ∧ script.FirstShortAt stack.length k ∧
          ∃ machine, script.Reaches checker? stack k machine) ∧
    ((∀ k, ¬ script.FirstShortAt stack.length k) →
      (script.run checker? stack).error? ≠ some .invalidStackOperation) := by
  have runs_short : (script.run checker? stack).error? = some .invalidStackOperation ↔
      ∃ k machine, script.FirstShortAt stack.length k ∧
        script.Reaches checker? stack k machine := by
    simp only [error?_run_eq_some, stopsAt_short_iff]
    constructor
    · rintro ⟨k, machine, instruction, reached, -, short⟩
      exact ⟨k, machine, short, reached⟩
    · rintro ⟨k, machine, short, reached⟩
      obtain ⟨instruction, holds, -⟩ := short.1
      exact ⟨k, machine, instruction, reached, holds, short⟩
  refine ⟨fun i machine => Reaches.height, runs_short, fun k instruction => ?_,
    fun enough failed => ?_⟩
  · simp only [halt?_run_eq_some, stopsAt_short_iff]
    constructor
    · rintro ⟨machine, reached, holds, short⟩
      exact ⟨holds, short, machine, reached⟩
    · rintro ⟨holds, short, machine, reached⟩
      exact ⟨machine, reached, holds, short⟩
  · obtain ⟨k, _, short, _⟩ := runs_short.mp failed
    exact enough k short

example : FirstShortAt [.push [1], .op .dup, .op .equalVerify, .op .equal] 1 3 ∧
    (run none [.push [1], .op .dup, .op .equalVerify, .op .equal] [[7]]).halt? =
      some { index := 3, instruction := .op .equal, error := .invalidStackOperation } := by
  constructor <;> decide

end Script

end SpendScript
