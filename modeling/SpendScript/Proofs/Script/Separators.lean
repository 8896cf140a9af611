import Mathlib.Data.List.DropRight
import SpendScript.Proofs.Script.Subscript

/-!
# Script code and code separators

A code separator moves the start of the script code when it is executed. `Script.consensusCode` is
the script code that is then current at a position of the script, while `Script.subscript` is chosen
once, before execution. Main statement: at a signature check the two agree exactly if no separator
stands between the first signature check and this one.
-/

namespace SpendScript

theorem Instruction.isCodeSeparator_iff {instruction : Instruction} :
    instruction.isCodeSeparator ↔ instruction = .op .codeSeparator := by
  cases instruction with
  | op opcode => cases opcode <;> decide
  | _ => simp [isCodeSeparator]

theorem Instruction.not_isCodeSeparator (instruction : Instruction) :
    (!instruction.isCodeSeparator) = decide (instruction ≠ .op .codeSeparator) := by
  rw [Bool.eq_iff_iff, Bool.not_eq_true', ← Bool.not_eq_true, isCodeSeparator_iff, decide_eq_true_iff]

namespace Script

variable {script before after : Script} {instruction : Instruction} {i : Nat}

/-- What follows the last code separator, or the whole script if there is none. -/
def afterLastSeparator (script : Script) : Script := script.rtakeWhile (· ≠ .op .codeSeparator)

theorem afterLastSeparator_eq_self :
    script.afterLastSeparator = script ↔ ∀ instruction ∈ script, ¬ instruction.isCodeSeparator := by
  rw [afterLastSeparator, List.rtakeWhile_eq_self_iff]
  simp [Instruction.isCodeSeparator_iff]

theorem withoutSeparators_eq_filter (script : Script) :
    script.withoutSeparators = script.filter (· ≠ .op .codeSeparator) :=
  List.filter_congr fun instruction _ => instruction.not_isCodeSeparator

theorem withoutSeparators_eq_self :
    script.withoutSeparators = script ↔ ∀ instruction ∈ script, ¬ instruction.isCodeSeparator := by
  rw [withoutSeparators, List.filter_eq_self]
  simp

theorem withoutSeparators_append (script other : Script) :
    withoutSeparators (script ++ other) = script.withoutSeparators ++ other.withoutSeparators :=
  List.filter_append ..

theorem not_isCodeSeparator_of_mem_afterLastSeparator
    (mem : instruction ∈ script.afterLastSeparator) : ¬ instruction.isCodeSeparator := by
  simpa [Instruction.isCodeSeparator_iff] using List.mem_rtakeWhile_imp mem

theorem withoutSeparators_afterLastSeparator (script : Script) :
    script.afterLastSeparator.withoutSeparators = script.afterLastSeparator :=
  withoutSeparators_eq_self.mpr fun _ => not_isCodeSeparator_of_mem_afterLastSeparator

theorem afterLastSeparator_concat (script : Script) (instruction : Instruction) :
    afterLastSeparator (script ++ [instruction]) =
      if instruction.isCodeSeparator then [] else script.afterLastSeparator ++ [instruction] := by
  rw [afterLastSeparator, List.rtakeWhile_concat, ← Instruction.not_isCodeSeparator]
  cases instruction.isCodeSeparator <;> rfl

theorem afterLastSeparator_append_separator (before after : Script)
    (separator : instruction.isCodeSeparator) :
    afterLastSeparator (before ++ instruction :: after) = after.afterLastSeparator := by
  induction after using List.reverseRecOn with
  | nil => rw [afterLastSeparator_concat, if_pos separator]; rfl
  | append_singleton rest last ih =>
    rw [← List.cons_append, ← List.append_assoc, afterLastSeparator_concat,
      afterLastSeparator_concat, ih]

/-- The part of the script that is current when the instruction at position `i` executes. -/
def currentPart (script : Script) (i : Nat) : Script :=
  afterLastSeparator (script.take i) ++ script.drop i

/-- The script code of a signature check at position `i` by the consensus rule. -/
def consensusCode (script : Script) (i : Nat) : Script :=
  (script.currentPart i).filter (· ≠ .op .codeSeparator)

theorem consensusCode_eq (script : Script) (i : Nat) :
    script.consensusCode i = (script.currentPart i).withoutSeparators :=
  (withoutSeparators_eq_filter _).symm

theorem currentPart_succ (h : i < script.length) :
    script.currentPart (i + 1) =
      if script[i].isCodeSeparator then script.drop (i + 1) else script.currentPart i := by
  rw [currentPart, List.take_add_one, List.getElem?_eq_getElem h, Option.toList_some,
    afterLastSeparator_concat]
  split
  · rfl
  · rw [currentPart, List.append_assoc, List.singleton_append, List.getElem_cons_drop]

def firstCheck (script : Script) : Nat := script.findIdx Instruction.isSignatureCheck

theorem afterSeparator_eq (script kept : Script)
    (free : ∀ instruction ∈ kept, ¬ instruction.isCodeSeparator) :
    afterSeparator (kept ++ script) script =
      afterLastSeparator (kept ++ script.take script.firstCheck) ++
        script.drop script.firstCheck := by
  -- The scan has passed `kept` since the last separator.
  induction script generalizing kept with
  | nil => simpa [afterSeparator, firstCheck] using (afterLastSeparator_eq_self.mpr free).symm
  | cons first rest ih =>
    rw [afterSeparator, firstCheck, List.findIdx_cons]
    cases check : first.isSignatureCheck with
    | true =>
      rw [not_isCodeSeparator_of_isSignatureCheck check]
      simpa using (afterLastSeparator_eq_self.mpr free).symm
    | false =>
      show _ = afterLastSeparator (kept ++ first :: rest.take (firstCheck rest)) ++
        rest.drop (firstCheck rest)
      split
      next separator =>
        rw [afterLastSeparator_append_separator kept _ separator]
        exact ih [] (List.forall_mem_nil _)
      next plain =>
        have longer : ∀ instruction ∈ kept ++ [first], ¬ instruction.isCodeSeparator := by
          intro instruction mem
          rcases List.mem_append.mp mem with old | new
          · exact free instruction old
          · rwa [List.mem_singleton.mp new]
        have step := ih (kept ++ [first]) longer
        simp only [List.append_assoc, List.singleton_append] at step
        exact step

theorem subscript_eq (script : Script) :
    script.subscript = script.consensusCode script.firstCheck := by
  rw [subscript, consensusCode_eq, currentPart]
  exact congrArg withoutSeparators (afterSeparator_eq script [] (List.forall_mem_nil _))

variable {j : Nat}

def SeparatorFree (script : Script) (first i : Nat) : Prop :=
  ∀ k, first ≤ k → k < i → script[k]? ≠ some (.op .codeSeparator)

theorem separatorFree_self (script : Script) (i : Nat) : script.SeparatorFree i i := by
  intro k above below
  omega

theorem separatorFree_succ (h : i < script.length) (before : j ≤ i) :
    script.SeparatorFree j (i + 1) ↔ script.SeparatorFree j i ∧ ¬ script[i].isCodeSeparator := by
  rw [Instruction.isCodeSeparator_iff]
  constructor
  · intro free
    have last := free i before (Nat.lt_succ_self i)
    rw [List.getElem?_eq_getElem h, ne_eq, Option.some.injEq] at last
    exact ⟨fun k above below => free k above (Nat.lt_succ_of_lt below), last⟩
  · rintro ⟨free, last⟩ k above below
    rcases Nat.lt_succ_iff_lt_or_eq.mp below with earlier | rfl
    · exact free k above earlier
    · rwa [List.getElem?_eq_getElem h, ne_eq, Option.some.injEq]

theorem currentPart_cases (before : j ≤ i) (bound : i ≤ script.length) :
    (script.SeparatorFree j i ∧ script.currentPart i = script.currentPart j) ∨
      (¬ script.SeparatorFree j i ∧ script.currentPart i <:+ script.drop (j + 1)) := by
  induction i, before using Nat.le_induction with
  | base => exact .inl ⟨separatorFree_self script j, rfl⟩
  | succ i before ih =>
    rw [separatorFree_succ bound before, currentPart_succ bound]
    cases script[i].isCodeSeparator with
    | true =>
      refine .inr ⟨fun free => free.2 rfl, ?_⟩
      rw [if_pos rfl]
      exact List.drop_suffix_drop_left script (Nat.succ_le_succ before)
    | false =>
      rw [if_neg nofun]
      rcases ih (Nat.le_of_succ_le bound) with ⟨free, same⟩ | ⟨broken, behind⟩
      · exact .inl ⟨⟨free, nofun⟩, same⟩
      · exact .inr ⟨fun free => broken free.1, behind⟩

theorem firstCheck_le (holds : script[i]? = some instruction) (check : instruction.isSignatureCheck) :
    script.firstCheck ≤ i := by
  obtain ⟨bound, rfl⟩ := List.getElem?_eq_some_iff.mp holds
  by_contra later
  have none := List.not_of_lt_findIdx (Nat.lt_of_not_le later)
  rw [check] at none
  cases none

theorem subscript_eq_append (h : script.firstCheck < script.length) :
    script[script.firstCheck].isSignatureCheck ∧
      script.subscript = afterLastSeparator (script.take script.firstCheck) ++
        script[script.firstCheck] :: withoutSeparators (script.drop (script.firstCheck + 1)) := by
  have check : script[script.firstCheck].isSignatureCheck := List.findIdx_getElem
  refine ⟨check, ?_⟩
  rw [subscript_eq, consensusCode_eq, currentPart, withoutSeparators_append,
    withoutSeparators_afterLastSeparator, ← List.getElem_cons_drop h]
  congr 1
  exact List.filter_cons_of_pos (by rw [not_isCodeSeparator_of_isSignatureCheck check]; rfl)

theorem consensusCode_cases (holds : script[i]? = some instruction)
    (check : instruction.isSignatureCheck) :
    (script.SeparatorFree script.firstCheck i ∧ script.consensusCode i = script.subscript) ∨
      (¬ script.SeparatorFree script.firstCheck i ∧ ∃ kept first later,
        first.isSignatureCheck ∧ script.subscript = kept ++ first :: later ∧
          (script.consensusCode i).Sublist later) := by
  have bound : i < script.length := (List.getElem?_eq_some_iff.mp holds).1
  have before : script.firstCheck ≤ i := firstCheck_le holds check
  rcases currentPart_cases before (Nat.le_of_lt bound) with ⟨free, same⟩ | ⟨broken, behind⟩
  · refine .inl ⟨free, ?_⟩
    rw [subscript_eq, consensusCode, consensusCode, same]
  · obtain ⟨first, split⟩ := subscript_eq_append (Nat.lt_of_le_of_lt before bound)
    rw [consensusCode_eq]
    exact .inr ⟨broken, _, _, _, first, split, behind.sublist.filter _⟩

/-- The script code that is chosen once is that of the consensus rule up to the next separator. -/
theorem subscript_eq_consensusCode_iff (holds : script[i]? = some instruction)
    (check : instruction.isSignatureCheck) :
    script.subscript = script.consensusCode i ↔ script.SeparatorFree script.firstCheck i := by
  rcases consensusCode_cases holds check with ⟨free, same⟩ | ⟨broken, kept, first, later, -, split, part⟩
  · exact iff_of_true same.symm free
  · refine iff_of_false (fun same => ?_) broken
    -- The first check is in the one and not in the other, which is too short for it.
    have shorter := part.length_le
    rw [← same, split, List.length_append, List.length_cons] at shorter
    omega

theorem subscript_append_of_check (checks : before.any Instruction.isSignatureCheck)
    (after : Script) :
    subscript (before ++ after) = before.subscript ++ after.withoutSeparators := by
  have within : before.firstCheck < before.length :=
    List.findIdx_lt_length.mpr (List.any_eq_true.mp checks)
  have same : firstCheck (before ++ after) = before.firstCheck := by
    rw [firstCheck, List.findIdx_append]
    exact if_pos within
  have le := Nat.le_of_lt within
  rw [subscript_eq, subscript_eq, same, consensusCode_eq, consensusCode_eq, currentPart, currentPart,
    List.take_append_of_le_length le, List.drop_append_of_le_length le, ← List.append_assoc,
    withoutSeparators_append]

end Script

end SpendScript
