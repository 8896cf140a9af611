import SpendScript.Proofs.Script.Separators

/-!
# Laws of the script code

Up to the first signature check only the last separator counts, and from there on no separator does.
So what stands before a separator and has no signature check in it never matters, the script code is
its own script code, and instructions that are neither separators nor signature checks can be taken
out before or after.
-/

namespace SpendScript.Script

variable {script before : Script} {keep : Instruction → Bool}

theorem take_firstCheck (script : Script) :
    script.take script.firstCheck = script.takeWhile (! ·.isSignatureCheck) := by
  simp [List.takeWhile_eq_take_findIdx_not, firstCheck]

theorem drop_firstCheck (script : Script) :
    script.drop script.firstCheck = script.dropWhile (! ·.isSignatureCheck) := by
  simp [List.dropWhile_eq_drop_findIdx_not, firstCheck]

theorem afterSeparator_append_separator
    (unchecked : ∀ instruction ∈ before, ¬ instruction.isSignatureCheck) (start after : Script) :
    afterSeparator start (before ++ .op .codeSeparator :: after) = afterSeparator after after := by
  induction before generalizing start with
  | nil => rfl
  | cons first rest ih =>
    obtain ⟨plain, others⟩ := List.forall_mem_cons.mp unchecked
    rw [List.cons_append, afterSeparator, if_neg plain]
    split <;> exact ih others _

theorem subscript_eq_self (free : ∀ instruction ∈ script, ¬ instruction.isCodeSeparator) :
    script.subscript = script := by
  have part : ∀ instruction ∈ script.take script.firstCheck, ¬ instruction.isCodeSeparator :=
    fun instruction mem => free instruction (List.mem_of_mem_take mem)
  rw [subscript_eq, consensusCode_eq, currentPart, afterLastSeparator_eq_self.mpr part,
    List.take_append_drop, withoutSeparators_eq_self.mpr free]

theorem not_isCodeSeparator_of_mem_subscript {instruction : Instruction}
    (mem : instruction ∈ script.subscript) : ¬ instruction.isCodeSeparator := by
  simpa using (List.mem_filter.mp mem).2

/-- The script code is what follows the last separator before the first signature check, and from
that check on all that is no separator. A separator that no signature check precedes cuts off what
stands before it, and there is nothing left to cut from the script code. -/
theorem subscript_eq_around_firstCheck (script : Script) :
    script.subscript =
        afterLastSeparator (script.takeWhile (! ·.isSignatureCheck)) ++
          (script.dropWhile (! ·.isSignatureCheck)).filter (· ≠ .op .codeSeparator) ∧
      (∀ before after : Script, (∀ instruction ∈ before, ¬ instruction.isSignatureCheck) →
        subscript (before ++ [.op .codeSeparator] ++ after) = after.subscript) ∧
      script.subscript.subscript = script.subscript := by
  refine ⟨?_, ?_, ?_⟩
  · rw [subscript_eq, consensusCode_eq, currentPart, withoutSeparators_append,
      withoutSeparators_afterLastSeparator, take_firstCheck, drop_firstCheck,
      withoutSeparators_eq_filter]
  · intro before after unchecked
    rw [List.append_assoc, List.singleton_append, subscript,
      afterSeparator_append_separator unchecked, subscript]
  · exact subscript_eq_self fun _ => not_isCodeSeparator_of_mem_subscript

example : subscript [.op .dup, .op .codeSeparator, .op .checkSig, .op .codeSeparator] =
    [.op .checkSig] := by
  decide

theorem afterSeparator_filter
    (separators : ∀ instruction : Instruction, instruction.isCodeSeparator → keep instruction)
    (checks : ∀ instruction : Instruction, instruction.isSignatureCheck → keep instruction)
    (start script : Script) :
    afterSeparator (start.filter keep) (script.filter keep) =
      (afterSeparator start script).filter keep := by
  induction script generalizing start with
  | nil => rfl
  | cons first rest ih =>
    cases kept : keep first with
    | true =>
      rw [List.filter_cons_of_pos kept, afterSeparator, afterSeparator]
      split
      · exact ih rest
      · split
        · rfl
        · exact ih start
    | false =>
      have plain : ¬ first.isCodeSeparator := by
        intro separator
        simp [separators first separator] at kept
      have unchecked : ¬ first.isSignatureCheck := by
        intro check
        simp [checks first check] at kept
      rw [List.filter_cons_of_neg (by simp [kept]), afterSeparator, if_neg plain, if_neg unchecked]
      exact ih start

theorem subscript_filter
    (separators : ∀ instruction : Instruction, instruction.isCodeSeparator → keep instruction)
    (checks : ∀ instruction : Instruction, instruction.isSignatureCheck → keep instruction)
    (script : Script) : subscript (script.filter keep) = script.subscript.filter keep := by
  rw [subscript, afterSeparator_filter separators checks, withoutSeparators, List.filter_comm]
  rfl

theorem subscript_withoutPush (data : Bytes) (script : Script) :
    (script.withoutPush data).subscript = script.subscript.withoutPush data := by
  refine subscript_filter ?_ ?_ script
  · intro instruction separator
    rw [Instruction.isCodeSeparator_iff.mp separator]
    rfl
  · intro instruction check
    rw [not_pushes_of_isSignatureCheck check]
    rfl

end SpendScript.Script
