import SpendScript.Proofs.Script.RoundTrip
import SpendScript.Script.ScriptCode

/-!
# What the script code keeps

The script code is part of the script, in order, and no signature check is ever left out of it. A
script that checks a signature therefore never has an empty script code.
-/

namespace SpendScript.Script

variable {script start : Script} {instruction : Instruction}

theorem afterSeparator_suffix (h : script <:+ start) : afterSeparator start script <:+ start := by
  induction script generalizing start with
  | nil => exact List.suffix_refl start
  | cons instruction rest ih =>
    have tail : rest <:+ start := (List.suffix_cons instruction rest).trans h
    rw [afterSeparator]
    split
    · exact (ih (List.suffix_refl rest)).trans tail
    · split
      · exact List.suffix_refl start
      · exact ih tail

theorem subscript_sublist (script : Script) : script.subscript.Sublist script :=
  List.filter_sublist.trans (afterSeparator_suffix (List.suffix_refl script)).sublist

theorem withoutPush_sublist (data : Bytes) (script : Script) :
    (script.withoutPush data).Sublist script := List.filter_sublist

theorem withoutPush_eq_filter (data : Bytes) (script : Script) :
    script.withoutPush data = script.filter (· ≠ .push data) := by
  refine List.filter_congr fun instruction _ => ?_
  cases instruction with
  | push other => simp [Instruction.pushes, Bool.beq_eq_decide_eq]
  | op | unknown => rfl

theorem withoutPush_eq_self {data : Bytes} (absent : .push data ∉ script) :
    script.withoutPush data = script := by
  rw [withoutPush_eq_filter, List.filter_eq_self]
  exact fun instruction mem => decide_eq_true (ne_of_mem_of_not_mem mem absent)

theorem WellFormed.sublist {part : Script} (h : script.WellFormed) (hp : part.Sublist script) :
    part.WellFormed := fun instruction hi => h instruction (hp.subset hi)

theorem not_isCodeSeparator_of_isSignatureCheck (h : instruction.isSignatureCheck) :
    instruction.isCodeSeparator = false := by
  cases instruction with
  | op opcode => cases opcode <;> first | rfl | cases h
  | _ => rfl

theorem not_pushes_of_isSignatureCheck (h : instruction.isSignatureCheck) (data : Bytes) :
    instruction.pushes data = false := by
  cases instruction with
  | push => cases h
  | _ => rfl

/-- The scan drops nothing from the first signature check on. -/
theorem mem_afterSeparator (h : instruction.isSignatureCheck) (mem : instruction ∈ script)
    (kept : instruction ∈ start) : instruction ∈ afterSeparator start script := by
  induction script generalizing start with
  | nil => cases mem
  | cons first rest ih =>
    rw [afterSeparator]
    split
    next separator =>
      have later : instruction ∈ rest := by
        rcases List.mem_cons.mp mem with rfl | later
        · rw [not_isCodeSeparator_of_isSignatureCheck h] at separator
          cases separator
        · exact later
      exact ih later later
    next =>
      split
      next => exact kept
      next other =>
        rcases List.mem_cons.mp mem with rfl | later
        · exact (other h).elim
        · exact ih later kept

theorem mem_subscript (h : instruction.isSignatureCheck) (mem : instruction ∈ script) :
    instruction ∈ script.subscript := by
  refine List.mem_filter.mpr ⟨mem_afterSeparator h mem mem, ?_⟩
  rw [not_isCodeSeparator_of_isSignatureCheck h]
  rfl

theorem mem_withoutPush (h : instruction.isSignatureCheck) (mem : instruction ∈ script)
    (data : Bytes) : instruction ∈ script.withoutPush data := by
  refine List.mem_filter.mpr ⟨mem, ?_⟩
  rw [not_pushes_of_isSignatureCheck h data]
  rfl

end SpendScript.Script
