import SpendScript.Proofs.Machine.Evaluation

/-!
# How an instruction fails

`Step.Failed` lists the ways in which a step fails, with what it leaves on the stack. Main statements:
there is no other way, and a script whose signature checks are answered fails with one of five errors.
-/

namespace SpendScript

variable {checker? : Option Checker} {checker : Checker} {script : Script} {stack : Stack}
  {instruction : Instruction} {error : ScriptError}

namespace Step

/-- The ways in which a step fails: what it started on, what it leaves, and what it asked. -/
inductive Failed (checker? : Option Checker) : Stack → Step → Prop
  | badOpcode (stack : Stack) : Failed checker? stack (.fail .badOpcode stack)
  | tooShallow (stack : Stack) : Failed checker? stack (.fail .invalidStackOperation stack)
  | noChecker (stack : Stack) : checker? = none →
      Failed checker? stack (.fail .noSigningContext stack)
  | unequal {first second : Bytes} (rest : Stack) : first ≠ second →
      Failed checker? (first :: second :: rest) (.fail .equalVerify rest)
  | untagged {item : Bytes} (publicKey : Bytes) (rest : Stack) : untag? item = none →
      Failed checker? (publicKey :: item :: rest) (.fail .sigHashType rest)
  | refused {checker : Checker} {signature publicKey : Bytes} (rest : Stack) :
      checker? = some checker → checker signature publicKey = false →
      Failed checker? (publicKey :: tagged signature :: rest)
        { fail .checkSigVerify rest with query? := some { signature, publicKey, answer := false } }

def answeredErrors : List ScriptError :=
  [.badOpcode, .invalidStackOperation, .equalVerify, .sigHashType, .checkSigVerify]

theorem Failed.error_mem {step : Step} (h : Failed (some checker) stack step)
    (found : step.error? = some error) : error ∈ answeredErrors := by
  cases h with
  | noChecker _ absent => cases absent
  | _ => cases found; decide

theorem failed_ofSignatureCheck {publicKey item : Bytes} {rest : Stack}
    {settle : Bool → Step}
    (settled : ∀ answer, (settle answer).error? = some error →
      answer = false ∧ settle false = .fail .checkSigVerify rest)
    (found : (ofSignatureCheck checker? publicKey item rest settle).error? = some error) :
    Failed checker? (publicKey :: item :: rest)
      (ofSignatureCheck checker? publicKey item rest settle) := by
  unfold ofSignatureCheck at found ⊢
  cases checker? with
  | none => exact .noChecker _ rfl
  | some checker =>
    cases untagged : untag? item with
    | none => exact .untagged _ _ untagged
    | some signature =>
      simp only [untagged] at found ⊢
      obtain rfl := untag?_eq_some.mp untagged
      obtain ⟨answer, left⟩ := settled _ found
      simp only [answer, left]
      exact .refused rest rfl answer

end Step

theorem Opcode.failed_of_step (opcode : Opcode)
    (found : (opcode.step checker? stack).error? = some error) :
    Step.Failed checker? stack (opcode.step checker? stack) := by
  cases opcode with
  | checkSig =>
    rcases stack with _ | ⟨publicKey, _ | ⟨item, rest⟩⟩
    · exact .tooShallow _
    · exact .tooShallow _
    · exact Step.failed_ofSignatureCheck (fun _ failed => by cases failed) found
  | checkSigVerify =>
    rcases stack with _ | ⟨publicKey, _ | ⟨item, rest⟩⟩
    · exact .tooShallow _
    · exact .tooShallow _
    · refine Step.failed_ofSignatureCheck (fun answer failed => ?_) found
      cases answer with
      | true => cases failed
      | false => exact ⟨rfl, rfl⟩
  | equalVerify =>
    rcases stack with _ | ⟨first, _ | ⟨second, rest⟩⟩
    · exact .tooShallow _
    · exact .tooShallow _
    · simp only [step] at found ⊢
      split at found
      next => cases found
      next unequal =>
        rw [if_neg unequal]
        exact .unequal rest (by simpa using unequal)
  | pushData1 | pushData2 | pushData4 | checkMultiSig | checkMultiSigVerify => exact .badOpcode _
  | _ =>
    rcases stack with _ | ⟨first, _ | ⟨second, rest⟩⟩ <;>
      first | exact .tooShallow _ | cases found

theorem Instruction.failed_of_step
    (found : (instruction.step checker? stack).error? = some error) :
    Step.Failed checker? stack (instruction.step checker? stack) := by
  cases instruction with
  | push data => cases found
  | op opcode => exact opcode.failed_of_step found
  | unknown byte => exact .badOpcode stack

namespace Script

theorem failed_of_eval (failed : script.eval checker? stack = .error error) :
    ∃ start step, Step.Failed checker? start step ∧ step.error? = some error := by
  induction script generalizing stack with
  | nil => cases failed
  | cons instruction rest ih =>
    rw [eval_cons] at failed
    cases first : (instruction.step checker? stack).result with
    | error e =>
      rw [first] at failed
      cases failed
      have found := Step.result_eq_error.mp first
      exact ⟨_, _, Instruction.failed_of_step found, found⟩
    | ok next =>
      rw [first] at failed
      exact ih failed

theorem error_mem_of_eval (failed : script.eval (some checker) stack = .error error) :
    error ∈ Step.answeredErrors := by
  obtain ⟨_, _, h, found⟩ := failed_of_eval failed
  exact h.error_mem found

end Script

end SpendScript
