import SpendScript.Machine.Run

/-!
# A run and its checker

A run depends on its checker only through the answers to what it asks. Main statement: a checker that
would have given the recorded answers makes the same run.
-/

namespace SpendScript

def Query.AnsweredBy (query : Query) (checker : Checker) : Prop :=
  checker query.signature query.publicKey = query.answer

variable {checker other : Checker} {stack : Stack} {instruction : Instruction} {query : Query}

theorem Opcode.step_cases (opcode : Opcode) (stack : Stack) :
    (∃ step : Step, step.query? = none ∧ ∀ checker?, opcode.step checker? stack = step) ∨
      ∃ publicKey item rest settle, (∀ answer, (settle answer).query? = none) ∧
        ∀ checker?, opcode.step checker? stack =
          .ofSignatureCheck checker? publicKey item rest settle := by
  cases opcode with
  | checkSig =>
    rcases stack with _ | ⟨publicKey, _ | ⟨item, rest⟩⟩
    · exact .inl ⟨_, rfl, fun _ => rfl⟩
    · exact .inl ⟨_, rfl, fun _ => rfl⟩
    · exact .inr ⟨publicKey, item, rest, fun valid => .done (boolItem valid :: rest),
        fun _ => rfl, fun _ => rfl⟩
  | checkSigVerify =>
    rcases stack with _ | ⟨publicKey, _ | ⟨item, rest⟩⟩
    · exact .inl ⟨_, rfl, fun _ => rfl⟩
    · exact .inl ⟨_, rfl, fun _ => rfl⟩
    · refine .inr ⟨publicKey, item, rest,
        fun valid => if valid then .done rest else .fail .checkSigVerify rest, fun answer => ?_,
        fun _ => rfl⟩
      cases answer <;> rfl
  | equalVerify =>
    rcases stack with _ | ⟨first, _ | ⟨second, rest⟩⟩
    · exact .inl ⟨_, rfl, fun _ => rfl⟩
    · exact .inl ⟨_, rfl, fun _ => rfl⟩
    · refine .inl ⟨if first == second then .done rest else .fail .equalVerify rest, ?_,
        fun _ => rfl⟩
      split <;> rfl
  | _ =>
    refine .inl ?_
    rcases stack with _ | ⟨first, _ | ⟨second, rest⟩⟩ <;> exact ⟨_, rfl, fun _ => rfl⟩

theorem Instruction.step_cases (instruction : Instruction) (stack : Stack) :
    (∃ step : Step, step.query? = none ∧ ∀ checker?, instruction.step checker? stack = step) ∨
      ∃ publicKey item rest settle, (∀ answer, (settle answer).query? = none) ∧
        ∀ checker?, instruction.step checker? stack =
          .ofSignatureCheck checker? publicKey item rest settle := by
  cases instruction with
  | push data => exact .inl ⟨_, rfl, fun _ => rfl⟩
  | op opcode => exact opcode.step_cases stack
  | unknown byte => exact .inl ⟨_, rfl, fun _ => rfl⟩

theorem Instruction.answeredBy_of_step
    (asked : (instruction.step (some checker) stack).query? = some query) :
    query.AnsweredBy checker := by
  obtain ⟨step, silent, same⟩ | ⟨publicKey, item, rest, settle, -, same⟩ :=
    instruction.step_cases stack
  · rw [same, silent] at asked
    cases asked
  · rw [same, Step.ofSignatureCheck] at asked
    cases untagged : untag? item <;> rw [untagged] at asked <;> cases asked
    rfl

theorem Instruction.step_eq_of_answeredBy
    (agree : ∀ query, (instruction.step (some checker) stack).query? = some query →
      query.AnsweredBy other) :
    instruction.step (some other) stack = instruction.step (some checker) stack := by
  obtain ⟨step, -, same⟩ | ⟨publicKey, item, rest, settle, -, same⟩ := instruction.step_cases stack
  · rw [same, same]
  · rw [same] at agree
    rw [same, same]
    cases untagged : untag? item with
    | none => simp only [Step.ofSignatureCheck, untagged]
    | some signature =>
      simp only [Step.ofSignatureCheck, untagged] at agree ⊢
      rw [agree _ rfl]

namespace Machine

variable {machine : Machine} {checker? : Option Checker}

theorem mem_queries_record {step : Step} :
    query ∈ (machine.record instruction step).queries ↔
      query ∈ machine.queries ∨ step.query? = some query := by
  cases asked : step.query? with
  | none => simp [record, asked]
  | some put => simp [record, asked, @eq_comm _ query]

theorem mem_queries_advance (h : query ∈ machine.queries) (instruction : Instruction) :
    query ∈ (machine.advance checker? instruction).queries := by
  unfold advance
  split
  · exact h
  · exact mem_queries_record.mpr (.inl h)

theorem mem_queries_resume (h : query ∈ machine.queries) (script : Script) :
    query ∈ (machine.resume checker? script).queries := by
  induction script generalizing machine with
  | nil => exact h
  | cons instruction rest ih => exact ih (mem_queries_advance h instruction)

theorem answeredBy_of_mem_resume (h : ∀ query ∈ machine.queries, query.AnsweredBy checker)
    {script : Script} : ∀ query ∈ (machine.resume (some checker) script).queries,
      query.AnsweredBy checker := by
  induction script generalizing machine with
  | nil => exact h
  | cons instruction rest ih =>
    refine ih fun query mem => ?_
    unfold advance at mem
    split at mem
    · exact h query mem
    · rcases mem_queries_record.mp mem with old | asked
      · exact h query old
      · exact Instruction.answeredBy_of_step asked

theorem advance_eq_of_answeredBy
    (agree : ∀ query ∈ (machine.advance (some checker) instruction).queries,
      query.AnsweredBy other) :
    machine.advance (some other) instruction = machine.advance (some checker) instruction := by
  unfold advance at agree ⊢
  split
  · rfl
  next running =>
    rw [if_neg running] at agree
    rw [Instruction.step_eq_of_answeredBy fun query asked =>
      agree query (mem_queries_record.mpr (.inr asked))]

/-- Two checkers that agree on what one of them is asked make the same run. -/
theorem resume_eq_of_answeredBy {script : Script}
    (agree : ∀ query ∈ (machine.resume (some checker) script).queries, query.AnsweredBy other) :
    machine.resume (some other) script = machine.resume (some checker) script := by
  induction script generalizing machine with
  | nil => rfl
  | cons instruction rest ih =>
    -- What the first step asked is still recorded at the end of the run.
    have first : machine.advance (some other) instruction =
        machine.advance (some checker) instruction :=
      advance_eq_of_answeredBy fun query mem => agree query (mem_queries_resume mem rest)
    simp only [resume, List.foldl_cons, first]
    exact ih agree

end Machine

namespace Script

variable {script : Script}

theorem answeredBy_of_mem_run :
    ∀ query ∈ (script.run (some checker) stack).queries, query.AnsweredBy checker :=
  Machine.answeredBy_of_mem_resume fun _ mem => absurd mem (Array.not_mem_empty _)

theorem run_eq_of_answeredBy
    (agree : ∀ query ∈ (script.run (some checker) stack).queries, query.AnsweredBy other) :
    script.run (some other) stack = script.run (some checker) stack :=
  Machine.resume_eq_of_answeredBy agree

end Script

end SpendScript
