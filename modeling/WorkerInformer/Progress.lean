import Mathlib.Logic.Function.Iterate

/-! Progress of a deterministic machine that is left to itself. A measure that
every step makes smaller, as long as the goal is not reached, leads to the goal;
a goal that steps keep is then kept for good. Nothing in this file is about one
program. -/
namespace WorkerInformer.Progress

variable {State : Type*} {step : State → State}

/-- From every state of the first kind the machine comes to one of the second. -/
def LeadsTo (step : State → State) (P Q : State → Prop) : Prop := ∀ s, P s → ∃ n, Q (step^[n] s)

variable {P Q : State → Prop}

theorem leadsTo_of_measure {Measure : Type*} {less : Measure → Measure → Prop} (wf : WellFounded less)
    (measure : State → Measure) (keeps : ∀ s, P s → P (step s))
    (decreases : ∀ s, P s → ¬ Q s → less (measure (step s)) (measure s)) : LeadsTo step P Q := by
  intro s
  induction start : measure s using wf.induction generalizing s with
  | h _ ih =>
    intro holds
    by_cases reached : Q s
    · exact ⟨0, reached⟩
    · obtain ⟨n, later⟩ := ih _ (start ▸ decreases s holds reached) (step s) rfl (keeps s holds)
      exact ⟨n + 1, by rwa [Function.iterate_succ_apply]⟩

theorem iterate_keeps (keeps : ∀ s, P s → P (step s)) {s : State} (holds : P s) (n : Nat) : P (step^[n] s) := by
  induction n with
  | zero => exact holds
  | succ n ih =>
    rw [Function.iterate_succ_apply']
    exact keeps _ ih

/-- What is reached and kept holds from some step on. -/
theorem LeadsTo.forever (leads : LeadsTo step P Q) (stays : ∀ s, Q s → Q (step s)) {s : State} (holds : P s) :
    ∃ n, ∀ m, n ≤ m → Q (step^[m] s) := by
  obtain ⟨n, reached⟩ := leads s holds
  refine ⟨n, fun m later => ?_⟩
  obtain ⟨more, rfl⟩ := Nat.exists_eq_add_of_le' later
  rw [Function.iterate_add_apply]
  exact iterate_keeps stays reached more

end WorkerInformer.Progress
