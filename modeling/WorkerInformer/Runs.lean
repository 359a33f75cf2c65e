import Mathlib.Order.Basic

/-! Runs of a deterministic machine. A machine is a total step function over
labels; a label is one choice of the environment or of the scheduler, so the
runs over all label lists are all interleavings. The two rules every later
module uses are here: a guarded invariant holds after a guarded run, and a
property of every step of a run can be exchanged for another one step by step.
Nothing in this file is about one program. -/
namespace WorkerInformer.Runs

variable {State Label : Type*} (step : State → Label → State)

/-- The state a run over these labels ends in. -/
def exec (start : State) (labels : List Label) : State := labels.foldl step start

/-- A relation between the state before a step, its label and the state after
it, asked of every step of the run. -/
def EveryStep (holds : State → Label → State → Prop) : State → List Label → Prop
  | _, [] => True
  | state, label :: rest =>
    holds state label (step state label) ∧ EveryStep holds (step state label) rest

instance instDecidableEveryStep {holds : State → Label → State → Prop}
    [∀ state label next, Decidable (holds state label next)] :
    (start : State) → (labels : List Label) → Decidable (EveryStep step holds start labels)
  | _, [] => isTrue trivial
  | start, label :: rest =>
    have : Decidable (EveryStep step holds (step start label) rest) :=
      instDecidableEveryStep (step start label) rest
    inferInstanceAs (Decidable (holds start label (step start label) ∧ _))

@[simp] theorem exec_nil (start : State) : exec step start [] = start := rfl

@[simp] theorem exec_cons (start : State) (label : Label) (rest : List Label) :
    exec step start (label :: rest) = exec step (step start label) rest := rfl

theorem exec_append (start : State) (first second : List Label) :
    exec step start (first ++ second) = exec step (exec step start first) second :=
  List.foldl_append

theorem exec_snoc (start : State) (labels : List Label) (label : Label) :
    exec step start (labels ++ [label]) = step (exec step start labels) label := by
  rw [exec_append]
  rfl

theorem everyStep_append {holds : State → Label → State → Prop} {start : State} {first second : List Label} :
    EveryStep step holds start (first ++ second) ↔
      EveryStep step holds start first ∧ EveryStep step holds (exec step start first) second := by
  induction first generalizing start with
  | nil => exact (and_iff_right trivial).symm
  | cons label rest ih => exact (and_congr_right' ih).trans and_assoc.symm

/-- The state after the first labels. -/
def upTo (start : State) (labels : List Label) (i : Nat) : State := exec step start (labels.take i)

/-- From one moment to the next there is one step, or the run is at its end. -/
theorem upTo_succ (start : State) (labels : List Label) (i : Nat) :
    upTo step start labels (i + 1) = upTo step start labels i ∨
      ∃ label, upTo step start labels (i + 1) = step (upTo step start labels i) label := by
  cases next : labels[i]? with
  | none =>
    left
    have short := List.getElem?_eq_none_iff.mp next
    rw [upTo, upTo, List.take_of_length_le short, List.take_of_length_le (Nat.le_succ_of_le short)]
  | some label =>
    right
    refine ⟨label, ?_⟩
    rw [upTo, upTo, List.take_add_one, next, Option.toList_some, exec_snoc]

/-- What holds of every moment holds after every step. -/
theorem everyStep_of_upTo {holds : State → Prop} (start : State) (labels : List Label)
    (every : ∀ i ≤ labels.length, holds (upTo step start labels i)) :
    EveryStep step (fun _ _ next => holds next) start labels := by
  induction labels generalizing start with
  | nil => trivial
  | cons label rest ih =>
    exact ⟨every 1 (Nat.succ_le_succ (Nat.zero_le _)), ih _ fun i within => every (i + 1) (Nat.succ_le_succ within)⟩

theorem everyStep_and {first second : State → Label → State → Prop} {start : State} {labels : List Label}
    (one : EveryStep step first start labels) (other : EveryStep step second start labels) :
    EveryStep step (fun state label next => first state label next ∧ second state label next) start labels := by
  induction labels generalizing start with
  | nil => trivial
  | cons label rest ih => exact ⟨⟨one.1, other.1⟩, ih one.2 other.2⟩

section Invariants
variable {step} {Inv : State → Prop}

/-- What every step preserves, every run preserves. -/
theorem invariant (Inv : State → Prop) (preserve : ∀ state label, Inv state → Inv (step state label))
    {start : State} (labels : List Label) (initial : Inv start) : Inv (exec step start labels) := by
  induction labels generalizing start with
  | nil => exact initial
  | cons label rest ih => exact ih (preserve _ _ initial)

/-- What one guarded step preserves, a guarded run preserves. -/
theorem guarded_invariant {guard : State → Label → State → Prop}
    (preserve : ∀ state label, Inv state → guard state label (step state label) → Inv (step state label))
    {start : State} {labels : List Label} (initial : Inv start) (guarded : EveryStep step guard start labels) :
    Inv (exec step start labels) := by
  induction labels generalizing start with
  | nil => exact initial
  | cons label rest ih => exact ih (preserve _ _ initial guarded.1) guarded.2

/-- What holds of a guarded step from any state with the invariant holds of every
step of a guarded run. -/
theorem guarded_everyStep {guard holds : State → Label → State → Prop}
    (preserve : ∀ state label, Inv state → guard state label (step state label) → Inv (step state label))
    (meets : ∀ state label, Inv state → guard state label (step state label) → holds state label (step state label))
    {start : State} {labels : List Label} (initial : Inv start) (guarded : EveryStep step guard start labels) :
    EveryStep step holds start labels := by
  induction labels generalizing start with
  | nil => trivial
  | cons label rest ih => exact ⟨meets _ _ initial guarded.1, ih (preserve _ _ initial guarded.1) guarded.2⟩

/-- Two relations that agree on every step agree on the steps of a run. -/
theorem everyStep_congr {first second : State → Label → State → Prop}
    (same : ∀ state label, first state label (step state label) ↔ second state label (step state label))
    (start : State) (labels : List Label) :
    EveryStep step first start labels ↔ EveryStep step second start labels := by
  induction labels generalizing start with
  | nil => exact Iff.rfl
  | cons label rest ih => exact and_congr (same _ _) (ih _)

/-- A state property kept by exactly the guarded steps holds after every step
of a run if and only if every step is guarded. -/
theorem everyStep_iff_guarded {guard : State → Label → Prop}
    (exact_step : ∀ state label, Inv state → (Inv (step state label) ↔ guard state label))
    {start : State} (labels : List Label) (initial : Inv start) :
    EveryStep step (fun _ _ next => Inv next) start labels ↔
      EveryStep step (fun state label _ => guard state label) start labels := by
  induction labels generalizing start with
  | nil => exact Iff.rfl
  | cons label rest ih =>
    constructor
    · intro all
      exact ⟨(exact_step _ _ initial).mp all.1, (ih all.1).mp all.2⟩
    · intro all
      have next := (exact_step _ _ initial).mpr all.1
      exact ⟨next, (ih next).mpr all.2⟩

end Invariants

end WorkerInformer.Runs
