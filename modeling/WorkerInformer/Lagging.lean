import Mathlib.Tactic.TypeStar

/-! A copy that lags behind its source. Entries are read from the source, kept
for a while, and copied one by one, while the source goes on changing; a copied
entry can also be dropped. Whatever the order of these steps, every entry of the
copy stood in the source at an earlier moment, and the moments of one key never
go back. Nothing in this file is about one program. -/
namespace WorkerInformer.Lagging

/-- Where an entry can be: in the source, among those that were read, or in the copy. -/
structure Places (State Entry : Type*) where
  source : State → Entry → Prop
  read : State → Entry → Prop
  copied : State → Entry → Prop

variable {State Entry Key : Type*} (places : Places State Entry) (key : Entry → Key)

/-- What one step may do. It reads nothing new or reads everything afresh, and
under each key it copies nothing new or leaves only what was read. -/
structure Moves (before after : State) : Prop where
  read : (∀ e, places.read after e → places.read before e) ∨ ∀ e, places.read after e → places.source before e
  copied : ∀ k, (∀ e, key e = k → places.copied after e → places.copied before e) ∨
    ∀ e, key e = k → places.copied after e → places.read before e

/-- A moment for what was read last and one for each key. -/
structure Moments (Key : Type*) where
  read : Nat
  version : Key → Nat

variable (trace : Nat → State)

open Classical in
/-- The moments of a run: those of the last fresh reading, and for each key those
of the reading its copy is from. -/
noncomputable def moments : Nat → Moments Key
  | 0 => ⟨0, fun _ => 0⟩
  | i + 1 =>
    { read := if ∀ e, places.read (trace (i + 1)) e → places.read (trace i) e then (moments i).read else i
      version := fun k =>
        if ∀ e, key e = k → places.copied (trace (i + 1)) e → places.copied (trace i) e then (moments i).version k
        else (moments i).read }

/-- What the moments are for. -/
structure Dated (i : Nat) (at_i : Moments Key) : Prop where
  read_le : at_i.read ≤ i
  version_le : ∀ k, at_i.version k ≤ at_i.read
  read : ∀ e, places.read (trace i) e → places.source (trace at_i.read) e
  copied : ∀ e, places.copied (trace i) e → places.source (trace (at_i.version (key e))) e

variable {places key trace}

theorem read_le_succ {i : Nat} (dated : Dated places key trace i (moments places key trace i)) :
    (moments places key trace i).read ≤ (moments places key trace (i + 1)).read := by
  simp only [moments]
  split
  · exact Nat.le_refl _
  · exact dated.read_le

theorem version_le_succ {i : Nat} (dated : Dated places key trace i (moments places key trace i)) (k : Key) :
    (moments places key trace i).version k ≤ (moments places key trace (i + 1)).version k := by
  simp only [moments]
  split
  · exact Nat.le_refl _
  · exact dated.version_le k

theorem dated_succ {i : Nat} (moves : Moves places key (trace i) (trace (i + 1)))
    (dated : Dated places key trace i (moments places key trace i)) :
    Dated places key trace (i + 1) (moments places key trace (i + 1)) where
  read_le := by
    have before := dated.read_le
    simp only [moments]
    split <;> omega
  version_le k := by
    have later := read_le_succ dated
    have before := dated.version_le k
    have version : (moments places key trace (i + 1)).version k = (moments places key trace i).version k ∨
        (moments places key trace (i + 1)).version k = (moments places key trace i).read := by
      simp only [moments]
      split
      · exact Or.inl rfl
      · exact Or.inr rfl
    omega
  read e was_read := by
    simp only [moments]
    split
    · rename_i old
      exact dated.read e (old e was_read)
    · rename_i fresh
      exact moves.read.resolve_left fresh e was_read
  copied e was_copied := by
    simp only [moments]
    split
    · rename_i old
      exact dated.copied e (old e rfl was_copied)
    · rename_i fresh
      exact dated.read e ((moves.copied (key e)).resolve_left fresh e rfl was_copied)

theorem dated_moments (empty : ∀ e, ¬ places.read (trace 0) e ∧ ¬ places.copied (trace 0) e)
    (moves : ∀ i, Moves places key (trace i) (trace (i + 1))) (i : Nat) :
    Dated places key trace i (moments places key trace i) := by
  induction i with
  | zero =>
    exact ⟨Nat.le_refl _, fun _ => Nat.le_refl _, fun e was_read => absurd was_read (empty e).1,
      fun e was_copied => absurd was_copied (empty e).2⟩
  | succ i ih => exact dated_succ (moves i) ih

/-- **Versions never go back.** Every run of such steps has a moment for each
step and key, not after the step and never before an earlier one of that key, at
which the source held what the copy holds under the key. -/
theorem exists_versions (empty : ∀ e, ¬ places.read (trace 0) e ∧ ¬ places.copied (trace 0) e)
    (moves : ∀ i, Moves places key (trace i) (trace (i + 1))) :
    ∃ version : Nat → Key → Nat, (∀ k i j, i ≤ j → version i k ≤ version j k) ∧
      (∀ i k, version i k ≤ i) ∧
      ∀ i e, places.copied (trace i) e → places.source (trace (version i (key e))) e := by
  have dated := dated_moments empty moves
  refine ⟨fun i => (moments places key trace i).version, fun k i j earlier => ?_, fun i k => ?_,
    fun i => (dated i).copied⟩
  · induction earlier with
    | refl => exact Nat.le_refl _
    | step _ ih => exact Nat.le_trans ih (version_le_succ (dated _) k)
  · exact Nat.le_trans ((dated i).version_le k) (dated i).read_le

end WorkerInformer.Lagging
