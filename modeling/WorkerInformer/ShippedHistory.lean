import WorkerInformer.HistoryCalls
import WorkerInformer.Runs

/-! `template/storage.js` and the copy of it in `template/rg.js`. The two texts
are the same library up to the names of local variables, with one difference:
the three operations that list the ids not to show again take the ids of the
page as an argument in the shipped copy, and take none in the source. (The line
of `rg.js` also begins with a `Date.now` for browsers that have none.) -/
namespace WorkerInformer.UserHistory
open Runs Texts

/-- What a sequence of calls returns, and the state it leaves. -/
def run (copy : Copy) : Session → List Call → List Answer × Session
  | session, [] => ([], session)
  | session, call :: rest =>
    let later := run copy (step session call) rest
    (answer copy session call :: later.1, later.2)

/-- The copies agree on a run when they agree on every answer of it. -/
theorem run_eq_iff (session : Session) (calls : List Call) :
    run .source session calls = run .shipped session calls ↔
      EveryStep step (fun state call _ => answer .source state call = answer .shipped state call) session calls := by
  induction calls generalizing session with
  | nil => exact iff_of_true rfl trivial
  | cons call rest ih =>
    have split : run .source session (call :: rest) = run .shipped session (call :: rest) ↔
        answer .source session call = answer .shipped session call ∧
          run .source (step session call) rest = run .shipped (step session call) rest := by
      rw [Prod.ext_iff, Prod.ext_iff]
      simp only [run, List.cons.injEq]
      tauto
    exact split.trans (and_congr Iff.rfl (ih _))

/-- An id that would not show in a list of keys: it is listed, or every object
has a member of this name, or it is the empty text and there is no other. -/
def Unseen (keys : List String) (id : String) : Prop :=
  id ∈ keys ∨ id ∈ inheritedNames ∨ id = "" ∧ unique keys = []

/-- The ids given to a call add nothing to what is listed. -/
def NothingNew (session : Session) : Call → Prop
  | .excludeGet which viewed => ∀ id ∈ viewed, Unseen (which.keys session.memory.stores) id
  | _ => True

/-- The texts the shipped copy adds to the keys. -/
private def added (keys viewed : List String) : List String :=
  uniqueFrom ((uniqueFrom inheritedNames keys).reverse ++ inheritedNames) viewed

private theorem mem_added {keys viewed : List String} {id : String} :
    id ∈ added keys viewed ↔ id ∈ viewed ∧ id ∉ keys ∧ id ∉ inheritedNames := by
  rw [added, mem_uniqueFrom, List.mem_append, List.mem_reverse, mem_uniqueFrom]
  tauto

private theorem added_nothing_iff (keys viewed : List String) :
    (added keys viewed = [] ∨ unique keys = [] ∧ added keys viewed = [""]) ↔ ∀ id ∈ viewed, Unseen keys id := by
  constructor
  · intro nothing id given
    by_cases new : id ∈ added keys viewed
    · rcases nothing with none_added | ⟨none_listed, one_added⟩
      · rw [none_added] at new
        cases new
      · rw [one_added] at new
        exact .inr (.inr ⟨List.mem_singleton.mp new, none_listed⟩)
    · have := mt mem_added.mpr new
      unfold Unseen
      tauto
  · intro unseen
    by_cases none_listed : unique keys = []
    · have only_empty : ∀ id ∈ added keys viewed, id = "" := by
        intro id new
        obtain ⟨given, unlisted, uninherited⟩ := mem_added.mp new
        rcases unseen id given with listed | inherited | ⟨empty, -⟩
        · exact absurd listed unlisted
        · exact absurd inherited uninherited
        · exact empty
      have distinct : (added keys viewed).Nodup := nodup_uniqueFrom _ _
      rcases shape : added keys viewed with _ | ⟨first, _ | ⟨second, rest⟩⟩
      · exact .inl rfl
      · rw [shape] at only_empty
        exact .inr ⟨none_listed, by rw [only_empty first List.mem_cons_self]⟩
      · rw [shape] at only_empty distinct
        have first_empty := only_empty first (by simp)
        have second_empty := only_empty second (by simp)
        rw [first_empty, second_empty] at distinct
        simp at distinct
    · refine .inl (List.eq_nil_iff_forall_not_mem.mpr fun id new => ?_)
      obtain ⟨given, unlisted, uninherited⟩ := mem_added.mp new
      rcases unseen id given with listed | inherited | ⟨-, none⟩
      · exact unlisted listed
      · exact uninherited inherited
      · exact none_listed none

theorem excludeGet_copies_iff (which : ExcludeGet) (h : History) (viewed : List String) :
    excludeGet .source which h viewed = excludeGet .shipped which h viewed ↔
      ∀ id ∈ viewed, Unseen (which.keys h) id := by
  rw [← added_nothing_iff, ← joinTexts_append_eq_iff ";" (by decide), eq_comm]
  simp only [excludeGet, unique, uniqueFrom_append, added]

theorem answer_copies_iff (session : Session) (call : Call) :
    answer .source session call = answer .shipped session call ↔ NothingNew session call := by
  cases call with
  | excludeGet which viewed =>
    simp only [answer, Answer.text.injEq, NothingNew]
    exact excludeGet_copies_iff which session.memory.stores viewed
  | change what =>
    refine iff_of_true ?_ trivial
    cases what <;> rfl
  | loadStore | load | save | get | getString => exact iff_of_true rfl trivial

/-- **The copies differ in the ids they are told.** For every state and every
sequence of calls, running the source and running the shipped copy give the same
answers and the same state if and only if no call is given an id that is new to
the list it asks for. -/
theorem run_copies_iff (session : Session) (calls : List Call) :
    run .source session calls = run .shipped session calls ↔
      EveryStep step (fun state call _ => NothingNew state call) session calls :=
  (run_eq_iff session calls).trans (everyStep_congr (fun state call => answer_copies_iff state call) session calls)

/-- The page shows one offer and asks which not to show again. -/
def oneShown : List Call := [.excludeGet .exclude ["17"]]

/-- The source leaves that offer out. -/
theorem shown_offer_differs :
    run .source ⟨Memory.fresh, nothingSaved⟩ oneShown ≠ run .shipped ⟨Memory.fresh, nothingSaved⟩ oneShown := by
  intro same
  have answers := congrArg Prod.fst same
  revert answers
  decide +kernel

end WorkerInformer.UserHistory
