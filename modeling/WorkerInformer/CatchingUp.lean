import WorkerInformer.Progress
import WorkerInformer.Service

/-! When the writes stop. As long as no more informer messages wait than one
round takes, none is dropped, and the worker, left to itself, has handled all
messages after finitely many moves: each move either takes a message from its
queue or brings the next such move nearer. From then on, where the SQL statements
have their intended effect, every page shows its document as it is. -/
namespace WorkerInformer.CatchingUp
open Runs Bytes InformerTable MainDatabase Replica Replication Service
open ProcessMQ (QueueName Pc dispatch inHand leave maxCount fetch)

/-- How many informer messages the rest of the round takes, or else the next one. -/
def budget : Pc → Int
  | .test .informer (some _) stopCount | .body .informer _ stopCount | .get .informer stopCount => stopCount
  | _ => maxCount

/-- The informer messages still to be tested for: those that wait and the one
that was fetched for the test. -/
def untested (mq : ProcessMQ.State) : Nat :=
  (mq.waiting .informer).length +
    match mq.pc with
    | .test .informer (some _) _ => 1
    | _ => 0

/-- No more than the rest of the round takes. -/
def Fits (mq : ProcessMQ.State) : Prop := (untested mq : Int) ≤ budget mq.pc

instance : DecidablePred Fits := fun _ => inferInstanceAs (Decidable (_ ≤ _))

theorem fits_fetch {mq : ProcessMQ.State} (queue : QueueName) {stopCount : Int}
    (enough : ((mq.waiting .informer).length : Int) ≤ if queue = .informer then stopCount else maxCount) :
    Fits (fetch mq queue stopCount) := by
  cases queue with
  | account =>
    have other : untested (fetch mq .account stopCount) = (mq.waiting .informer).length := by
      simp [untested, fetch]
    rw [Fits, other]
    simpa [budget, fetch] using enough
  | informer =>
    simp only [↓reduceIte] at enough
    cases rest : mq.waiting .informer with
    | nil => simp [Fits, untested, budget, fetch, rest, maxCount]
    | cons m tail =>
      simp only [rest, List.length_cons] at enough
      simp only [Fits, untested, budget, fetch, rest, List.head?_cons, List.tail_cons, Function.update_self]
      omega

/-- The worker's moves keep within it. -/
theorem fits_work {mq : ProcessMQ.State} (fits : Fits mq) : Fits (ProcessMQ.work mq) := by
  unfold Fits at fits
  cases here : mq.pc with
  | idle => simpa [Fits, untested, budget, ProcessMQ.work, here] using fits
  | enter queue =>
    simp only [ProcessMQ.work, here]
    apply fits_fetch
    simp only [untested, budget, here] at fits
    split <;> exact fits
  | test queue m stopCount =>
    cases m with
    | none => cases queue <;> simpa [Fits, untested, budget, ProcessMQ.work, here, leave] using fits
    | some m =>
      cases queue with
      | account =>
        simp only [untested, budget, here] at fits
        by_cases stop : stopCount = 0 <;> simpa [Fits, untested, budget, ProcessMQ.work, here, stop, leave] using fits
      | informer =>
        simp only [untested, budget, here] at fits
        have armed : stopCount ≠ 0 := by omega
        simp only [Fits, untested, budget, ProcessMQ.work, here, armed, ne_eq, not_false_eq_true, ↓reduceIte]
        omega
  | body queue m stopCount => cases queue <;> simpa [Fits, untested, budget, ProcessMQ.work, here] using fits
  | get queue stopCount =>
    simp only [ProcessMQ.work, here]
    apply fits_fetch
    cases queue <;> simpa [untested, budget, here] using fits

/-- Within it no informer message is dropped. -/
theorem noneDropped_of_fits {s : Replication.State} (fits : Fits s.mq) : NoneDropped s := by
  unfold NoneDropped
  cases here : s.mq.pc with
  | test queue m stopCount =>
    cases queue with
    | account => rfl
    | informer =>
      cases m with
      | none => rfl
      | some m =>
        simp only [Fits, untested, budget, here] at fits
        simp only [drops, decide_eq_false_iff_not]
        omega
  | idle => rfl
  | enter queue => rfl
  | body queue m stopCount => rfl
  | get queue stopCount => rfl

/-! ## The worker alone -/

/-- The worker goes round its queues, every write has been published, and its
messages fit. -/
structure Calm (s : Replication.State) : Prop where
  running : s.phase = .running
  published : ∀ guid, s.outbox guid = []
  consistent : Consistent s
  fits : Fits s.mq

/-- A move of the running worker leaves the collection, the phase and what is to
be published, and moves its loop or stays in the loop body. -/
theorem work_running {s : Replication.State} (running : s.phase = .running) :
    (work s).phase = .running ∧ (work s).outbox = s.outbox ∧ (work s).mongo = s.mongo ∧
      ((work s).mq = ProcessMQ.work s.mq ∨ (work s).mq = s.mq) := by
  simp only [work, running]
  split
  · rename_i queue m stopCount here
    unfold handle
    split
    · exact ⟨running, rfl, rfl, Or.inl rfl⟩
    · exact ⟨running, rfl, rfl, Or.inl rfl⟩
    · split
      · exact ⟨running, rfl, rfl, Or.inr rfl⟩
      · exact ⟨running, rfl, rfl, Or.inr rfl⟩
      · exact ⟨running, rfl, rfl, Or.inl rfl⟩
  · exact ⟨rfl, rfl, rfl, Or.inl rfl⟩

theorem work_calm (s : Replication.State) (calm : Calm s) : Calm (work s) := by
  obtain ⟨running, outbox, -, mq⟩ := work_running calm.running
  have fits : Fits (work s).mq := by
    rcases mq with moved | same
    · rw [moved]
      exact fits_work calm.fits
    · rw [same]
      exact calm.fits
  exact ⟨running, fun guid => by rw [outbox, calm.published], work_consistent calm.consistent (noneDropped_of_fits fits),
    fits⟩

/-! ## What comes nearer -/

/-- The messages that wait. -/
def waitingCount (mq : ProcessMQ.State) : Nat := (mq.waiting .informer).length + (mq.waiting .account).length

/-- How many moves away the fetch of a waiting message is, between the loop
bodies: of an informer message if one waits, of an account message otherwise. -/
def movesToFetch (informerWaits : Bool) : Pc → Nat
  | .test .informer _ _ => if informerWaits then 5 else 2
  | .enter .account | .get .account _ => if informerWaits then 4 else 1
  | .test .account _ _ => if informerWaits then 3 else 5
  | .idle => if informerWaits then 2 else 4
  | .enter .informer | .get .informer _ => if informerWaits then 1 else 3
  | .body _ _ _ => 6

/-- What every move makes less as long as no message is taken. -/
def rank (s : Replication.State) : Nat :=
  match s.mq.pc with
  | .test _ (some _) _ => s.mongo.docs.length + 10
  | .body _ _ _ =>
    match s.hand with
    | none => s.mongo.docs.length + 9
    | some items => items.length + 7
  | pc => movesToFetch (s.mq.waiting .informer ≠ []) pc

def measure (s : Replication.State) : Nat × Nat := (waitingCount s.mq, rank s)

theorem movesToFetch_le (informerWaits : Bool) (pc : Pc) : movesToFetch informerWaits pc ≤ 6 := by
  cases pc with
  | idle => cases informerWaits <;> decide
  | enter queue => cases informerWaits <;> cases queue <;> decide
  | test queue m stopCount => cases informerWaits <;> cases queue <;> simp [movesToFetch]
  | body queue m stopCount => exact Nat.le_refl 6
  | get queue stopCount => cases informerWaits <;> cases queue <;> simp [movesToFetch]

theorem waitingCount_fetch (mq : ProcessMQ.State) (queue : QueueName) (stopCount : Int) :
    waitingCount (fetch mq queue stopCount) = waitingCount mq - if mq.waiting queue = [] then 0 else 1 := by
  cases queue with
  | informer =>
    cases rest : mq.waiting .informer with
    | nil => simp [waitingCount, fetch, rest]
    | cons m tail =>
      simp only [waitingCount, fetch, rest, Function.update_self, List.tail_cons, List.length_cons, reduceCtorEq,
        ↓reduceIte, ne_eq, not_false_eq_true, Function.update_of_ne]
      omega
  | account => cases rest : mq.waiting .account <;> simp [waitingCount, fetch, rest]

section Moves
variable {s : Replication.State} (calm : Calm s)
include calm

theorem waits_of_not_quiet (not_quiet : ¬ Quiet s) (idle : ∀ queue, inHand s.mq.pc queue = none) :
    s.mq.waiting .informer ≠ [] ∨ s.mq.waiting .account ≠ [] := by
  by_contra none_waits
  simp only [not_or, not_not] at none_waits
  exact not_quiet ⟨calm.running, calm.published, fun queue => by cases queue <;> simp [none_waits], idle⟩

theorem hand_between (no_body : ∀ queue m stopCount, s.mq.pc ≠ .body queue m stopCount) : s.hand = none :=
  hand_of_no_body (calm.consistent.handling · calm.running) no_body

omit calm in
theorem work_between (running : s.phase = .running) (no_body : ∀ queue m stopCount, s.mq.pc ≠ .body queue m stopCount) :
    work s = { s with mq := ProcessMQ.work s.mq } := by
  simp only [work, running]

/-- In the loop body the worker comes nearer to its end. -/
theorem measure_body {queue : QueueName} {m : ProcessMQ.Message} {stopCount : Int}
    (here : s.mq.pc = .body queue m stopCount) :
    waitingCount (work s).mq = waitingCount s.mq ∧ rank (work s) < rank s := by
  have leaves (hand : Option (List Doc)) (table : Table) :
      waitingCount (ProcessMQ.work s.mq) = waitingCount s.mq ∧
        rank { s with hand := hand, table := table, mq := ProcessMQ.work s.mq } < rank s := by
    have outside := movesToFetch_le (s.mq.waiting .informer ≠ []) (.get queue stopCount)
    simp only [waitingCount, rank, ProcessMQ.work, here, true_and]
    split <;> omega
  have is_work : work s = handle s (dispatch queue m) := by simp only [work, calm.running, here]
  rw [is_work]
  unfold handle
  split
  · exact leaves s.hand s.table
  · exact leaves s.hand _
  · rename_i query called
    split
    · rename_i empty
      have part : (s.mongo.read query).length ≤ s.mongo.docs.length := by
        cases query with
        | all => exact Nat.le_refl _
        | guid guid => exact List.length_filter_le _ _
        | user user => exact List.length_filter_le _ _
      refine ⟨rfl, ?_⟩
      simp only [rank, here, empty]
      omega
    · rename_i d items next
      refine ⟨rfl, ?_⟩
      simp only [rank, here, next, List.length_cons]
      omega
    · exact leaves none s.table

omit calm in
/-- A fetch takes a message, or finds that the message to take is in the other queue. -/
theorem measure_fetch {queue : QueueName} {stopCount : Int}
    (here : s.mq.pc = .enter queue ∨ s.mq.pc = .get queue stopCount)
    (waits : s.mq.waiting .informer ≠ [] ∨ s.mq.waiting .account ≠ []) (budget : Int) :
    waitingCount (fetch s.mq queue budget) < waitingCount s.mq ∨
      waitingCount (fetch s.mq queue budget) = waitingCount s.mq ∧
        rank { s with mq := fetch s.mq queue budget } < rank s := by
  rw [waitingCount_fetch]
  cases queue with
  | informer =>
    cases rest : s.mq.waiting .informer with
    | nil =>
      right
      rcases here with here | here <;> simp [rank, movesToFetch, fetch, here, rest]
    | cons m tail =>
      left
      simp [waitingCount, rest]
  | account =>
    cases rest : s.mq.waiting .account with
    | nil =>
      right
      have informer_waits := waits.resolve_right (by simp [rest])
      rcases here with here | here <;> simp [rank, movesToFetch, fetch, here, rest, informer_waits]
    | cons m tail =>
      left
      simp only [waitingCount, rest, reduceCtorEq, ↓reduceIte, List.length_cons]
      omega

/-- Until all is quiet every move brings the worker nearer to it. -/
theorem measure_work (not_quiet : ¬ Quiet s) :
    Prod.Lex (· < ·) (· < ·) (measure (work s)) (measure s) := by
  have nearer (step : waitingCount (work s).mq < waitingCount s.mq ∨
      waitingCount (work s).mq = waitingCount s.mq ∧ rank (work s) < rank s) :
      Prod.Lex (· < ·) (· < ·) (measure (work s)) (measure s) := Prod.lex_def.mpr step
  apply nearer
  cases here : s.mq.pc with
  | body queue m stopCount => exact Or.inr (measure_body calm here)
  | idle =>
    have waits := waits_of_not_quiet calm not_quiet (by simp [here])
    rw [work_between calm.running (by simp [here])]
    right
    simp only [ProcessMQ.work, here, waitingCount, rank, true_and]
    cases s.mq.waiting .informer <;> simp [movesToFetch]
  | enter queue =>
    have waits := waits_of_not_quiet calm not_quiet (by simp [here])
    rw [work_between calm.running (by simp [here])]
    simp only [ProcessMQ.work, here]
    have entering : s.mq.pc = .enter queue ∨ s.mq.pc = .get queue 0 := Or.inl here
    exact measure_fetch entering waits maxCount
  | get queue stopCount =>
    have waits := waits_of_not_quiet calm not_quiet (by simp [here])
    rw [work_between calm.running (by simp [here])]
    simp only [ProcessMQ.work, here]
    exact measure_fetch (Or.inr here) waits stopCount
  | test queue m stopCount =>
    rw [work_between calm.running (by simp [here])]
    right
    cases m with
    | none =>
      have waits := waits_of_not_quiet calm not_quiet (by simp [here])
      simp only [ProcessMQ.work, here, waitingCount, rank, true_and]
      cases queue <;> cases s.mq.waiting .informer <;> simp [movesToFetch, leave]
    | some m =>
      have empty := hand_between calm (by simp [here])
      by_cases stop : stopCount = 0
      · have outside (informerWaits : Bool) (pc : Pc) : movesToFetch informerWaits pc < s.mongo.docs.length + 10 :=
          Nat.lt_of_le_of_lt (movesToFetch_le informerWaits pc) (by omega)
        simp only [ProcessMQ.work, here, stop, waitingCount, rank, ne_eq, not_true_eq_false, ↓reduceIte, true_and]
        cases queue <;> exact outside _ _
      · simp only [ProcessMQ.work, here, stop, waitingCount, rank, empty, ne_eq, not_false_eq_true, ↓reduceIte,
          true_and]
        omega

/-- Going round empty queues changes nothing. -/
theorem work_quiet (quiet : Quiet s) : Quiet (work s) := by
  have no_body (queue : QueueName) (m : ProcessMQ.Message) (stopCount : Int) : s.mq.pc ≠ .body queue m stopCount := by
    intro here
    have idle := quiet.idle queue
    simp [here] at idle
  have empty := quiet.empty
  rw [work_between calm.running no_body]
  refine ⟨calm.running, calm.published, fun asked => ?_, fun asked => ?_⟩
  · cases here : s.mq.pc with
    | idle => simp [ProcessMQ.work, here, empty]
    | enter queue => cases queue <;> cases asked <;> simp [ProcessMQ.work, fetch, here, empty]
    | test queue m stopCount =>
      cases m with
      | none => simp [ProcessMQ.work, here, empty]
      | some m => by_cases stop : stopCount = 0 <;> simp [ProcessMQ.work, here, stop, empty]
    | body queue m stopCount => exact absurd here (no_body queue m stopCount)
    | get queue stopCount => cases queue <;> cases asked <;> simp [ProcessMQ.work, fetch, here, empty]
  · cases here : s.mq.pc with
    | idle => simp [ProcessMQ.work, here]
    | enter queue => simp [ProcessMQ.work, fetch, here, empty]
    | test queue m stopCount =>
      cases m with
      | none => simp [ProcessMQ.work, here]
      | some m =>
        have stop : stopCount = 0 := by
          have idle := quiet.idle queue
          simpa [here] using idle
        simp [ProcessMQ.work, here, stop]
    | body queue m stopCount => exact absurd here (no_body queue m stopCount)
    | get queue stopCount => simp [ProcessMQ.work, fetch, here, empty]

end Moves

/-- Left to itself the worker comes to rest, and stays there. -/
theorem work_settles {s : Replication.State} (calm : Calm s) : ∃ n, ∀ m, n ≤ m →
    (Calm (work^[m] s) ∧ (work^[m] s).mongo = s.mongo) ∧ Quiet (work^[m] s) := by
  have keeps (now : Replication.State) (same : Calm now ∧ now.mongo = s.mongo) :
      Calm (work now) ∧ (work now).mongo = s.mongo :=
    ⟨work_calm now same.1, (work_running same.1.running).2.2.1.trans same.2⟩
  have leads : Progress.LeadsTo work (fun now => Calm now ∧ now.mongo = s.mongo)
      fun now => (Calm now ∧ now.mongo = s.mongo) ∧ Quiet now := by
    refine Progress.leadsTo_of_measure (@WellFoundedRelation.wf (Nat × Nat) _) measure keeps ?_
    intro now same not_quiet
    exact measure_work same.1 fun quiet => not_quiet ⟨same, quiet⟩
  exact leads.forever (fun now rests => ⟨keeps now rests.1, work_quiet rests.1.1 rests.2⟩) ⟨calm, rfl⟩

/-! ## The service after the last write -/

/-- Only requests and the worker's own moves. -/
def Undisturbed (labels : List Service.Label) : Prop :=
  ∀ label ∈ labels, label = .base .work ∨ ∃ thread env met memory, label = .request thread env met memory

def isWork : Service.Label → Bool
  | .base .work => true
  | _ => false

theorem base_of_undisturbed (cfg : CgiService.Config) (filter : VisitorCookie.DigitFilter) (s : Service.State)
    {labels : List Service.Label} (undisturbed : Undisturbed labels) :
    (exec (Service.step cfg filter) s labels).base = work^[labels.countP isWork] s.base := by
  induction labels generalizing s with
  | nil => rfl
  | cons label rest ih =>
    have later := ih (Service.step cfg filter s label) fun other member => undisturbed other (List.mem_cons_of_mem _ member)
    rw [exec_cons, later]
    rcases undisturbed label List.mem_cons_self with rfl | ⟨thread, env, met, memory, rfl⟩
    · rw [List.countP_cons_of_pos rfl, Function.iterate_succ_apply]
      rfl
    · rw [List.countP_cons_of_neg (by simp [isWork])]
      congr 1
      rcases step_base cfg filter s (.request thread env met memory) with same | ⟨l, is_base, -⟩
      · exact same
      · cases is_base

/-- **After the last write every page catches up.** For every collection and
every interleaving in which no fetched informer message was dropped, once every
write has been published and no more informer messages wait than the round still
takes, there is a number of moves after which, however requests are put in
between, every thread answers every request for an informer from the fields its
document has, and goes on doing so. -/
theorem catches_up (cfg : CgiService.Config) (filter : VisitorCookie.DigitFilter) (mongo : Collection)
    (serverName : Bytes) (threads : Nat → Thread) {labels : List Service.Label}
    (kept : EveryStep (Service.step cfg filter) (fun _ _ next => NoneDropped next.base)
      (Service.initial mongo serverName threads) labels)
    (serving : (exec (Service.step cfg filter) (Service.initial mongo serverName threads) labels).Serving)
    (published : ∀ guid,
      (exec (Service.step cfg filter) (Service.initial mongo serverName threads) labels).base.outbox guid = [])
    (fits : Fits (exec (Service.step cfg filter) (Service.initial mongo serverName threads) labels).base.mq) :
    ∃ n, ∀ later, Undisturbed later → n ≤ later.countP isWork → ∀ thread request, Names request →
      request.raises = false →
        answer cfg (exec (Service.step cfg filter) (Service.initial mongo serverName threads) (labels ++ later))
            thread request =
          respond cfg.core request
            (((exec (Service.step cfg filter) (Service.initial mongo serverName threads) labels).base.mongo.docs.find?
              fun d => d.guid = request.params.informerId).map
                fun d => Informer.ofRow cfg.core.rangeCategory d.row) := by
  have calm : Calm _ := ⟨serving, published, consistent_run cfg filter mongo serverName threads kept, fits⟩
  obtain ⟨n, rests⟩ := work_settles calm
  refine ⟨n, fun later undisturbed enough thread request names runs => ?_⟩
  rw [exec_append, answer_eq_respond names, runs, if_neg Bool.false_ne_true, base_of_undisturbed cfg filter _ undisturbed]
  obtain ⟨⟨calm_then, same_mongo⟩, quiet⟩ := rests _ enough
  have empty := hand_of_quiet (calm_then.consistent.handling · calm_then.running) quiet
  have settled : Settled _ request.params.informerId := ⟨pending_of_quiet empty quiet _, by simp [empty]⟩
  rw [row_of_settled calm_then.consistent (Or.inr calm_then.running) settled, same_mongo, Option.map_map]
  rfl

/-- The worker starts, and a document is created and announced. -/
def created : List Service.Label :=
  (List.replicate 4 .work ++ [.write (.create shopDoc), .publish (bytes "a1b2")] : List Replication.Label).map .base

theorem created_outbox : (exec (Service.step CgiService.shop VisitorCookie.asciiFilter)
    (Service.initial Collection.empty [] shopThreads) created).base.outbox =
      Function.update (Function.update (fun _ => []) (bytes "a1b2") [.update]) (bytes "a1b2") [] := rfl

/-- The page of the new document comes, and stays. -/
theorem catches_up_created : ∃ n, ∀ later, Undisturbed later → n ≤ later.countP isWork →
    answer CgiService.shop (exec (Service.step CgiService.shop VisitorCookie.asciiFilter)
        (Service.initial Collection.empty [] shopThreads) (created ++ later)) 0 shopRequest =
      respond CgiService.shop.core shopRequest (some (Informer.ofRow .null shopDoc.row)) := by
  obtain ⟨n, current⟩ := catches_up CgiService.shop VisitorCookie.asciiFilter Collection.empty [] shopThreads
    (show EveryStep _ _ _ created by decide +kernel) (by decide +kernel)
    (fun guid => by rw [created_outbox]; simp) (by decide +kernel)
  exact ⟨n, fun later undisturbed enough => current later undisturbed enough 0 shopRequest shopRequest_names rfl⟩

end WorkerInformer.CatchingUp
