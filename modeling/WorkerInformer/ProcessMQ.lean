import WorkerInformer.Bytes
import WorkerInformer.Runs

/-! `BaseCore::ProcessMQ` as a machine whose labels are the arrivals of
messages and the worker's own moves. The loop over a queue fetches one message
ahead of the test that decides whether the loop goes on, so the accounting of
messages has to follow the fetched one. `accounted_iff_drains` says exactly
when no message is lost: whenever a batch of `MAXCOUNT` messages has been
dispatched, the fetch that follows must find the queue empty. -/
namespace WorkerInformer.ProcessMQ
open Runs

/-- `#define MAXCOUNT 1000`. -/
def maxCount : Int := 1000

/-- A delivered message: `getRoutingKey` and `toString` of its body. -/
structure Message where
  routingKey : Bytes
  body : Bytes
  deriving DecidableEq

/-- `mq_informer_`, bound to `informer.#`, and `mq_account_`, bound to `account.#`. -/
inductive QueueName
  | informer
  | account
  deriving DecidableEq

/-- The Mongo filter a call of `InformerUpdate` reads with; the empty filter is
the one of `LoadAllEntities`. -/
inductive Filter
  | all
  | guid (guid : Bytes)
  | user (user : Bytes)
  deriving DecidableEq

/-- The calls into `ParentDB` a message can cause. -/
inductive Call
  | informerUpdate (query : Filter)
  | informerRemove (id : Bytes)
  deriving DecidableEq

/-- The branches on the routing key in the two loop bodies. Any other key is
logged and otherwise ignored. -/
def dispatch : QueueName → Message → Option Call
  | .informer, m =>
    if m.routingKey = bytes "informer.update" then some (.informerUpdate (.guid m.body))
    else if m.routingKey = bytes "informer.delete" then some (.informerRemove m.body)
    else none
  | .account, m =>
    if m.routingKey = bytes "account.update" then some (.informerUpdate (.user m.body))
    else none

/-- What a message asks for: its queue and its whole routing key say which call
it causes, and its body is what that call is given. -/
inductive Causes : QueueName → Message → Option Call → Prop
  | informerUpdate (guid : Bytes) :
    Causes .informer ⟨bytes "informer.update", guid⟩ (some (.informerUpdate (.guid guid)))
  | informerDelete (id : Bytes) : Causes .informer ⟨bytes "informer.delete", id⟩ (some (.informerRemove id))
  | accountUpdate (user : Bytes) :
    Causes .account ⟨bytes "account.update", user⟩ (some (.informerUpdate (.user user)))
  | otherInformer {m : Message} (updates : m.routingKey ≠ bytes "informer.update")
    (deletes : m.routingKey ≠ bytes "informer.delete") : Causes .informer m none
  | otherAccount {m : Message} (updates : m.routingKey ≠ bytes "account.update") : Causes .account m none

theorem dispatch_causes (queue : QueueName) (m : Message) : Causes queue m (dispatch queue m) := by
  obtain ⟨routingKey, body⟩ := m
  cases queue with
  | informer =>
    by_cases update : routingKey = bytes "informer.update"
    · subst update
      exact .informerUpdate body
    · by_cases delete : routingKey = bytes "informer.delete"
      · subst delete
        exact .informerDelete body
      · simp only [dispatch, update, delete, ↓reduceIte]
        exact .otherInformer update delete
  | account =>
    by_cases update : routingKey = bytes "account.update"
    · subst update
      exact .accountUpdate body
    · simp only [dispatch, update, ↓reduceIte]
      exact .otherAccount update

/-- The line `mq_log_.push_back` receives. -/
def logEntry (m : Message) : Bytes := m.routingKey ++ bytes ":" ++ m.body ++ bytes "</br>"

/-- `boost::circular_buffer::push_back` of a buffer of this capacity. -/
def pushBack {α : Type*} (capacity : Nat) (buffer : List α) (entry : α) : List α :=
  (buffer ++ [entry]).drop (buffer.length + 1 - capacity)

/-- Where the worker stands. `test` is the loop condition with the fetched
message (`none` is `getMessageCount() == -1`), `body` the loop body after the
counter was decremented, `get` the fetch at the end of the body. -/
inductive Pc
  | idle
  | enter (queue : QueueName)
  | test (queue : QueueName) (m : Option Message) (stopCount : Int)
  | body (queue : QueueName) (m : Message) (stopCount : Int)
  | get (queue : QueueName) (stopCount : Int)
  deriving DecidableEq

/-- One pass through a loop body, with the call it made. -/
structure Event where
  queue : QueueName
  message : Message
  call : Option Call
  deriving DecidableEq

/-- The two queues, the worker and what it has done. `published` and `events`
are histories: nothing the worker does depends on them. -/
structure State where
  published : QueueName → List Message := fun _ => []
  waiting : QueueName → List Message := fun _ => []
  pc : Pc := .idle
  mqLog : List Bytes := []
  events : List Event := []

/-- The queues are declared empty and no round has begun. -/
def initial : State := {}

/-- The choices of an interleaving: a message is routed to a queue, or the
worker makes its next move. -/
inductive Label
  | publish (queue : QueueName) (m : Message)
  | work
  deriving DecidableEq

/-- `Get(AMQP_NOACK)` and `getMessage`: the head leaves the broker at once. -/
def fetch (s : State) (queue : QueueName) (stopCount : Int) : State :=
  { s with
    waiting := Function.update s.waiting queue (s.waiting queue).tail
    pc := .test queue (s.waiting queue).head? stopCount }

/-- The end of a loop: the account loop follows the informer loop, and the
round ends after it. -/
def leave : QueueName → Pc
  | .informer => .enter .account
  | .account => .idle

/-- The worker's next move. -/
def work (s : State) : State :=
  match s.pc with
  | .idle => { s with pc := .enter .informer }
  | .enter queue => fetch s queue maxCount
  -- `m->getMessageCount() > -1 && stopCount--`
  | .test queue none _ => { s with pc := leave queue }
  | .test queue (some m) stopCount =>
    if stopCount ≠ 0 then { s with pc := .body queue m (stopCount - 1) }
    else { s with pc := leave queue }
  | .body queue m stopCount =>
    { s with
      mqLog := pushBack 100 s.mqLog (logEntry m)
      events := s.events ++ [⟨queue, m, dispatch queue m⟩]
      pc := .get queue stopCount }
  | .get queue stopCount => fetch s queue stopCount

def step (s : State) : Label → State
  | .publish queue m =>
    { s with
      published := Function.update s.published queue (s.published queue ++ [m])
      waiting := Function.update s.waiting queue (s.waiting queue ++ [m]) }
  | .work => work s

/-! ## Every message is dispatched exactly once -/

/-- The messages of a queue whose loop body has run, in that order. -/
def dispatched (s : State) (queue : QueueName) : List Message :=
  (s.events.filter (·.queue = queue)).map Event.message

/-- The message of this queue that has been fetched and is about to be
dispatched, if there is one. A message fetched with the counter at zero is not:
the loop condition ends the loop. -/
def inHand : Pc → QueueName → Option Message
  | .test queue (some m) stopCount, asked => if queue = asked ∧ stopCount ≠ 0 then some m else none
  | .body queue m _, asked => if queue = asked then some m else none
  | _, _ => none

@[simp] theorem inHand_idle (asked : QueueName) : inHand .idle asked = none := rfl

@[simp] theorem inHand_enter (queue asked : QueueName) : inHand (.enter queue) asked = none := rfl

@[simp] theorem inHand_get (queue asked : QueueName) (stopCount : Int) :
    inHand (.get queue stopCount) asked = none := rfl

@[simp] theorem inHand_test_none (queue asked : QueueName) (stopCount : Int) :
    inHand (.test queue none stopCount) asked = none := rfl

@[simp] theorem inHand_test_some (queue asked : QueueName) (m : Message) (stopCount : Int) :
    inHand (.test queue (some m) stopCount) asked =
      if queue = asked ∧ stopCount ≠ 0 then some m else none := rfl

@[simp] theorem inHand_body (queue asked : QueueName) (m : Message) (stopCount : Int) :
    inHand (.body queue m stopCount) asked = if queue = asked then some m else none := rfl

@[simp] theorem inHand_leave (queue asked : QueueName) : inHand (leave queue) asked = none := by
  cases queue <;> rfl

/-- No message is lost, repeated or reordered, each dispatched one caused the
call it asks for, and the log holds the last hundred dispatched ones. -/
structure Accounted (s : State) : Prop where
  conserved : ∀ queue,
    dispatched s queue ++ (inHand s.pc queue).toList ++ s.waiting queue = s.published queue
  called : ∀ e ∈ s.events, Causes e.queue e.message e.call
  logged : s.mqLog = (s.events.map fun e => logEntry e.message).drop (s.events.length - 100)

/-- The fetch that follows the last message of a full batch finds the queue empty. -/
def BatchDrains (s : State) : Label → Prop
  | .publish _ _ => True
  | .work => ∀ queue, s.pc = .get queue 0 → s.waiting queue = []

theorem initial_accounted : Accounted initial :=
  ⟨fun _ => rfl, fun _ member => (List.not_mem_nil member).elim, rfl⟩

theorem publish_accounted {s : State} (accounted : Accounted s) (queue : QueueName) (m : Message) :
    Accounted (step s (.publish queue m)) := by
  refine ⟨fun asked => ?_, accounted.called, accounted.logged⟩
  have before := accounted.conserved asked
  by_cases same : asked = queue
  · subst same
    simp only [step, Function.update_self, dispatched] at before ⊢
    rw [← before]
    simp
  · simpa [step, dispatched, Function.update_of_ne same] using before

/-- A fetch keeps the account unless it takes a message with the counter at zero. -/
theorem fetch_accounted_iff {s : State} (queue : QueueName) (stopCount : Int)
    (accounted : Accounted s) (empty : ∀ asked, inHand s.pc asked = none) :
    Accounted (fetch s queue stopCount) ↔ (stopCount = 0 → s.waiting queue = []) := by
  have before := fun asked => by simpa [empty] using accounted.conserved asked
  constructor
  · intro after zero
    have conserved := after.conserved queue
    cases rest : s.waiting queue with
    | nil => rfl
    | cons m tail =>
      have long := congrArg List.length (before queue)
      have short := congrArg List.length conserved
      simp [fetch, rest, zero, dispatched] at long short
      omega
  · intro drains
    refine ⟨fun asked => ?_, accounted.called, accounted.logged⟩
    have prior := before asked
    by_cases same : asked = queue
    · subst same
      cases rest : s.waiting asked with
      | nil => simpa [fetch, rest, dispatched] using prior
      | cons m tail =>
        have armed : stopCount ≠ 0 := fun zero => by simp [drains zero] at rest
        simpa [fetch, rest, armed, dispatched] using prior
    · have other : inHand (.test queue (s.waiting queue).head? stopCount) asked = none := by
        cases (s.waiting queue).head? <;> simp [Ne.symm same]
      simpa [fetch, other, Function.update_of_ne same, dispatched] using prior

theorem pushBack_drop {α : Type*} (capacity : Nat) (entries : List α) (entry : α) :
    pushBack capacity (entries.drop (entries.length - capacity)) entry =
      (entries ++ [entry]).drop (entries.length + 1 - capacity) := by
  have whole : entries.drop (entries.length - capacity) ++ [entry] =
      (entries ++ [entry]).drop (entries.length - capacity) :=
    (List.drop_append_of_le_length (by omega)).symm
  rw [pushBack, whole, List.drop_drop, List.length_drop]
  congr 1
  omega

theorem body_accounted {s : State} {queue : QueueName} {m : Message} {stopCount : Int}
    (accounted : Accounted s) (here : s.pc = .body queue m stopCount) : Accounted (work s) := by
  simp only [work, here]
  refine ⟨fun asked => ?_, fun e member => ?_, ?_⟩
  · have before := accounted.conserved asked
    by_cases same : queue = asked
    · subst same
      simpa [here, dispatched, List.filter_append] using before
    · simpa [here, dispatched, List.filter_append, same] using before
  · rcases List.mem_append.mp member with earlier | new
    · exact accounted.called e earlier
    · obtain rfl := List.mem_singleton.mp new
      exact dispatch_causes queue m
  · simp only [accounted.logged, List.map_append, List.map_cons, List.map_nil, List.length_append,
      List.length_cons, List.length_nil]
    have keep := pushBack_drop 100 (s.events.map fun e => logEntry e.message) (logEntry m)
    simpa using keep

/-- A move that neither fetches nor dispatches keeps the account. -/
theorem pc_accounted {s : State} (pc : Pc) (accounted : Accounted s)
    (same : ∀ queue, inHand pc queue = inHand s.pc queue) : Accounted { s with pc := pc } := by
  refine ⟨fun queue => ?_, accounted.called, accounted.logged⟩
  simpa [dispatched, same] using accounted.conserved queue

/-- One step keeps the account exactly when its fetch does not take a message
past the end of a full batch. -/
theorem step_accounted_iff (s : State) (label : Label) (accounted : Accounted s) :
    Accounted (step s label) ↔ BatchDrains s label := by
  cases label with
  | publish queue m => exact iff_of_true (publish_accounted accounted queue m) trivial
  | work =>
    simp only [step, BatchDrains]
    cases here : s.pc with
    | idle =>
      refine iff_of_true ?_ (by simp)
      simpa [work, here] using pc_accounted (.enter .informer) accounted (by simp [here])
    | enter queue =>
      have armed := fetch_accounted_iff queue maxCount accounted (by simp [here])
      simpa [work, here, maxCount] using armed
    | test queue m stopCount =>
      refine iff_of_true ?_ (by simp)
      cases m with
      | none => simpa [work, here] using pc_accounted (leave queue) accounted (by simp [here])
      | some m =>
        by_cases stop : stopCount = 0
        · simpa [work, here, stop] using
            pc_accounted (leave queue) accounted (by simp [here, stop])
        · simpa [work, here, stop] using
            pc_accounted (.body queue m (stopCount - 1)) accounted (by simp [here, stop])
    | body queue m stopCount => exact iff_of_true (body_accounted accounted here) (by simp)
    | get queue stopCount =>
      have drains := fetch_accounted_iff queue stopCount accounted (by simp [here])
      simp only [work, here, drains, Pc.get.injEq]
      constructor
      · rintro empty _ ⟨rfl, zero⟩
        exact empty zero
      · intro all zero
        exact all queue ⟨rfl, zero⟩

/-- **No message is lost in exactly the runs whose full batches drain their
queue.** In every run, every state reached accounts for every message if and
only if no fetch after a batch of `MAXCOUNT` finds one more message. -/
theorem accounted_iff_drains (labels : List Label) :
    EveryStep step (fun _ _ next => Accounted next) initial labels ↔
      EveryStep step (fun s label _ => BatchDrains s label) initial labels :=
  everyStep_iff_guarded step_accounted_iff labels initial_accounted

/-- What waits or is about to be dispatched has been published. -/
def Heard (s : State) : Prop :=
  ∀ queue, ∀ m ∈ (inHand s.pc queue).toList ++ s.waiting queue, m ∈ s.published queue

theorem published_work (s : State) : (work s).published = s.published := by
  unfold work
  split
  · rfl
  · rfl
  · rfl
  · split <;> rfl
  · rfl
  · rfl

theorem fetch_heard {s : State} (heard : Heard s) (queue : QueueName) (stopCount : Int) :
    Heard (fetch s queue stopCount) := by
  intro asked m member
  refine heard asked m (List.mem_append_right _ ?_)
  by_cases same : asked = queue
  · subst same
    cases rest : s.waiting asked with
    | nil => simp [fetch, rest] at member
    | cons first tail =>
      by_cases armed : stopCount = 0
      · simp only [fetch, rest, armed, List.head?_cons, inHand_test_some, ne_eq, not_true_eq_false, and_false,
          ↓reduceIte, Option.toList_none, List.nil_append, Function.update_self, List.tail_cons] at member
        exact List.mem_cons_of_mem _ member
      · simpa [fetch, rest, armed] using member
  · have other : inHand (.test queue (s.waiting queue).head? stopCount) asked = none := by
      cases (s.waiting queue).head? <;> simp [Ne.symm same]
    simpa [fetch, other, Function.update_of_ne same] using member

theorem work_heard {s : State} (heard : Heard s) : Heard (work s) := by
  intro asked m member
  rw [published_work]
  cases here : s.pc with
  | idle => exact heard asked m (by simpa [work, here] using member)
  | enter queue =>
    rw [work, here] at member
    exact fetch_heard heard queue _ asked m member
  | test queue held stopCount =>
    cases held with
    | none => exact heard asked m (by simpa [work, here] using member)
    | some first =>
      by_cases stop : stopCount = 0
      · exact heard asked m (by simpa [work, here, stop] using member)
      · exact heard asked m (by simpa [work, here, stop] using member)
  | body queue first stopCount =>
    have waits : m ∈ s.waiting asked := by simpa [work, here] using member
    exact heard asked m (List.mem_append_right _ waits)
  | get queue stopCount =>
    rw [work, here] at member
    exact fetch_heard heard queue _ asked m member

theorem publish_heard {s : State} (heard : Heard s) (queue : QueueName) (m : Message) :
    Heard (step s (.publish queue m)) := by
  intro asked other member
  by_cases same : asked = queue
  · subst same
    simp only [step, Function.update_self, ← List.append_assoc] at member ⊢
    rcases List.mem_append.mp member with before | new
    · exact List.mem_append_left _ (heard asked other before)
    · exact List.mem_append_right _ new
  · simp only [step, Function.update_of_ne same] at member ⊢
    exact heard asked other member

/-! ## A batch that does not drain its queue -/

/-- Publishing to a queue while the worker stands still. -/
theorem exec_publish (n : Nat) (s : State) (queue : QueueName) (m : Message) :
    let after := exec step s (List.replicate n (.publish queue m))
    after.pc = s.pc ∧ after.events = s.events ∧
      after.waiting queue = s.waiting queue ++ List.replicate n m ∧
      after.published queue = s.published queue ++ List.replicate n m := by
  induction n generalizing s with
  | zero => simp
  | succ n ih =>
    obtain ⟨pc, events, waiting, published⟩ := ih (step s (.publish queue m))
    simp only [List.replicate_succ, exec_cons]
    exact ⟨pc, events, by rw [waiting]; simp [step], by rw [published]; simp [step]⟩

/-- The worker is at the test of the informer loop with `left` dispatches to go
in this batch, copies of one message in hand and ahead of it, and `behind` more
after the batch. -/
structure MidBatch (m : Message) (left behind handled total : Nat) (s : State) : Prop where
  pc : s.pc = .test .informer (some m) left
  waiting : s.waiting .informer = List.replicate (left + behind) m
  handled : (dispatched s .informer).length = handled
  total : (s.published .informer).length = total

theorem midBatch_step {m : Message} {left behind handled total : Nat} {s : State}
    (mid : MidBatch m (left + 1) behind handled total s) :
    MidBatch m left behind (handled + 1) total (exec step s (List.replicate 3 .work)) := by
  have more : ((left + 1 : Nat) : Int) ≠ 0 := by omega
  have first : work s = { s with pc := .body .informer m left } := by
    rw [work, mid.pc]
    simp only [more, ne_eq, not_false_eq_true, ↓reduceIte]
    simp
  have second : work (work s) =
      { s with
        mqLog := pushBack 100 s.mqLog (logEntry m)
        events := s.events ++ [⟨.informer, m, dispatch .informer m⟩]
        pc := .get .informer left } := by
    rw [first]
    rfl
  have refill : s.waiting .informer = m :: List.replicate (left + behind) m := by
    rw [mid.waiting, show left + 1 + behind = left + behind + 1 by omega, List.replicate_succ]
  have third : exec step s (List.replicate 3 .work) = fetch (work (work s)) .informer left := by
    change work (work (work s)) = _
    rw [second]
    rfl
  rw [third, second]
  constructor
  · simp [fetch, refill]
  · simp [fetch, refill]
  · simpa [fetch, dispatched, List.filter_append] using mid.handled
  · exact mid.total

theorem midBatch_run {m : Message} {left behind handled total : Nat} {s : State}
    (mid : MidBatch m left behind handled total s) :
    MidBatch m 0 behind (handled + left) total (exec step s (List.replicate (3 * left) .work)) := by
  induction left generalizing handled s with
  | zero => simpa using mid
  | succ left ih =>
    have rest := ih (midBatch_step mid)
    rw [← exec_append, ← List.replicate_add] at rest
    rw [show 3 * (left + 1) = 3 + 3 * left by omega, show handled + (left + 1) = handled + 1 + left by omega]
    exact rest

/-- The first round over a queue that holds one message more than a batch
leaves its loop with that message in hand. -/
theorem one_more_than_a_batch (m : Message) {batch : Nat} (full : (batch : Int) = maxCount) :
    ¬ Accounted (exec step initial
      (List.replicate (batch + 1) (.publish .informer m) ++ List.replicate (2 + 3 * batch) .work)) := by
  intro accounted
  obtain ⟨pc, events, waiting, published⟩ := exec_publish (batch + 1) initial .informer m
  rw [List.replicate_add 2, exec_append, exec_append] at accounted
  generalize exec step initial (List.replicate (batch + 1) (.publish .informer m)) = filled at *
  have idle : filled.pc = .idle := pc
  have entered : MidBatch m batch 0 0 (batch + 1) (exec step filled (List.replicate 2 .work)) := by
    have round : exec step filled (List.replicate 2 .work) =
        fetch { filled with pc := .enter .informer } .informer maxCount := by
      change work (work filled) = _
      simp [work, idle]
    rw [round]
    constructor
    · simp [fetch, waiting, initial, List.replicate_succ, full]
    · simp [fetch, waiting, initial]
    · simp [fetch, dispatched, events, initial]
    · simp [fetch, published, initial]
  have final := midBatch_run entered
  generalize exec step _ (List.replicate (3 * batch) Label.work) = stopped at accounted final
  have conserved := congrArg List.length (accounted.conserved .informer)
  simp [final.pc, final.waiting, final.handled, final.total] at conserved

/-- With 1001 messages waiting, the first round fetches all of them, dispatches
1000 and drops the last: it is in no queue and will never be dispatched. -/
theorem full_batch_loses_message :
    ¬ Accounted (exec step initial
      (List.replicate (1000 + 1) (.publish .informer ⟨bytes "informer.update", bytes "a"⟩) ++
        List.replicate (2 + 3 * 1000) .work)) :=
  one_more_than_a_batch _ rfl

end WorkerInformer.ProcessMQ
