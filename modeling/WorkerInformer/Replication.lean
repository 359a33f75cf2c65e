import WorkerInformer.Replica

/-! `BaseCore`: from the main database over the message queues to the local
table. Writes, messages and the worker's moves come in any order; the worker
binds its queues, reads and stores all informers, and then goes round its
queues. A message says only that something about a guid changed: the worker
reads what is there when it handles the message, and stores what it read
document by document while the writes go on, each SQL statement with its intended
effect. -/
namespace WorkerInformer.Replication
open Runs Bytes InformerTable MainDatabase Replica
open ProcessMQ (Message QueueName Filter Call Pc dispatch inHand)

/-- How far the constructor of `BaseCore` has come: the queues are declared,
`mq_informer_` is bound, `mq_account_` is bound too, `LoadAllEntities` stores
what it has read, and the rounds of `ProcessMQ` begin. -/
inductive Phase
  | declared
  | informerBound
  | bound
  | loading
  | running
  deriving DecidableEq

/-- The main database, its messages that are not yet published, by guid and in
the order of the writes, and the worker. `hand` holds the documents that
`InformerUpdate` has read and still has to store. -/
structure State where
  mongo : Collection
  outbox : Bytes → List Change := fun _ => []
  phase : Phase := .declared
  mq : ProcessMQ.State := ProcessMQ.initial
  hand : Option (List Doc) := none
  table : Table := Table.empty

/-- The worker starts with a new local database. -/
def initial (mongo : Collection) : State := { mongo := mongo }

/-- The choices of an interleaving: a write, the publication of the next message
about a guid or of an `account.update`, or the worker's next move. -/
inductive Label
  | write (w : Write)
  | publish (guid : Bytes)
  | publishAccount (user : Bytes)
  | work

def write (s : State) (w : Write) : State :=
  match s.mongo.write? w with
  | none => s
  | some mongo =>
    { s with
      mongo := mongo
      outbox := Function.update s.outbox w.guid (s.outbox w.guid ++ [w.change]) }

/-- The exchange drops a message no queue is bound for. -/
def publish (s : State) (guid : Bytes) : State :=
  match s.outbox guid with
  | [] => s
  | c :: rest =>
    { s with
      outbox := Function.update s.outbox guid rest
      mq := if s.phase = .declared then s.mq else ProcessMQ.step s.mq (.publish .informer (c.message guid)) }

def publishAccount (s : State) (user : Bytes) : State :=
  if s.phase = .declared ∨ s.phase = .informerBound then s
  else { s with mq := ProcessMQ.step s.mq (.publish .account ⟨bytes "account.update", user⟩) }

/-- The loop body of a message: `InformerUpdate` reads, stores document by
document and returns; `InformerRemove` is one statement. -/
def handle (s : State) : Option Call → State
  | none => { s with mq := ProcessMQ.work s.mq }
  | some (.informerRemove id) => { s with table := remove s.table id, mq := ProcessMQ.work s.mq }
  | some (.informerUpdate query) =>
    match s.hand with
    | none => { s with hand := some (s.mongo.read query) }
    | some (d :: items) => { s with table := store s.table d, hand := some items }
    | some [] => { s with hand := none, mq := ProcessMQ.work s.mq }

/-- The worker's next move. -/
def work (s : State) : State :=
  match s.phase with
  | .declared => { s with phase := .informerBound }
  | .informerBound => { s with phase := .bound }
  | .bound => { s with phase := .loading, hand := some (s.mongo.read .all) }
  | .loading =>
    match s.hand with
    | some (d :: items) => { s with table := store s.table d, hand := some items }
    | _ => { s with phase := .running, hand := none }
  | .running =>
    match s.mq.pc with
    | .body queue m _ => handle s (dispatch queue m)
    | _ => { s with mq := ProcessMQ.work s.mq }

def step (s : State) : Label → State
  | .write w => write s w
  | .publish guid => publish s guid
  | .publishAccount user => publishAccount s user
  | .work => work s

/-! ## What is still to come -/

/-- The change of this informer a message of the informer queue announces. -/
def announces (guid : Bytes) (m : Message) : Option Change :=
  match dispatch .informer m with
  | some (.informerUpdate (.guid asked)) => if asked = guid then some .update else none
  | some (.informerRemove id) => if id = guid then some .delete else none
  | _ => none

/-- The informer messages the worker has not acted on: the one it handles unless
it has read the documents for it, and those that wait. -/
def unread (s : State) : List Message :=
  (if s.hand.isSome then [] else (inHand s.mq.pc .informer).toList) ++ s.mq.waiting .informer

/-- The changes of a guid that are to come, on their way or not yet published. -/
def pending (s : State) (guid : Bytes) : List Change :=
  (unread s).filterMap (announces guid) ++ s.outbox guid

def view (s : State) : View := ⟨s.mongo, s.table, s.hand.getD [], pending s⟩

def Loaded (s : State) : Prop := s.phase = .loading ∨ s.phase = .running

theorem announces_message (guid asked : Bytes) (c : Change) :
    announces asked (c.message guid) = if guid = asked then some c else none := by
  cases c <;> rfl

/-- The invariant of every run. -/
structure Consistent (s : State) : Prop where
  sound : (view s).Sound
  covered : Loaded s → (view s).Covered
  empty : ¬ Loaded s → s.table.rows = [] ∧ s.hand = none
  unbound : s.phase = .declared → s.mq.waiting .informer = []
  idle : s.phase ≠ .running → s.mq.pc = .idle
  handling : s.hand ≠ none → s.phase = .running →
    ∃ queue m stopCount query, s.mq.pc = .body queue m stopCount ∧ dispatch queue m = some (.informerUpdate query)

theorem initial_consistent (mongo : Collection) : Consistent (initial mongo) where
  sound := by
    refine ⟨?_, ?_, ?_, ?_, ?_, ?_⟩ <;> simp [view, initial, Table.empty, pending, unread, ProcessMQ.initial]
  covered loaded := by rcases loaded with loaded | loaded <;> cases loaded
  empty _ := ⟨rfl, rfl⟩
  unbound _ := rfl
  idle _ := rfl
  handling handling := absurd rfl handling

section Steps
variable {s : State}

theorem view_write (mongo : Collection) (w : Write) :
    view { s with
      mongo := mongo
      outbox := Function.update s.outbox w.guid (s.outbox w.guid ++ [w.change]) } = (view s).afterWrite mongo w := by
  simp only [view, View.afterWrite, View.mk.injEq, true_and]
  funext guid
  by_cases here : guid = w.guid
  · subst here
    simp [pending, unread]
  · simp [pending, unread, here]

theorem write_consistent (consistent : Consistent s) (w : Write) : Consistent (write s w) := by
  unfold write
  cases written : s.mongo.write? w with
  | none => exact consistent
  | some mongo =>
    have wrote := wrote_of_write? written
    refine ⟨?_, fun loaded => ?_, consistent.empty, consistent.unbound, consistent.idle, consistent.handling⟩
    · rw [view_write]
      exact consistent.sound.write wrote
    · rw [view_write]
      exact View.Covered.write (consistent.covered loaded) wrote

/-- The informer queue and the message taken from it are as they were. -/
theorem pending_publish {guid : Bytes} {c : Change} {rest : List Change} (next : s.outbox guid = c :: rest) :
    pending { s with
      outbox := Function.update s.outbox guid rest
      mq := ProcessMQ.step s.mq (.publish .informer (c.message guid)) } = pending s := by
  funext asked
  by_cases here : asked = guid
  · subst here
    simp [pending, unread, ProcessMQ.step, next, announces_message]
  · simp [pending, unread, ProcessMQ.step, here, announces_message, Ne.symm here]

theorem view_publish {guid : Bytes} {c : Change} {rest : List Change} (next : s.outbox guid = c :: rest) :
    view { s with
      outbox := Function.update s.outbox guid rest
      mq := ProcessMQ.step s.mq (.publish .informer (c.message guid)) } = view s := by
  simp only [view, pending_publish next]

/-- A message that is dropped is about documents that are still to be read. -/
theorem drop_consistent (consistent : Consistent s) (declared : s.phase = .declared) {guid : Bytes} {c : Change}
    {rest : List Change} (next : s.outbox guid = c :: rest) :
    Consistent { s with outbox := Function.update s.outbox guid rest } := by
  have not_loaded : ¬ Loaded s := by simp [Loaded, declared]
  obtain ⟨no_rows, no_hand⟩ := consistent.empty not_loaded
  have no_unread : unread s = [] := by
    simp [unread, consistent.idle (by simp [declared]), consistent.unbound declared]
  have before (asked : Bytes) : pending s asked = s.outbox asked := by simp [pending, no_unread]
  refine ⟨⟨?_, ?_, ?_, ?_, ?_, ?_⟩, fun loaded => absurd loaded not_loaded, consistent.empty, consistent.unbound,
    consistent.idle, consistent.handling⟩
  · simp [view, no_rows]
  · simp [view, no_hand]
  · simp [view, no_rows]
  · simp [view, no_hand]
  · simp [view, no_hand]
  · have truthful : Truthful s.mongo (pending s) := consistent.sound.last
    apply truthful.of_suffix
    intro asked
    change (unread s).filterMap (announces asked) ++ Function.update s.outbox guid rest asked <:+ pending s asked
    rw [before, no_unread]
    by_cases here : asked = guid
    · subst here
      rw [Function.update_self, next]
      exact List.suffix_cons _ _
    · rw [Function.update_of_ne here]
      exact List.suffix_refl _

theorem publish_consistent (consistent : Consistent s) (guid : Bytes) : Consistent (publish s guid) := by
  unfold publish
  cases next : s.outbox guid with
  | nil => exact consistent
  | cons c rest =>
    by_cases declared : s.phase = .declared
    · simp only [declared, ↓reduceIte]
      have dropped := drop_consistent consistent declared next
      rwa [declared] at dropped
    · simp only [declared, ↓reduceIte]
      refine ⟨?_, fun loaded => ?_, consistent.empty, fun is_declared => absurd is_declared declared,
        consistent.idle, consistent.handling⟩
      · rw [view_publish next]
        exact consistent.sound
      · rw [view_publish next]
        exact consistent.covered loaded

theorem waiting_publishAccount (m : Message) :
    (ProcessMQ.step s.mq (.publish .account m)).waiting .informer = s.mq.waiting .informer := by
  simp [ProcessMQ.step]

theorem view_publishAccount (m : Message) : view { s with mq := ProcessMQ.step s.mq (.publish .account m) } = view s := by
  simp only [view, View.mk.injEq, true_and]
  funext asked
  simp only [pending, unread, waiting_publishAccount]
  rfl

theorem publishAccount_consistent (consistent : Consistent s) (user : Bytes) :
    Consistent (publishAccount s user) := by
  unfold publishAccount
  split
  · exact consistent
  · refine ⟨?_, fun loaded => ?_, consistent.empty,
      fun declared => (waiting_publishAccount _).trans (consistent.unbound declared), consistent.idle,
      consistent.handling⟩
    · rw [view_publishAccount]
      exact consistent.sound
    · rw [view_publishAccount]
      exact consistent.covered loaded

/-! ## The worker's moves -/

/-- The informer messages that are fetched and not dispatched, and those that wait. -/
def waitingOrInHand (mq : ProcessMQ.State) : List Message :=
  (inHand mq.pc .informer).toList ++ mq.waiting .informer

/-- The loop's test will drop the informer message that was fetched for it. -/
def drops : Pc → Bool
  | .test .informer (some _) stopCount => stopCount = 0
  | _ => false

def NoneDropped (s : State) : Prop := drops s.mq.pc = false

instance : DecidablePred NoneDropped := fun _ => inferInstanceAs (Decidable (_ = _))

theorem waitingOrInHand_fetch {mq : ProcessMQ.State} (queue : QueueName) (stopCount : Int)
    (none_in_hand : inHand mq.pc .informer = none)
    (kept : drops (ProcessMQ.fetch mq queue stopCount).pc = false) :
    waitingOrInHand (ProcessMQ.fetch mq queue stopCount) = waitingOrInHand mq := by
  cases queue with
  | account =>
    have other : inHand (.test .account (mq.waiting .account).head? stopCount) .informer = none := by
      cases (mq.waiting .account).head? <;> simp
    simp [waitingOrInHand, ProcessMQ.fetch, none_in_hand, other]
  | informer =>
    cases rest : mq.waiting .informer with
    | nil => simp [waitingOrInHand, ProcessMQ.fetch, none_in_hand, rest]
    | cons m tail =>
      have armed : stopCount ≠ 0 := by
        simpa [ProcessMQ.fetch, rest, drops] using kept
      simp [waitingOrInHand, ProcessMQ.fetch, none_in_hand, rest, armed]

/-- Between the loop bodies no message comes or goes. -/
theorem waitingOrInHand_work {mq : ProcessMQ.State} (no_body : ∀ queue m stopCount, mq.pc ≠ .body queue m stopCount)
    (kept : drops (ProcessMQ.work mq).pc = false) :
    waitingOrInHand (ProcessMQ.work mq) = waitingOrInHand mq := by
  cases here : mq.pc with
  | idle => simp [waitingOrInHand, ProcessMQ.work, here]
  | enter queue =>
    simp only [ProcessMQ.work, here] at kept ⊢
    exact waitingOrInHand_fetch queue _ (by simp [here]) kept
  | test queue m stopCount =>
    cases m with
    | none => simp [waitingOrInHand, ProcessMQ.work, here]
    | some m =>
      by_cases stop : stopCount = 0
      · simp [waitingOrInHand, ProcessMQ.work, here, stop]
      · simp [waitingOrInHand, ProcessMQ.work, here, stop]
  | body queue m stopCount => exact absurd here (no_body queue m stopCount)
  | get queue stopCount =>
    simp only [ProcessMQ.work, here] at kept ⊢
    exact waitingOrInHand_fetch queue _ (by simp [here]) kept

/-- After the loop body its message is no longer in hand. -/
theorem waitingOrInHand_body {mq : ProcessMQ.State} {queue : QueueName} {m : Message} {stopCount : Int}
    (here : mq.pc = .body queue m stopCount) :
    waitingOrInHand mq = (if queue = .informer then [m] else []) ++ mq.waiting .informer ∧
      waitingOrInHand (ProcessMQ.work mq) = mq.waiting .informer := by
  cases queue <;> simp [waitingOrInHand, ProcessMQ.work, here]

theorem pending_of_empty_hand (empty : s.hand = none) (guid : Bytes) :
    pending s guid = (waitingOrInHand s.mq).filterMap (announces guid) ++ s.outbox guid := by
  simp [pending, unread, empty, waitingOrInHand]

theorem view_of_pending {mq : ProcessMQ.State}
    (same : ∀ guid, pending { s with hand := none, mq := mq } guid = pending s guid)
    (nothing : s.hand.getD [] = []) : view { s with hand := none, mq := mq } = view s := by
  simp only [view, View.mk.injEq, true_and]
  exact ⟨nothing.symm, funext same⟩

/-- A move of the loop that leaves what is to come as it is. -/
theorem mq_consistent (consistent : Consistent s) (running : s.phase = .running) (mq : ProcessMQ.State)
    (same : ∀ guid, pending { s with hand := none, mq := mq } guid = pending s guid)
    (nothing : s.hand.getD [] = []) : Consistent { s with hand := none, mq := mq } := by
  have same_view := view_of_pending same nothing
  have loaded : Loaded s := Or.inr running
  refine ⟨?_, fun _ => ?_, fun not_loaded => absurd loaded not_loaded, fun declared => ?_,
    fun not_running => absurd running not_running, fun handling => absurd rfl handling⟩
  · rw [same_view]
    exact consistent.sound
  · rw [same_view]
    exact consistent.covered loaded
  · cases running.symm.trans declared

theorem view_store {d : Doc} {items : List Doc} (next : s.hand = some (d :: items)) :
    view { s with table := store s.table d, hand := some items } = (view s).afterStore d items ∧
      (view s).items = d :: items := by
  refine ⟨?_, by simp [view, next]⟩
  simp only [view, View.afterStore, View.mk.injEq, true_and]
  refine ⟨rfl, ?_⟩
  funext guid
  simp [pending, unread, next]

theorem store_consistent (consistent : Consistent s) {d : Doc} {items : List Doc}
    (next : s.hand = some (d :: items)) : Consistent { s with table := store s.table d, hand := some items } := by
  obtain ⟨same_view, item⟩ := view_store next
  have some_hand : s.hand ≠ none := by simp [next]
  have loaded : Loaded s := by
    by_contra not_loaded
    exact some_hand (consistent.empty not_loaded).2
  refine ⟨?_, fun _ => ?_, fun not_loaded => absurd loaded not_loaded, consistent.unbound, consistent.idle,
    fun _ => consistent.handling some_hand⟩
  · rw [same_view]
    exact consistent.sound.store item
  · rw [same_view]
    exact View.Covered.store (consistent.covered loaded) consistent.sound item

/-- `LoadAllEntities` reads all documents. -/
theorem load_consistent (consistent : Consistent s) (bound : s.phase = .bound) :
    Consistent { s with phase := .loading, hand := some (s.mongo.read .all) } := by
  have not_loaded : ¬ Loaded s := by simp [Loaded, bound]
  have idle : s.mq.pc = .idle := consistent.idle (by simp [bound])
  have same_view : view { s with phase := .loading, hand := some (s.mongo.read .all) } =
      (view s).afterRead s.mongo.docs (pending s) := by
    simp only [view, View.afterRead, View.mk.injEq, true_and]
    refine ⟨rfl, ?_⟩
    funext guid
    simp [pending, unread, idle, (consistent.empty not_loaded).2]
  refine ⟨?_, fun _ => ?_, fun unloaded => absurd (Or.inl rfl) unloaded, fun declared => (by cases declared),
    fun _ => idle, fun _ running => (by cases running)⟩
  · rw [same_view]
    have takes : View.Takes [] (view s).pending (pending s) := ⟨fun _ _ => rfl, Or.inl rfl⟩
    exact consistent.sound.read (fun _ member => member) takes
  · rw [same_view]
    exact fun d member _ => Or.inr member

/-- What a message in the loop body makes the worker do, and what it announces. -/
theorem dispatch_update {queue : QueueName} {m : Message} {query : Filter}
    (called : dispatch queue m = some (.informerUpdate query)) :
    queue = .account ∨ queue = .informer ∧ query = .guid m.body ∧
      ∀ guid, announces guid m = if m.body = guid then some .update else none := by
  cases queue with
  | account => exact Or.inl rfl
  | informer =>
    have is_guid : query = .guid m.body := by
      simp only [dispatch] at called
      split at called
      · cases called
        rfl
      · split at called <;> cases called
    refine Or.inr ⟨rfl, is_guid, fun guid => ?_⟩
    simp [announces, called, is_guid]

theorem dispatch_remove {queue : QueueName} {m : Message} {id : Bytes}
    (called : dispatch queue m = some (.informerRemove id)) :
    queue = .informer ∧ ∀ guid, announces guid m = if id = guid then some .delete else none := by
  cases queue with
  | account =>
    simp only [dispatch] at called
    split at called <;> cases called
  | informer => exact ⟨rfl, fun guid => by simp [announces, called]⟩

/-- The worker is in the loop body of a message that makes it read. -/
def Handles (s : State) : Prop :=
  ∃ queue m stopCount query, s.mq.pc = .body queue m stopCount ∧ dispatch queue m = some (.informerUpdate query)

/-- While a message is handled that calls for no reading, nothing is in hand. -/
theorem hand_of_call (handling : s.hand ≠ none → Handles s) {queue : QueueName} {m : Message} {stopCount : Int}
    (here : s.mq.pc = .body queue m stopCount) (no_update : ∀ query, dispatch queue m ≠ some (.informerUpdate query)) :
    s.hand = none := by
  by_contra some_hand
  obtain ⟨queue', m', stopCount', query, here', called⟩ := handling some_hand
  obtain ⟨rfl, rfl, -⟩ := Pc.body.inj (here.symm.trans here')
  exact no_update query called

/-- Between the loop bodies nothing is in hand. -/
theorem hand_of_no_body (handling : s.hand ≠ none → Handles s)
    (no_body : ∀ queue m stopCount, s.mq.pc ≠ .body queue m stopCount) : s.hand = none := by
  by_contra some_hand
  obtain ⟨queue, m, stopCount, -, here, -⟩ := handling some_hand
  exact no_body queue m stopCount here

theorem pending_ignore (empty : s.hand = none) {queue : QueueName} {m : Message} {stopCount : Int}
    (here : s.mq.pc = .body queue m stopCount) (called : dispatch queue m = none) (guid : Bytes) :
    pending { s with hand := none, mq := ProcessMQ.work s.mq } guid = pending s guid := by
  obtain ⟨before, after⟩ := waitingOrInHand_body here
  rw [pending_of_empty_hand empty, pending_of_empty_hand rfl, before, after]
  cases queue with
  | account => simp
  | informer => simp [announces, called]

theorem pending_loop (empty : s.hand = none) (no_body : ∀ queue m stopCount, s.mq.pc ≠ .body queue m stopCount)
    (kept : NoneDropped { s with mq := ProcessMQ.work s.mq }) (guid : Bytes) :
    pending { s with hand := none, mq := ProcessMQ.work s.mq } guid = pending s guid := by
  rw [pending_of_empty_hand empty, pending_of_empty_hand rfl, waitingOrInHand_work no_body kept]

theorem pending_return {queue : QueueName} {m : Message} {stopCount : Int} (here : s.mq.pc = .body queue m stopCount)
    (stored : s.hand = some []) (guid : Bytes) :
    pending { s with hand := none, mq := ProcessMQ.work s.mq } guid = pending s guid := by
  rw [pending_of_empty_hand rfl, (waitingOrInHand_body here).2]
  simp [pending, unread, stored]

/-- What a removal takes out of what is to come. -/
theorem pending_remove (empty : s.hand = none) {queue : QueueName} {m : Message} {stopCount : Int}
    (here : s.mq.pc = .body queue m stopCount) {id : Bytes} (called : dispatch queue m = some (.informerRemove id)) :
    (∀ guid ≠ id, pending { s with table := remove s.table id, mq := ProcessMQ.work s.mq } guid = pending s guid) ∧
      pending s id = .delete :: pending { s with table := remove s.table id, mq := ProcessMQ.work s.mq } id := by
  obtain ⟨rfl, announced⟩ := dispatch_remove called
  obtain ⟨before, after⟩ := waitingOrInHand_body here
  have change (guid : Bytes) : pending s guid = (if id = guid then [.delete] else []) ++
      pending { s with table := remove s.table id, mq := ProcessMQ.work s.mq } guid := by
    have empty_after : ({ s with table := remove s.table id, mq := ProcessMQ.work s.mq } : State).hand = none := empty
    rw [pending_of_empty_hand empty, pending_of_empty_hand empty_after, before, after]
    by_cases same : id = guid <;> simp [announced, same]
  constructor
  · intro guid other
    simp [change guid, Ne.symm other]
  · simpa using change id

/-- What a reading takes out of what is to come, and that it finds what was announced. -/
theorem pending_read (empty : s.hand = none) {queue : QueueName} {m : Message} {stopCount : Int}
    (here : s.mq.pc = .body queue m stopCount) {query : Filter}
    (called : dispatch queue m = some (.informerUpdate query)) :
    ∃ guid, View.Takes guid (pending s) (pending { s with hand := some (s.mongo.read query) }) ∧
      (pending s guid ≠ pending { s with hand := some (s.mongo.read query) } guid →
        ∀ d ∈ s.mongo.docs, d.guid = guid → d ∈ s.mongo.read query) := by
  obtain ⟨before, -⟩ := waitingOrInHand_body here
  have after (guid : Bytes) : pending { s with hand := some (s.mongo.read query) } guid =
      (s.mq.waiting .informer).filterMap (announces guid) ++ s.outbox guid := rfl
  have unchanged (guid : Bytes) (quiet : queue = .informer → announces guid m = none) :
      pending { s with hand := some (s.mongo.read query) } guid = pending s guid := by
    rw [after, pending_of_empty_hand empty, before]
    cases queue with
    | account => simp
    | informer => simp [quiet rfl]
  rcases dispatch_update called with rfl | ⟨rfl, rfl, announced⟩
  · have same := fun guid => unchanged guid fun account => by cases account
    exact ⟨[], ⟨fun guid _ => same guid, Or.inl (same []).symm⟩, fun different => absurd (same []).symm different⟩
  · refine ⟨m.body, ⟨fun guid other => unchanged guid fun _ => ?_, Or.inr ?_⟩, fun _ d member guid => ?_⟩
    · rw [announced, if_neg (Ne.symm other)]
    · rw [after, pending_of_empty_hand empty, before]
      simp [announced]
    · exact List.mem_filter.mpr ⟨member, decide_eq_true guid⟩

theorem ignore_consistent (consistent : Consistent s) (running : s.phase = .running) {queue : QueueName}
    {m : Message} {stopCount : Int} (here : s.mq.pc = .body queue m stopCount)
    (called : dispatch queue m = none) : Consistent { s with mq := ProcessMQ.work s.mq } := by
  have empty := hand_of_call (consistent.handling · running) here fun query => by simp [called]
  have moved := mq_consistent consistent running _ (pending_ignore empty here called) (by simp [empty])
  rwa [← empty] at moved

theorem remove_consistent (consistent : Consistent s) (running : s.phase = .running) {queue : QueueName}
    {m : Message} {stopCount : Int} (here : s.mq.pc = .body queue m stopCount) {id : Bytes}
    (called : dispatch queue m = some (.informerRemove id)) :
    Consistent { s with table := remove s.table id, mq := ProcessMQ.work s.mq } := by
  have empty := hand_of_call (consistent.handling · running) here fun query => by simp [called]
  have same_view : view { s with table := remove s.table id, mq := ProcessMQ.work s.mq } = (view s).afterRemove id
      (pending { s with table := remove s.table id, mq := ProcessMQ.work s.mq }) := rfl
  obtain ⟨others, head⟩ := pending_remove empty here called
  have none_read : (view s).items = [] := by simp [view, empty]
  have loaded : Loaded s := Or.inr running
  refine ⟨?_, fun _ => ?_, fun not_loaded => absurd loaded not_loaded, fun declared => ?_,
    fun not_running => absurd running not_running, fun handling => absurd empty handling⟩
  · rw [same_view]
    exact consistent.sound.remove none_read others head
  · rw [same_view]
    exact View.Covered.remove (consistent.covered loaded) consistent.sound none_read others head
  · cases running.symm.trans declared

theorem read_consistent (consistent : Consistent s) (running : s.phase = .running) {queue : QueueName}
    {m : Message} {stopCount : Int} (here : s.mq.pc = .body queue m stopCount) {query : Filter}
    (called : dispatch queue m = some (.informerUpdate query)) (empty : s.hand = none) :
    Consistent { s with hand := some (s.mongo.read query) } := by
  have same_view : view { s with hand := some (s.mongo.read query) } =
      (view s).afterRead (s.mongo.read query) (pending { s with hand := some (s.mongo.read query) }) := rfl
  obtain ⟨guid, takes, all⟩ := pending_read empty here called
  have loaded : Loaded s := Or.inr running
  refine ⟨?_, fun _ => ?_, fun not_loaded => absurd loaded not_loaded, consistent.unbound, consistent.idle,
    fun _ _ => ⟨queue, m, stopCount, query, here, called⟩⟩
  · rw [same_view]
    exact consistent.sound.read (fun d member => Collection.mem_of_mem_read member) takes
  · rw [same_view]
    exact View.Covered.read (consistent.covered loaded) (by simp [view, empty]) takes all

/-- `InformerUpdate` returns when it has stored what it read. -/
theorem return_consistent (consistent : Consistent s) (running : s.phase = .running) {queue : QueueName}
    {m : Message} {stopCount : Int} (here : s.mq.pc = .body queue m stopCount) (stored : s.hand = some []) :
    Consistent { s with hand := none, mq := ProcessMQ.work s.mq } := by
  exact mq_consistent consistent running _ (pending_return here stored) (by simp [stored])

theorem handle_consistent (consistent : Consistent s) (running : s.phase = .running) {queue : QueueName}
    {m : Message} {stopCount : Int} (here : s.mq.pc = .body queue m stopCount) :
    Consistent (handle s (dispatch queue m)) := by
  cases called : dispatch queue m with
  | none => exact ignore_consistent consistent running here called
  | some call =>
    cases call with
    | informerRemove id => exact remove_consistent consistent running here called
    | informerUpdate query =>
      simp only [handle]
      split
      · rename_i empty
        exact read_consistent consistent running here called empty
      · rename_i d items next
        exact store_consistent consistent next
      · rename_i stored
        exact return_consistent consistent running here stored

/-- A move of the loop between its bodies. -/
theorem loop_consistent (consistent : Consistent s) (running : s.phase = .running)
    (no_body : ∀ queue m stopCount, s.mq.pc ≠ .body queue m stopCount)
    (kept : NoneDropped { s with mq := ProcessMQ.work s.mq }) :
    Consistent { s with mq := ProcessMQ.work s.mq } := by
  have empty := hand_of_no_body (consistent.handling · running) no_body
  have moved := mq_consistent consistent running _ (pending_loop empty no_body kept) (by simp [empty])
  rwa [← empty] at moved

/-- The constructor binds one more queue. -/
theorem bind_consistent (consistent : Consistent s) {phase : Phase} (before : ¬ Loaded s)
    (after : phase = .informerBound ∨ phase = .bound) : Consistent { s with phase := phase } := by
  have not_loaded : ¬ Loaded { s with phase := phase } := by rcases after with rfl | rfl <;> simp [Loaded]
  have not_running : s.phase ≠ .running := fun running => before (Or.inr running)
  refine ⟨consistent.sound, fun loaded => absurd loaded not_loaded, fun _ => consistent.empty before, ?_,
    fun _ => consistent.idle not_running, ?_⟩
  · rcases after with rfl | rfl <;> exact fun declared => by cases declared
  · rcases after with rfl | rfl <;> exact fun _ running => by cases running

/-- The constructor is done. -/
theorem start_consistent (consistent : Consistent s) (loading : s.phase = .loading)
    (stored : s.hand.getD [] = []) : Consistent { s with phase := .running, hand := none } := by
  have idle : s.mq.pc = .idle := consistent.idle (by simp [loading])
  have same_view : view { s with phase := .running, hand := none } = view s := by
    simp only [view, View.mk.injEq, true_and]
    refine ⟨stored.symm, ?_⟩
    funext guid
    simp [pending, unread, idle]
  refine ⟨?_, fun _ => ?_, fun not_loaded => absurd (Or.inr rfl) not_loaded, fun declared => (by cases declared),
    fun not_running => absurd rfl not_running, fun handling => absurd rfl handling⟩
  · rw [same_view]
    exact consistent.sound
  · rw [same_view]
    exact consistent.covered (Or.inl loading)

theorem work_consistent (consistent : Consistent s) (kept : NoneDropped (work s)) : Consistent (work s) := by
  unfold work at kept ⊢
  cases phase : s.phase with
  | declared => exact bind_consistent consistent (by simp [Loaded, phase]) (Or.inl rfl)
  | informerBound => exact bind_consistent consistent (by simp [Loaded, phase]) (Or.inr rfl)
  | bound => exact load_consistent consistent phase
  | loading =>
    simp only
    split
    · rename_i d items next
      have stored := store_consistent consistent next
      rwa [phase] at stored
    · rename_i others
      apply start_consistent consistent phase
      cases hand : s.hand with
      | none => rfl
      | some items =>
        cases items with
        | nil => rfl
        | cons d items => exact absurd hand (others d items)
  | running =>
    simp only [phase] at kept ⊢
    split
    · rename_i queue m stopCount here
      have handled := handle_consistent consistent phase here
      exact handled
    · rename_i no_body
      have moved := loop_consistent consistent phase no_body
      simp only [phase] at moved
      apply moved
      split at kept
      · rename_i queue m stopCount here
        exact absurd here (no_body queue m stopCount)
      · exact kept

end Steps

theorem step_consistent (s : State) (label : Label) (consistent : Consistent s) (kept : NoneDropped (step s label)) :
    Consistent (step s label) := by
  cases label with
  | write w => exact write_consistent consistent w
  | publish guid => exact publish_consistent consistent guid
  | publishAccount user => exact publishAccount_consistent consistent user
  | work => exact work_consistent consistent kept

/-- Every write has been published, both queues are empty, and the worker has
started and handles no message. -/
structure Quiet (s : State) : Prop where
  started : s.phase = .running
  published : ∀ guid, s.outbox guid = []
  empty : ∀ queue, s.mq.waiting queue = []
  idle : ∀ queue, inHand s.mq.pc queue = none

theorem hand_of_quiet {s : State} (handling : s.hand ≠ none → Handles s) (quiet : Quiet s) : s.hand = none := by
  apply hand_of_no_body handling
  intro queue m stopCount here
  have idle := quiet.idle queue
  simp [here] at idle

theorem pending_of_quiet {s : State} (empty : s.hand = none) (quiet : Quiet s) (guid : Bytes) : pending s guid = [] := by
  rw [pending_of_empty_hand empty, waitingOrInHand, quiet.idle, quiet.empty, quiet.published]
  rfl

/-- **When all is quiet the table is the collection.** For every collection the
worker starts with and every interleaving in which no fetched informer message
is dropped, whenever all writes are published, the queues are empty and nothing
is being handled, the table's rows are those of the documents, each once. -/
theorem quiet_rows (mongo : Collection) (labels : List Label)
    (kept : EveryStep step (fun _ _ next => NoneDropped next) (initial mongo) labels)
    (quiet : Quiet (exec step (initial mongo) labels)) :
    (exec step (initial mongo) labels).table.rows.Perm
      ((exec step (initial mongo) labels).mongo.docs.map Doc.row) := by
  have consistent := guarded_invariant step_consistent (initial_consistent mongo) kept
  have empty := hand_of_quiet (consistent.handling · quiet.started) quiet
  exact View.rows_perm consistent.sound (consistent.covered (Or.inr quiet.started)) (pending_of_quiet empty quiet)
    (by simp [view, empty])

/-- A document of the collection. -/
def shopDoc : Doc := ⟨bytes "a1b2", 17, bytes "shop", Column.default⟩

/-- The worker starts, the document is created and its message handled. -/
def shopRun : List Label :=
  List.replicate 4 .work ++ [.write (.create shopDoc), .publish (bytes "a1b2")] ++ List.replicate 10 .work

theorem shopRun_outbox : (exec step (initial Collection.empty) shopRun).outbox =
    Function.update (Function.update (fun _ => []) (bytes "a1b2") [.update]) (bytes "a1b2") [] := rfl

/-- The run ends with the document's row. -/
theorem quiet_rows_shop : (exec step (initial Collection.empty) shopRun).table.rows.Perm
    ((exec step (initial Collection.empty) shopRun).mongo.docs.map Doc.row) := by
  refine quiet_rows Collection.empty shopRun (by decide +kernel) ⟨by decide +kernel, fun guid => ?_, ?_, ?_⟩
  · rw [shopRun_outbox]
    simp
  · rintro (_ | _) <;> decide +kernel
  · rintro (_ | _) <;> decide +kernel

end WorkerInformer.Replication
