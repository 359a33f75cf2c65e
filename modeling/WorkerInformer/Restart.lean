import WorkerInformer.Replication

/-! A worker that starts on the file of an earlier run. `DataBase` opens the file
and sets `reopen`, and `LoadAllEntities` returns at once: the worker goes on with
the table it finds. Its queues went with the run before, so what was published
until it has bound the new ones is lost, and the table is put right only by what
is published from then on. The file is one that such runs have made, and each SQL
statement has its intended effect. -/
namespace WorkerInformer.Restart
open Runs Bytes InformerTable MainDatabase Replica
open Replication (State Label Phase Quiet NoneDropped Handles announces pending unread view waitingOrInHand)
open ProcessMQ (Message QueueName Filter Pc dispatch inHand)

/-- The steps when `reopen` is set. -/
def reopenedStep (s : State) : Label → State
  | .work => if s.phase = .bound then { s with phase := .running } else Replication.work s
  | .write w => Replication.write s w
  | .publish guid => Replication.publish s guid
  | .publishAccount user => Replication.publishAccount s user

/-- The process is started again: the queues are auto-delete and exclusive and
their names are new, the file and the main database are what they were. -/
def restart (s : State) : State := { s with phase := .declared, mq := ProcessMQ.initial, hand := none }

/-- The worker with `DataBase::reopen`. -/
structure World where
  worker : State
  reopen : Bool := false

inductive Event
  | restart
  | label (label : Label)

/-- There is a file from the first start on. -/
def step (w : World) : Event → World
  | .restart => { worker := restart w.worker, reopen := true }
  | .label label =>
    { w with worker := if w.reopen then reopenedStep w.worker label else Replication.step w.worker label }

def firstStart (mongo : Collection) : World := { worker := Replication.initial mongo }

theorem exec_reopened {w : World} (reopened : w.reopen = true) (labels : List Label) :
    exec step w (labels.map .label) = { w with worker := exec reopenedStep w.worker labels } := by
  induction labels generalizing w with
  | nil => rfl
  | cons label labels ih =>
    have next : step w (.label label) = { w with worker := reopenedStep w.worker label } := by simp [step, reopened]
    have rest := ih (w := { w with worker := reopenedStep w.worker label }) reopened
    rw [List.map_cons, exec_cons, next, rest]
    rfl

theorem everyStep_reopened {w : World} (reopened : w.reopen = true) {labels : List Label}
    {holds : State → Prop} (all : EveryStep step (fun _ _ next => holds next.worker) w (labels.map .label)) :
    EveryStep reopenedStep (fun _ _ next => holds next) w.worker labels := by
  induction labels generalizing w with
  | nil => trivial
  | cons label labels ih =>
    have next : step w (.label label) = { w with worker := reopenedStep w.worker label } := by simp [step, reopened]
    obtain ⟨first, rest⟩ := all
    rw [next] at first rest
    exact ⟨first, ih (w := { w with worker := reopenedStep w.worker label }) reopened rest⟩

/-! ## What holds whenever the worker may be started -/

/-- Rows and read documents have keys of documents, unpublished changes end in
what became of the document, and a worker that has bound nothing has done
nothing. -/
structure Startable (s : State) : Prop where
  rows_born : ∀ row ∈ s.table.rows, (row.id, row.guid) ∈ s.mongo.born
  items_born : ∀ d ∈ s.hand.getD [], (d.guidInt, d.guid) ∈ s.mongo.born
  last : Truthful s.mongo s.outbox
  fresh : s.phase = .declared → s.mq = ProcessMQ.initial ∧ s.hand = none

section Startable
variable {s : State}

theorem initial_startable (mongo : Collection) : Startable (Replication.initial mongo) := by
  refine ⟨?_, ?_, ?_, ?_⟩ <;> simp [Replication.initial, Table.empty, Truthful]

theorem restart_startable (startable : Startable s) : Startable (restart s) :=
  ⟨startable.rows_born, by simp [restart], startable.last, fun _ => ⟨rfl, rfl⟩⟩

theorem write_startable (startable : Startable s) (w : Write) : Startable (Replication.write s w) := by
  unfold Replication.write
  cases written : s.mongo.write? w with
  | none => exact startable
  | some mongo =>
    have wrote := wrote_of_write? written
    exact ⟨fun row member => wrote.born _ (startable.rows_born row member),
      fun d member => wrote.born _ (startable.items_born d member), startable.last.write wrote, startable.fresh⟩

theorem publish_startable (startable : Startable s) (guid : Bytes) : Startable (Replication.publish s guid) := by
  unfold Replication.publish
  cases next : s.outbox guid with
  | nil => exact startable
  | cons c rest =>
    refine ⟨startable.rows_born, startable.items_born, startable.last.of_suffix fun asked => ?_, fun declared => ?_⟩
    · change Function.update s.outbox guid rest asked <:+ s.outbox asked
      by_cases here : asked = guid
      · subst here
        rw [Function.update_self, next]
        exact List.suffix_cons _ _
      · exact (Function.update_of_ne here rest s.outbox).symm ▸ List.suffix_refl _
    · simpa [if_pos declared] using startable.fresh declared

theorem publishAccount_startable (startable : Startable s) (user : Bytes) :
    Startable (Replication.publishAccount s user) := by
  unfold Replication.publishAccount
  split
  · exact startable
  · rename_i bound
    exact ⟨startable.rows_born, startable.items_born, startable.last, fun declared => absurd (Or.inl declared) bound⟩

/-- The worker reads, or stores nothing. -/
private theorem startable_of_hand (startable : Startable s) {phase : Phase} (begun : phase ≠ .declared)
    {mq : ProcessMQ.State} {hand : Option (List Doc)} (there : ∀ d ∈ hand.getD [], d ∈ s.mongo.docs) :
    Startable { s with phase := phase, mq := mq, hand := hand } :=
  ⟨startable.rows_born, fun d member => s.mongo.docs_born d (there d member), startable.last,
    fun declared => absurd declared begun⟩

theorem store_startable (startable : Startable s) (begun : s.phase ≠ .declared) {d : Doc} {items : List Doc}
    (next : s.hand = some (d :: items)) : Startable { s with table := store s.table d, hand := some items } := by
  have born : ∀ other ∈ d :: items, (other.guidInt, other.guid) ∈ s.mongo.born := by
    simpa [next] using startable.items_born
  have key := s.mongo.lower_case _ (born d List.mem_cons_self)
  have paired : Paired s.table d := fun row member same =>
    s.mongo.guid_of_born (startable.rows_born row member) (same ▸ born d List.mem_cons_self)
  refine ⟨fun row member => ?_, fun other member => born other (List.mem_cons_of_mem _ member), startable.last,
    fun declared => absurd declared begun⟩
  rcases mem_store key paired member with rfl | ⟨old, -⟩
  · exact born d List.mem_cons_self
  · exact startable.rows_born row old

theorem handle_startable (startable : Startable s) (begun : s.phase ≠ .declared) (call : Option ProcessMQ.Call) :
    Startable (Replication.handle s call) := by
  cases call with
  | none => exact ⟨startable.rows_born, startable.items_born, startable.last, fun declared => absurd declared begun⟩
  | some call =>
    cases call with
    | informerRemove id =>
      refine ⟨fun row member => startable.rows_born row ?_, startable.items_born, startable.last,
        fun declared => absurd declared begun⟩
      change row ∈ (remove s.table id).rows at member
      unfold remove at member
      split at member
      · exact member
      · exact List.mem_of_mem_filter member
    | informerUpdate query =>
      simp only [Replication.handle]
      split
      · exact startable_of_hand startable begun fun d member => Collection.mem_of_mem_read member
      · rename_i d items next
        exact store_startable startable begun next
      · exact startable_of_hand startable begun fun d member => absurd member List.not_mem_nil

theorem work_startable (startable : Startable s) : Startable (Replication.work s) := by
  have kept {phase : Phase} (begun : phase ≠ .declared) : Startable { s with phase := phase } :=
    ⟨startable.rows_born, startable.items_born, startable.last, fun declared => absurd declared begun⟩
  unfold Replication.work
  cases phase : s.phase with
  | declared => exact kept (by simp)
  | informerBound => exact kept (by simp)
  | bound => exact startable_of_hand startable (by simp) fun d member => member
  | loading =>
    simp only
    split
    · rename_i d items next
      have stored := store_startable startable (by simp [phase]) next
      rwa [phase] at stored
    · exact startable_of_hand startable (by simp) fun d member => absurd member List.not_mem_nil
  | running =>
    have begun : s.phase ≠ .declared := by simp [phase]
    simp only
    split
    · exact handle_startable startable begun _
    · exact ⟨startable.rows_born, startable.items_born, startable.last, fun declared => absurd declared (by simp)⟩

theorem reopenedStep_startable (startable : Startable s) (label : Label) : Startable (reopenedStep s label) := by
  cases label with
  | write w => exact write_startable startable w
  | publish guid => exact publish_startable startable guid
  | publishAccount user => exact publishAccount_startable startable user
  | work =>
    simp only [reopenedStep]
    split
    · exact ⟨startable.rows_born, startable.items_born, startable.last, fun declared => by cases declared⟩
    · exact work_startable startable

end Startable

/-- Whatever the runs before did and wherever they broke off. -/
theorem exec_startable (mongo : Collection) (earlier : List Event) :
    Startable (exec step (firstStart mongo) earlier).worker := by
  refine invariant (fun w : World => Startable w.worker) (fun w event startable => ?_) earlier
    (initial_startable mongo)
  cases event with
  | restart => exact restart_startable startable
  | label label =>
    simp only [step]
    split
    · exact reopenedStep_startable startable label
    · cases label with
      | write w => exact write_startable startable w
      | publish guid => exact publish_startable startable guid
      | publishAccount user => exact publishAccount_startable startable user
      | work => exact work_startable startable

/-! ## The run that follows -/

/-- What the bound queue has been sent about a guid. -/
def told (s : State) (guid : Bytes) : List Change := (s.mq.published .informer).filterMap (announces guid)

/-- An `account.update` of this user has been handled. -/
def Asked (s : State) (user : Bytes) : Prop :=
  ∃ e ∈ s.mq.events, e.call = some (.informerUpdate (.user user))

/-- The documents of this user have been read. -/
def Read (s : State) (user : Bytes) : Prop :=
  Asked s user ∨ s.hand ≠ none ∧ ∃ queue m stopCount,
    s.mq.pc = .body queue m stopCount ∧ dispatch queue m = some (.informerUpdate (.user user))

/-- All that a step can do once the informer queue is bound. -/
inductive Move (s : State) : State → Prop
  | stay : Move s s
  | write {mongo : Collection} {w : Write} (written : s.mongo.write? w = some mongo) : Move s { s with
      mongo := mongo
      outbox := Function.update s.outbox w.guid (s.outbox w.guid ++ [w.change]) }
  | publish {guid : Bytes} {c : Change} {rest : List Change} (next : s.outbox guid = c :: rest) : Move s { s with
      outbox := Function.update s.outbox guid rest
      mq := ProcessMQ.step s.mq (.publish .informer (c.message guid)) }
  | account (m : Message) : Move s { s with mq := ProcessMQ.step s.mq (.publish .account m) }
  | begin {phase : Phase} (before : s.phase ≠ .running) (after : phase = .bound ∨ phase = .running) :
      Move s { s with phase := phase }
  | read {queue : QueueName} {m : Message} {stopCount : Int} {query : Filter} (running : s.phase = .running)
      (here : s.mq.pc = .body queue m stopCount) (called : dispatch queue m = some (.informerUpdate query))
      (empty : s.hand = none) : Move s { s with hand := some (s.mongo.read query) }
  | store {d : Doc} {items : List Doc} (running : s.phase = .running) (next : s.hand = some (d :: items)) :
      Move s { s with table := store s.table d, hand := some items }
  | remove {queue : QueueName} {m : Message} {stopCount : Int} {id : Bytes} (running : s.phase = .running)
      (here : s.mq.pc = .body queue m stopCount) (called : dispatch queue m = some (.informerRemove id))
      (empty : s.hand = none) : Move s { s with table := remove s.table id, mq := ProcessMQ.work s.mq }
  | round (running : s.phase = .running) (stored : s.hand.getD [] = [])
      (same : ∀ guid, pending { s with hand := none, mq := ProcessMQ.work s.mq } guid = pending s guid)
      (asked : ∀ user, Read { s with hand := none, mq := ProcessMQ.work s.mq } user ↔ Read s user) :
      Move s { s with hand := none, mq := ProcessMQ.work s.mq }

/-- The worker is past `InitMessageQueue` or on its way through it, and reads
only in the loop body of a message. -/
structure Started (s : State) : Prop where
  begun : s.phase = .informerBound ∨ s.phase = .bound ∨ s.phase = .running
  idle : s.phase ≠ .running → s.mq.pc = .idle ∧ s.hand = none
  handling : s.hand ≠ none → Handles s
  heard : ProcessMQ.Heard s.mq

section Moves
variable {s s' : State}

theorem events_body {mq : ProcessMQ.State} {queue : QueueName} {m : Message} {stopCount : Int}
    (here : mq.pc = .body queue m stopCount) : (ProcessMQ.work mq).events = mq.events ++ [⟨queue, m, dispatch queue m⟩] := by
  simp [ProcessMQ.work, here]

theorem events_of_no_body {mq : ProcessMQ.State} (no_body : ∀ queue m stopCount, mq.pc ≠ .body queue m stopCount) :
    (ProcessMQ.work mq).events = mq.events := by
  unfold ProcessMQ.work
  split
  · rfl
  · rfl
  · rfl
  · split <;> rfl
  · rename_i here
    exact absurd here (no_body _ _ _)
  · rfl

/-- With nothing in hand the users read are those asked. -/
theorem read_of_empty_hand (empty : s.hand = none) (user : Bytes) : Read s user ↔ Asked s user := by
  simp [Read, empty]

/-- After the loop body its message has been handled. -/
theorem asked_body {queue : QueueName} {m : Message} {stopCount : Int} (here : s.mq.pc = .body queue m stopCount)
    {after : State} (moved : after.mq = ProcessMQ.work s.mq) (user : Bytes) :
    Asked after user ↔ Asked s user ∨ dispatch queue m = some (.informerUpdate (.user user)) := by
  simp [Asked, moved, events_body here, or_and_right, exists_or]

theorem asked_return {queue : QueueName} {m : Message} {stopCount : Int} (here : s.mq.pc = .body queue m stopCount)
    (some_hand : s.hand ≠ none) (user : Bytes) :
    Read { s with hand := none, mq := ProcessMQ.work s.mq } user ↔ Read s user := by
  rw [read_of_empty_hand rfl, asked_body here rfl]
  simp [Read, some_hand, here]

theorem asked_ignore {queue : QueueName} {m : Message} {stopCount : Int} (here : s.mq.pc = .body queue m stopCount)
    (empty : s.hand = none) (no_update : ∀ query, dispatch queue m ≠ some (.informerUpdate query)) (user : Bytes) :
    Read { s with hand := none, mq := ProcessMQ.work s.mq } user ↔ Read s user := by
  rw [read_of_empty_hand rfl, read_of_empty_hand empty, asked_body here rfl]
  simp [no_update]

theorem asked_loop (empty : s.hand = none) (no_body : ∀ queue m stopCount, s.mq.pc ≠ .body queue m stopCount)
    (user : Bytes) : Read { s with hand := none, mq := ProcessMQ.work s.mq } user ↔ Read s user := by
  rw [read_of_empty_hand rfl, read_of_empty_hand empty]
  simp [Asked, events_of_no_body no_body]

theorem move_of_handle (started : Started s) (running : s.phase = .running) {queue : QueueName} {m : Message}
    {stopCount : Int} (here : s.mq.pc = .body queue m stopCount) : Move s (Replication.handle s (dispatch queue m)) := by
  cases called : dispatch queue m with
  | none =>
    have empty := Replication.hand_of_call started.handling here fun query => by simp [called]
    have moved := Move.round running (by simp [empty]) (Replication.pending_ignore empty here called)
      (asked_ignore here empty fun query => by simp [called])
    rwa [← empty] at moved
  | some call =>
    cases call with
    | informerRemove id =>
      exact .remove running here called (Replication.hand_of_call started.handling here fun query => by simp [called])
    | informerUpdate query =>
      simp only [Replication.handle]
      split
      · rename_i empty
        exact .read running here called empty
      · rename_i d items next
        exact .store running next
      · rename_i stored
        exact .round running (by simp [stored]) (Replication.pending_return here stored)
          (asked_return here (by simp [stored]))

theorem reopenedStep_work (running : s.phase = .running) : reopenedStep s .work =
    match s.mq.pc with
    | .body queue m _ => Replication.handle s (dispatch queue m)
    | _ => { s with mq := ProcessMQ.work s.mq } := by
  cases here : s.mq.pc <;> simp [reopenedStep, Replication.work, running, here]

theorem move_of_work (started : Started s) (kept : NoneDropped (reopenedStep s .work)) :
    Move s (reopenedStep s .work) := by
  rcases started.begun with bound | bound | running
  · simpa [reopenedStep, Replication.work, bound] using Move.begin (by simp [bound]) (Or.inl rfl)
  · simpa [reopenedStep, bound] using Move.begin (by simp [bound]) (Or.inr rfl)
  · rw [reopenedStep_work running] at kept ⊢
    split
    · rename_i queue m stopCount here
      exact move_of_handle started running here
    · rename_i no_body
      have empty := Replication.hand_of_no_body started.handling no_body
      split at kept
      · rename_i queue m stopCount here
        exact absurd here (no_body queue m stopCount)
      · have moved := Move.round running (by simp [empty]) (Replication.pending_loop empty no_body kept)
          (asked_loop empty no_body)
        rwa [← empty] at moved

/-- **Every step is one of the moves.** -/
theorem move_of_step (started : Started s) (label : Label) (kept : NoneDropped (reopenedStep s label)) :
    Move s (reopenedStep s label) := by
  have bound : s.phase ≠ .declared := by
    rcases started.begun with phase | phase | phase <;> simp [phase]
  cases label with
  | write w =>
    simp only [reopenedStep, Replication.write]
    split
    · exact .stay
    · rename_i mongo written
      exact .write written
  | publish guid =>
    simp only [reopenedStep, Replication.publish, if_neg bound]
    split
    · exact .stay
    · rename_i c rest next
      exact .publish next
  | publishAccount user =>
    simp only [reopenedStep, Replication.publishAccount]
    split
    · exact .stay
    · exact .account _
  | work => exact move_of_work started kept

theorem started_move (started : Started s) (move : Move s s') : Started s' := by
  have bound {phase : Phase} (running : s.phase = phase) (other : phase ≠ .running) : s.phase ≠ .running := by
    rwa [running]
  cases move with
  | stay => exact started
  | write written => exact ⟨started.begun, started.idle, started.handling, started.heard⟩
  | publish next =>
    exact ⟨started.begun, started.idle, started.handling, ProcessMQ.publish_heard started.heard _ _⟩
  | account m => exact ⟨started.begun, started.idle, started.handling, ProcessMQ.publish_heard started.heard _ _⟩
  | begin before after =>
    exact ⟨Or.inr after, fun _ => started.idle before, started.handling, started.heard⟩
  | read running here called empty =>
    exact ⟨started.begun, fun waits => absurd running waits, fun _ => ⟨_, _, _, _, here, called⟩, started.heard⟩
  | store running next =>
    exact ⟨started.begun, fun waits => absurd running waits, fun _ => started.handling (by simp [next]), started.heard⟩
  | remove running here called empty =>
    exact ⟨started.begun, fun waits => absurd running waits, fun some_hand => absurd empty some_hand,
      ProcessMQ.work_heard started.heard⟩
  | round running stored same asked =>
    exact ⟨started.begun, fun waits => absurd running waits, fun some_hand => absurd rfl some_hand,
      ProcessMQ.work_heard started.heard⟩

/-! ## What has been told only grows -/

theorem told_work {table : Table} {hand : Option (List Doc)} (guid : Bytes) :
    told { s with table := table, hand := hand, mq := ProcessMQ.work s.mq } guid = told s guid := by
  simp [told, ProcessMQ.published_work]

theorem told_publish {outbox : Bytes → List Change} {guid : Bytes} {c : Change} (asked : Bytes) :
    told { s with outbox := outbox, mq := ProcessMQ.step s.mq (.publish .informer (c.message guid)) } asked =
      told s asked ++ if guid = asked then [c] else [] := by
  by_cases same : guid = asked <;> simp [told, ProcessMQ.step, Replication.announces_message, same]

theorem told_account {m : Message} (guid : Bytes) :
    told { s with mq := ProcessMQ.step s.mq (.publish .account m) } guid = told s guid := by
  simp [told, ProcessMQ.step]

/-- A message in the loop body has been told. -/
theorem told_of_body (started : Started s) {m : Message} {stopCount : Int} (here : s.mq.pc = .body .informer m stopCount)
    {guid : Bytes} {c : Change} (announced : announces guid m = some c) : c ∈ told s guid := by
  have published : m ∈ s.mq.published .informer := started.heard .informer m (by simp [here])
  exact List.mem_filterMap.mpr ⟨m, published, announced⟩

/-- Told or about to be. -/
def announced (s : State) (guid : Bytes) : List Change := told s guid ++ s.outbox guid

theorem announced_move (move : Move s s') (guid : Bytes) : announced s guid <+: announced s' guid := by
  cases move with
  | stay | begin | read | store => exact List.prefix_refl _
  | @write mongo w written =>
    change told s guid ++ s.outbox guid <+: told s guid ++ Function.update s.outbox w.guid _ guid
    by_cases same : guid = w.guid
    · subst same
      rw [Function.update_self, ← List.append_assoc]
      exact List.prefix_append _ _
    · have other := Function.update_of_ne same (s.outbox w.guid ++ [w.change]) s.outbox
      exact other.symm ▸ List.prefix_refl _
  | @publish published c rest next =>
    simp only [announced, told_publish]
    by_cases same : published = guid
    · subst same
      simp [next]
    · simp [same, Function.update_of_ne (Ne.symm same)]
  | account m => simp [announced, told_account]
  | remove | round => simp [announced, told_work]

theorem told_move (move : Move s s') (guid : Bytes) : told s guid ⊆ told s' guid := by
  cases move with
  | stay | write | begin | read | store => exact List.Subset.refl _
  | publish next =>
    rw [told_publish]
    exact List.subset_append_left _ _
  | account m => simp [told_account]
  | remove | round => simp [told_work]

theorem read_move (move : Move s s') {user : Bytes} (read : Read s user) : Read s' user := by
  cases move with
  | stay | write | publish | account | begin => exact read
  | read running here called empty => exact Or.inl ((read_of_empty_hand empty user).mp read)
  | store running next => exact read.imp_right fun reads => ⟨by simp, reads.2⟩
  | remove running here called empty =>
    exact Or.inl ((asked_body here rfl user).mpr (Or.inl ((read_of_empty_hand empty user).mp read)))
  | round running stored same asked => exact (asked user).mpr read

end Moves

/-! ## What the worker cannot catch up with -/

section CatchingUp
variable {start s s' : State}

/-- A row that was out of date from the start and whose deletion nobody has told. -/
def Leftover (start s : State) (row : Row) : Prop :=
  row ∈ start.table.rows ∧ ¬ (view start).Has row.guid row.id ∧ .delete ∉ told s row.guid

/-- A document that was not in the file as it is and of which nothing was told
and nothing read, or whose guid such a row holds. -/
def Missing (start s : State) (d : Doc) : Prop :=
  (d ∈ start.mongo.docs ∧ d.row ∉ start.table.rows ∧ told s d.guid = [] ∧ ¬ Read s d.user) ∨
    ∃ row, Leftover start s row ∧ row.guid = d.guid

/-- The invariant of the run: all else is as after loading everything. -/
structure CatchingUp (start s : State) : Prop extends Started s where
  sound : (view s).SoundBut (Leftover start s)
  covered : (view s).CoveredBut (Missing start s)

theorem leftover_of (same : ∀ guid, told s' guid = told s guid) {row : Row} (leftover : Leftover start s row) :
    Leftover start s' row := by
  rwa [Leftover, same]

theorem missing_of (same : ∀ guid, told s' guid = told s guid) (read : ∀ user, Read s' user → Read s user) {d : Doc}
    (missing : Missing start s d) : Missing start s' d := by
  rcases missing with ⟨member, absent, nothing, unread⟩ | ⟨row, leftover, guid⟩
  · exact Or.inl ⟨member, absent, (same d.guid).trans nothing, fun reads => unread (read _ reads)⟩
  · exact Or.inr ⟨row, leftover_of same leftover, guid⟩

/-- A move that tells nothing and after which no other user has been read. -/
private theorem catchingUp_of (started : Started s') (same : ∀ guid, told s' guid = told s guid)
    (read : ∀ user, Read s' user → Read s user) (sound : (view s').SoundBut (Leftover start s))
    (covered : (view s').CoveredBut (Missing start s)) : CatchingUp start s' :=
  ⟨started, sound.weaken fun _ _ leftover => Or.inr (leftover_of same leftover),
    covered.weaken fun _ _ _ missing => missing_of same read missing⟩

/-- What is told is still to come when it is published. -/
theorem publish_catchingUp (catching : CatchingUp start s) {guid : Bytes} {c : Change} {rest : List Change}
    (next : s.outbox guid = c :: rest)
    (started : Started { s with
      outbox := Function.update s.outbox guid rest
      mq := ProcessMQ.step s.mq (.publish .informer (c.message guid)) }) :
    CatchingUp start { s with
      outbox := Function.update s.outbox guid rest
      mq := ProcessMQ.step s.mq (.publish .informer (c.message guid)) } := by
  have waits : c ∈ pending s guid := List.mem_append_right _ (by simp [next])
  have untold {row : Row} (leftover : Leftover start s row) : .delete ∈ pending s row.guid ∨ Leftover start { s with
      outbox := Function.update s.outbox guid rest
      mq := ProcessMQ.step s.mq (.publish .informer (c.message guid)) } row := by
    obtain ⟨member, gone, silent⟩ := leftover
    by_cases deletion : guid = row.guid ∧ c = .delete
    · left
      rwa [← deletion.1, ← deletion.2]
    · refine Or.inr ⟨member, gone, ?_⟩
      rw [told_publish]
      by_cases here : guid = row.guid
      · have update : c ≠ .delete := fun is_delete => deletion ⟨here, is_delete⟩
        simp [silent, here, Ne.symm update]
      · simpa [here] using silent
  refine ⟨started, ?_, ?_⟩
  · rw [Replication.view_publish next]
    exact catching.sound.weaken fun row _ leftover => untold leftover
  · rw [Replication.view_publish next]
    apply catching.covered.weaken
    intro d _ nothing missing
    have other : guid ≠ d.guid := by
      rintro rfl
      rw [show pending s d.guid = [] from nothing] at waits
      cases waits
    rcases missing with ⟨member, absent, silent, unread⟩ | ⟨row, leftover, same⟩
    · refine Or.inl ⟨member, absent, ?_, unread⟩
      rw [told_publish, silent, if_neg other]
      rfl
    · refine Or.inr ⟨row, (untold leftover).resolve_left fun deletion => ?_, same⟩
      rw [same, show pending s d.guid = [] from nothing] at deletion
      cases deletion

theorem read_catchingUp (catching : CatchingUp start s) {queue : QueueName} {m : Message} {stopCount : Int}
    {query : Filter} (here : s.mq.pc = .body queue m stopCount)
    (called : dispatch queue m = some (.informerUpdate query)) (empty : s.hand = none)
    (started : Started { s with hand := some (s.mongo.read query) }) :
    CatchingUp start { s with hand := some (s.mongo.read query) } := by
  have same_view : view { s with hand := some (s.mongo.read query) } =
      (view s).afterRead (s.mongo.read query) (pending { s with hand := some (s.mongo.read query) }) := rfl
  obtain ⟨guid, takes, all⟩ := Replication.pending_read empty here called
  refine ⟨started, ?_, ?_⟩
  · rw [same_view]
    exact catching.sound.read (fun d member => Collection.mem_of_mem_read member) takes
  · rw [same_view]
    apply catching.covered.read (by simp [view, empty]) takes all
    intro d member missing
    rcases missing with ⟨was_there, absent, silent, unread⟩ | blocked
    · by_cases read : Read { s with hand := some (s.mongo.read query) } d.user
      · -- the query is for the user of the document
        obtain ⟨-, queue', m', stopCount', here', called'⟩ := read.resolve_left fun asked => unread (Or.inl asked)
        obtain ⟨rfl, rfl, -⟩ := Pc.body.inj (here.symm.trans here')
        obtain rfl : query = .user d.user := by simpa [called] using called'
        exact Or.inl (List.mem_filter.mpr ⟨member, decide_eq_true rfl⟩)
      · exact Or.inr (Or.inl ⟨was_there, absent, silent, read⟩)
    · exact Or.inr (Or.inr blocked)

theorem remove_catchingUp (catching : CatchingUp start s) {queue : QueueName} {m : Message} {stopCount : Int}
    {id : Bytes} (here : s.mq.pc = .body queue m stopCount)
    (called : dispatch queue m = some (.informerRemove id)) (empty : s.hand = none)
    (started : Started { s with table := remove s.table id, mq := ProcessMQ.work s.mq }) :
    CatchingUp start { s with table := remove s.table id, mq := ProcessMQ.work s.mq } := by
  have same_view : view { s with table := remove s.table id, mq := ProcessMQ.work s.mq } = (view s).afterRemove id
      (pending { s with table := remove s.table id, mq := ProcessMQ.work s.mq }) := rfl
  obtain ⟨others, head⟩ := Replication.pending_remove empty here called
  have none_read : (view s).items = [] := by simp [view, empty]
  have asked (user : Bytes) (read : Read { s with table := remove s.table id, mq := ProcessMQ.work s.mq } user) :
      Read s user := by
    have asked := (asked_body here rfl user).mp (read.resolve_right fun reads => reads.1 empty)
    exact Or.inl (asked.resolve_right (by simp [called]))
  refine catchingUp_of started told_work asked ?_ ?_
  · rw [same_view]
    exact catching.sound.remove none_read others head
  · rw [same_view]
    exact catching.covered.remove catching.sound none_read others head

theorem catchingUp_move (catching : CatchingUp start s) (move : Move s s') : CatchingUp start s' := by
  have started := started_move catching.toStarted move
  cases move with
  | stay => exact catching
  | @write mongo w written =>
    have wrote := wrote_of_write? written
    refine catchingUp_of (s := s) started (fun _ => rfl) (fun _ read => read) ?_ ?_
    · rw [Replication.view_write]
      exact catching.sound.write wrote
    · rw [Replication.view_write]
      exact catching.covered.write wrote
  | publish next => exact publish_catchingUp catching next started
  | account m =>
    refine catchingUp_of started told_account (fun _ read => read) ?_ ?_
    · rw [Replication.view_publishAccount]
      exact catching.sound
    · rw [Replication.view_publishAccount]
      exact catching.covered
  | begin before after => exact ⟨started, catching.sound, catching.covered⟩
  | read running here called empty => exact read_catchingUp catching here called empty started
  | store running next =>
    obtain ⟨same_view, item⟩ := Replication.view_store next
    refine catchingUp_of (s := s) started (fun _ => rfl) (fun _ read => ?_) ?_ ?_
    · exact read.imp_right fun reads => ⟨by simp [next], reads.2⟩
    · rw [same_view]
      exact catching.sound.store item
    · rw [same_view]
      exact catching.covered.store catching.sound (fun row leftover doc same => Or.inr ⟨row, leftover, same⟩) item
  | remove running here called empty => exact remove_catchingUp catching here called empty started
  | round running stored same asked =>
    refine catchingUp_of started told_work (fun user => (asked user).mp) ?_ ?_
    · rw [Replication.view_of_pending same stored]
      exact catching.sound
    · rw [Replication.view_of_pending same stored]
      exact catching.covered

/-- The worker has bound the informer queue. -/
theorem bound_catchingUp (startable : Startable start) (declared : start.phase = .declared) :
    CatchingUp start (reopenedStep start .work) := by
  obtain ⟨mq, hand⟩ := startable.fresh declared
  have bound : reopenedStep start .work = { start with phase := .informerBound } := by
    simp [reopenedStep, Replication.work, declared]
  have coming : pending { start with phase := .informerBound } = start.outbox := by
    funext guid
    simp [pending, unread, mq, hand, ProcessMQ.initial]
  have silent (guid : Bytes) : told { start with phase := .informerBound } guid = [] := by
    simp [told, mq, ProcessMQ.initial]
  rw [bound]
  refine ⟨⟨Or.inl rfl, fun _ => ⟨by simp [mq, ProcessMQ.initial], hand⟩, fun some_hand => absurd hand some_hand, ?_⟩,
    ⟨startable.rows_born, startable.items_born, ?_, ?_, ?_, ?_⟩, ?_⟩
  · simp [ProcessMQ.Heard, mq, ProcessMQ.initial]
  · exact fun row member gone => Or.inr ⟨member, gone, by simp [silent]⟩
  · simp [view, hand]
  · simp [view, hand]
  · have truthful : Truthful start.mongo start.outbox := startable.last
    rwa [← coming] at truthful
  · intro d member _
    by_cases there : d.row ∈ start.table.rows
    · exact Or.inl there
    · refine Or.inr (Or.inr (Or.inl ⟨member, there, silent _, ?_⟩))
      simp [Read, Asked, mq, hand, ProcessMQ.initial]

/-! ### What stays out of date -/

/-- Until its deletion is told, the row of a document that is gone stays. -/
def Stays (row : Row) (s : State) : Prop :=
  .delete ∉ told s row.guid →
    row ∈ s.table.rows ∧ ¬ (view s).Has row.guid row.id ∧ ∀ d ∈ s.hand.getD [], d.guidInt ≠ row.id

/-- Until something is told of it or its user's documents are read, a document
stays as it is and out of the table. -/
def StaysAway (d : Doc) (s : State) : Prop :=
  announced s d.guid = [] → ¬ Read s d.user →
    d ∈ s.mongo.docs ∧ d.row ∉ s.table.rows ∧ ∀ item ∈ s.hand.getD [], item.guid ≠ d.guid

theorem stays_move (catching : CatchingUp start s) {row : Row} (stays : Stays row s) (move : Move s s') :
    Stays row s' := by
  intro silent
  obtain ⟨member, gone, none_read⟩ := stays fun deletion => silent (told_move move row.guid deletion)
  have born := catching.sound.rows_born row member
  cases move with
  | stay | publish | account | begin => exact ⟨member, gone, none_read⟩
  | @write mongo w written =>
    refine ⟨member, ?_, none_read⟩
    rintro ⟨d, d_member, guid, id⟩
    rcases key_of_write? written d_member with ⟨old, old_member, old_guid, old_id⟩ | fresh
    · exact gone ⟨old, old_member, old_guid.trans guid, old_id.trans id⟩
    · exact fresh (List.mem_map.mpr ⟨_, born, id.symm⟩)
  | @read queue m stopCount query running here called empty =>
    refine ⟨member, gone, fun d d_member same => ?_⟩
    have d_there := Collection.mem_of_mem_read d_member
    have d_born := s.mongo.docs_born d d_there
    rw [same] at d_born
    exact gone ⟨d, d_there, s.mongo.guid_of_born d_born born, same⟩
  | @store d items running next =>
    rw [next] at none_read
    have other : row.id ≠ d.guidInt := Ne.symm (none_read d List.mem_cons_self)
    exact ⟨(mem_store_of_ne other).mpr member, gone, fun item later => none_read item (List.mem_cons_of_mem _ later)⟩
  | @remove queue m stopCount id running here called empty =>
    obtain ⟨rfl, announces_delete⟩ := Replication.dispatch_remove called
    rw [told_work] at silent
    have other : row.guid ≠ id := by
      rintro rfl
      exact silent (told_of_body catching.toStarted here (by simp [announces_delete]))
    exact ⟨(View.mem_remove_of_born (v := view s) catching.sound.rows_born).mpr ⟨member, other⟩, gone, none_read⟩
  | round => exact ⟨member, gone, fun d none => absurd none List.not_mem_nil⟩

theorem dispatch_account {m : Message} {query : Filter} (called : dispatch .account m = some (.informerUpdate query)) :
    query = .user m.body := by
  simp only [dispatch] at called
  split at called
  · cases called
    rfl
  · cases called

theorem staysAway_move (catching : CatchingUp start s) {d : Doc} (away : StaysAway d s) (move : Move s s') :
    StaysAway d s' := by
  intro silent unread
  have silent_before : announced s d.guid = [] := List.prefix_nil.mp (silent ▸ announced_move move d.guid)
  obtain ⟨there, absent, none_read⟩ := away silent_before fun read => unread (read_move move read)
  cases move with
  | stay | publish | account | begin => exact ⟨there, absent, none_read⟩
  | @write mongo w written =>
    have other : d.guid ≠ w.guid := by
      intro same
      simp [announced, same] at silent
    exact ⟨((wrote_of_write? written).others d other).mpr there, absent, none_read⟩
  | @read queue m stopCount query running here called empty =>
    refine ⟨there, absent, fun item item_member same => ?_⟩
    obtain rfl := s.mongo.eq_of_guid (Collection.mem_of_mem_read item_member) there same
    rcases Replication.dispatch_update called with rfl | ⟨rfl, rfl, announces_update⟩
    · obtain rfl := dispatch_account called
      have user : item.user = m.body := of_decide_eq_true (List.mem_filter.mp item_member).2
      exact unread (Or.inr ⟨by simp, .account, m, stopCount, here, by rw [called, user]⟩)
    · have guid : item.guid = m.body := of_decide_eq_true (List.mem_filter.mp item_member).2
      have announced_update : announces item.guid m = some .update := by rw [announces_update, if_pos guid.symm]
      have update := told_of_body catching.toStarted here announced_update
      rw [(List.append_eq_nil_iff.mp silent_before).1] at update
      cases update
  | @store item items running next =>
    have item_there : item ∈ (view s).items := by simp [view, next]
    rw [next] at none_read
    obtain ⟨key, paired⟩ := catching.sound.keys item_there
    refine ⟨there, fun stored => ?_, fun other later => none_read other (List.mem_cons_of_mem _ later)⟩
    rcases mem_store key paired stored with same | ⟨old, -⟩
    · exact none_read item List.mem_cons_self (congrArg Row.guid same).symm
    · exact absent old
  | remove running here called empty =>
    refine ⟨there, fun left => absent ?_, none_read⟩
    exact ((View.mem_remove_of_born (v := view s) catching.sound.rows_born).mp left).1
  | round => exact ⟨there, absent, fun item none => absurd none List.not_mem_nil⟩

end CatchingUp

/-- What is known of a run since the informer queue was bound. -/
structure SinceBound (start s : State) : Prop where
  catching : CatchingUp start s
  stays : ∀ row ∈ start.table.rows, ¬ (view start).Has row.guid row.id → Stays row s
  away : ∀ d ∈ start.mongo.docs, d.row ∉ start.table.rows → StaysAway d s

theorem sinceBound_of_startable {start : State} (startable : Startable start) (declared : start.phase = .declared) :
    SinceBound start (reopenedStep start .work) := by
  have first : reopenedStep start .work = { start with phase := .informerBound } := by
    simp [reopenedStep, Replication.work, declared]
  have empty := (startable.fresh declared).2
  refine ⟨bound_catchingUp startable declared, fun row member gone _ => ?_, fun d member absent _ _ => ?_⟩
  · rw [first]
    exact ⟨member, gone, by simp [empty]⟩
  · rw [first]
    exact ⟨member, absent, by simp [empty]⟩

theorem sinceBound_step {start : State} (s : State) (label : Label) (since : SinceBound start s)
    (kept : NoneDropped (reopenedStep s label)) : SinceBound start (reopenedStep s label) := by
  have move := move_of_step since.catching.toStarted label kept
  exact ⟨catchingUp_move since.catching move,
    fun row member gone => stays_move since.catching (since.stays row member gone) move,
    fun d member absent => staysAway_move since.catching (since.away d member absent) move⟩

theorem sinceBound_run {start : State} (startable : Startable start) (declared : start.phase = .declared)
    {online : List Label} (kept : EveryStep reopenedStep (fun _ _ next => NoneDropped next) start (.work :: online)) :
    SinceBound start (exec reopenedStep start (.work :: online)) := by
  rw [exec_cons]
  exact guarded_invariant sinceBound_step (sinceBound_of_startable startable declared) kept.2

/-! ## Agreement after a restart -/

/-- What has to be told to a worker that starts with this file: the deletion of
every row whose document is gone, and something of every document whose row is
not there as it is, unless its user is asked for. -/
def Informed (start s : State) : Prop :=
  (∀ row ∈ start.table.rows,
    (∃ d ∈ start.mongo.docs, d.guid = row.guid ∧ d.guidInt = row.id) ∨ .delete ∈ told s row.guid) ∧
  ∀ d ∈ start.mongo.docs, d.row ∈ start.table.rows ∨ told s d.guid ≠ [] ∨ Asked s d.user

section Agreement
variable {start s : State}

theorem agrees_of_informed (since : SinceBound start s) (quiet : Quiet s) (informed : Informed start s) :
    s.table.rows.Perm (s.mongo.docs.map Doc.row) := by
  have empty := Replication.hand_of_quiet since.catching.handling quiet
  have no_leftover (row : Row) : ¬ Leftover start s row := by
    rintro ⟨member, gone, silent⟩
    exact (informed.1 row member).elim gone silent
  have sound : (view s).Sound :=
    View.soundBut_false.mp (since.catching.sound.weaken fun row _ leftover => (no_leftover row leftover).elim)
  have covered : (view s).Covered := by
    refine View.coveredBut_false.mp (since.catching.covered.weaken fun d _ _ missing => ?_)
    rcases missing with ⟨member, absent, silent, unread⟩ | ⟨row, leftover, -⟩
    · rcases informed.2 d member with stored | heard | asked
      · exact absent stored
      · exact heard silent
      · exact unread (Or.inl asked)
    · exact no_leftover row leftover
  exact View.rows_perm sound covered (Replication.pending_of_quiet empty quiet) (by simp [view, empty])

theorem informed_of_agrees (since : SinceBound start s) (quiet : Quiet s)
    (agrees : s.table.rows.Perm (s.mongo.docs.map Doc.row)) : Informed start s := by
  have empty := Replication.hand_of_quiet since.catching.handling quiet
  constructor
  · intro row member
    by_contra uninformed
    obtain ⟨gone, silent⟩ := not_or.mp uninformed
    obtain ⟨stored, still_gone, -⟩ := since.stays row member gone silent
    obtain ⟨d, d_member, rfl⟩ := List.mem_map.mp (agrees.mem_iff.mp stored)
    exact still_gone ⟨d, d_member, rfl, rfl⟩
  · intro d member
    by_contra uninformed
    obtain ⟨absent, uninformed⟩ := not_or.mp uninformed
    obtain ⟨unheard, unasked⟩ := not_or.mp uninformed
    have silent : announced s d.guid = [] := by
      rw [announced, not_not.mp unheard, quiet.published]
      rfl
    have unread : ¬ Read s d.user := fun read => unasked ((read_of_empty_hand empty d.user).mp read)
    obtain ⟨there, not_stored, -⟩ := since.away d member absent silent unread
    exact not_stored (agrees.mem_iff.mpr (List.mem_map_of_mem there))

end Agreement

/-- **After a restart the table is the collection exactly when the worker has
been told of all that had changed.** For every collection, every earlier runs
and every interleaving from the binding of the queue in which no fetched
informer message is dropped, whenever all is quiet the table's rows are those of
the documents if and only if `Informed` holds. -/
theorem reopened_rows_iff (mongo : Collection) (earlier : List Event) (online : List Label)
    (reopened : (exec step (firstStart mongo) earlier).reopen = true)
    (declared : (exec step (firstStart mongo) earlier).worker.phase = .declared)
    (kept : EveryStep step (fun _ _ next => NoneDropped next.worker) (exec step (firstStart mongo) earlier)
      ((.work :: online).map .label))
    (quiet : Quiet (exec step (firstStart mongo) (earlier ++ (.work :: online).map .label)).worker) :
    (exec step (firstStart mongo) (earlier ++ (.work :: online).map .label)).worker.table.rows.Perm
        ((exec step (firstStart mongo) (earlier ++ (.work :: online).map .label)).worker.mongo.docs.map Doc.row) ↔
      Informed (exec step (firstStart mongo) earlier).worker
        (exec step (firstStart mongo) (earlier ++ (.work :: online).map .label)).worker := by
  have startable := exec_startable mongo earlier
  rw [exec_append, exec_reopened reopened] at quiet ⊢
  have since := sinceBound_run startable declared (everyStep_reopened reopened kept)
  exact ⟨informed_of_agrees since quiet, agrees_of_informed since quiet⟩

/-- A worker that finds an up-to-date file needs to be told nothing. -/
theorem informed_of_current {start : State} (current : start.table.rows.Perm (start.mongo.docs.map Doc.row))
    (s : State) : Informed start s := by
  refine ⟨fun row member => Or.inl ?_, fun d member => Or.inl (current.mem_iff.mpr (List.mem_map_of_mem member))⟩
  obtain ⟨d, d_member, rfl⟩ := List.mem_map.mp (current.mem_iff.mp member)
  exact ⟨d, d_member, rfl, rfl⟩

/-- **An up-to-date file stays up to date.** If the table is the collection when
the queue is bound, it is so again whenever all is quiet. -/
theorem reopened_rows_of_current (mongo : Collection) (earlier : List Event) (online : List Label)
    (declared : (exec step (firstStart mongo) earlier).worker.phase = .declared)
    (current : (exec step (firstStart mongo) earlier).worker.table.rows.Perm
      ((exec step (firstStart mongo) earlier).worker.mongo.docs.map Doc.row))
    (kept : EveryStep reopenedStep (fun _ _ next => NoneDropped next) (exec step (firstStart mongo) earlier).worker
      (.work :: online))
    (quiet : Quiet (exec reopenedStep (exec step (firstStart mongo) earlier).worker (.work :: online))) :
    (exec reopenedStep (exec step (firstStart mongo) earlier).worker (.work :: online)).table.rows.Perm
      ((exec reopenedStep (exec step (firstStart mongo) earlier).worker (.work :: online)).mongo.docs.map Doc.row) :=
  agrees_of_informed (sinceBound_run (exec_startable mongo earlier) declared kept) quiet
    (informed_of_current current _)

/-- The document's row is in the file, and the worker is started again. -/
def stopped : List Event := Replication.shopRun.map .label ++ [.restart]

/-- The document is deleted when the worker has bound its queues. -/
def deletedLater : List Label :=
  List.replicate 2 .work ++ [.write (.delete (bytes "a1b2")), .publish (bytes "a1b2")] ++ List.replicate 5 .work

theorem deletedLater_outbox :
    (exec step (firstStart Collection.empty) (stopped ++ (.work :: deletedLater).map .label)).worker.outbox =
      Function.update (Function.update (exec Replication.step (Replication.initial Collection.empty)
        Replication.shopRun).outbox (bytes "a1b2") [.delete]) (bytes "a1b2") [] := rfl

/-- The deletion is told, so the table agrees. -/
theorem reopened_rows_iff_deletedLater :
    (exec step (firstStart Collection.empty) (stopped ++ (.work :: deletedLater).map .label)).worker.table.rows.Perm
        ((exec step (firstStart Collection.empty)
          (stopped ++ (.work :: deletedLater).map .label)).worker.mongo.docs.map Doc.row) ↔
      Informed (exec step (firstStart Collection.empty) stopped).worker
        (exec step (firstStart Collection.empty) (stopped ++ (.work :: deletedLater).map .label)).worker := by
  refine reopened_rows_iff Collection.empty stopped deletedLater (by decide +kernel) (by decide +kernel)
    (by decide +kernel) ⟨by decide +kernel, fun guid => ?_, ?_, ?_⟩
  · rw [deletedLater_outbox, Replication.shopRun_outbox]
    by_cases here : guid = bytes "a1b2" <;> simp [here]
  · rintro (_ | _) <;> decide +kernel
  · rintro (_ | _) <;> decide +kernel

/-- The document is deleted before the worker has bound its queues. -/
def deletedMeanwhile : List Event :=
  stopped ++ [.label (.write (.delete (bytes "a1b2"))), .label (.publish (bytes "a1b2"))]

theorem deletedMeanwhile_outbox :
    (exec step (firstStart Collection.empty)
      (deletedMeanwhile ++ ([.work, .work, .work] : List Label).map .label)).worker.outbox =
      Function.update (Function.update (exec Replication.step (Replication.initial Collection.empty)
        Replication.shopRun).outbox (bytes "a1b2") [.delete]) (bytes "a1b2") [] := rfl

/-- The message is lost, and the row of the deleted document stays. -/
theorem deleted_row_survives : ¬ ∀ (mongo : Collection) (earlier : List Event) (online : List Label),
    (exec step (firstStart mongo) earlier).reopen = true →
    (exec step (firstStart mongo) earlier).worker.phase = .declared →
    EveryStep step (fun _ _ next => NoneDropped next.worker) (exec step (firstStart mongo) earlier)
      ((.work :: online).map .label) →
    Quiet (exec step (firstStart mongo) (earlier ++ (.work :: online).map .label)).worker →
    (exec step (firstStart mongo) (earlier ++ (.work :: online).map .label)).worker.table.rows.Perm
      ((exec step (firstStart mongo) (earlier ++ (.work :: online).map .label)).worker.mongo.docs.map Doc.row) := by
  intro claim
  have agrees := claim Collection.empty deletedMeanwhile [.work, .work] (by decide +kernel) (by decide +kernel)
    (by decide +kernel) ⟨by decide +kernel, fun guid => ?_, ?_, ?_⟩
  · have rows : (exec step (firstStart Collection.empty)
        (deletedMeanwhile ++ ([.work, .work, .work] : List Label).map .label)).worker.table.rows.length = 1 := by
      decide +kernel
    have docs : (exec step (firstStart Collection.empty)
        (deletedMeanwhile ++ ([.work, .work, .work] : List Label).map .label)).worker.mongo.docs.length = 0 := by
      decide +kernel
    have same := agrees.length_eq
    rw [List.length_map, rows, docs] at same
    cases same
  · rw [deletedMeanwhile_outbox, Replication.shopRun_outbox]
    by_cases here : guid = bytes "a1b2" <;> simp [here]
  · rintro (_ | _) <;> decide +kernel
  · rintro (_ | _) <;> decide +kernel

end WorkerInformer.Restart
