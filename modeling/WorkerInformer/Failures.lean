import WorkerInformer.Service

/-! What goes wrong. `Get` throws and ends the round, the cursor of `InformerUpdate`
throws before a document is stored, SQLite refuses a statement, a document makes
the loop over the others end, and the round fetches one message more than it
handles. Each of these is logged and forgotten; the service goes on. What is lost
is only what the message or the statement was about: every other informer is
served as its document is, and a later change puts it right unless a deletion was
lost. A statement that is not refused has its intended effect. -/
namespace WorkerInformer.Failures
open Runs Bytes InformerTable MainDatabase Replica Replication Service
open ProcessMQ (QueueName Message Filter Pc dispatch inHand pushBack)

/-! ## Damage -/

/-- What failures have done to the row of a guid: it may not be what its document
is, or it may stay although its document is gone. -/
inductive Damage
  | none
  | stale
  | leftover
  deriving DecidableEq

namespace Damage

/-- A change has been lost. -/
def lose : Damage → Change → Damage
  | leftover, _ | _, .delete => leftover
  | _, .update => stale

/-- The document has been read again: a row that stayed still keeps it away. -/
def reread : Damage → Damage
  | leftover => leftover
  | _ => none

theorem lose_ne_none (d : Damage) (c : Change) : d.lose c ≠ none := by
  cases d <;> cases c <;> simp [lose]

@[simp] theorem lose_delete (d : Damage) : d.lose .delete = leftover := by
  cases d <;> rfl

@[simp] theorem leftover_lose (c : Change) : leftover.lose c = leftover := by
  cases c <;> rfl

@[simp] theorem reread_eq_leftover {d : Damage} : d.reread = leftover ↔ d = leftover := by
  cases d <;> simp [reread]

end Damage

/-- These changes have been lost. -/
def spoil (lost : Bytes → Option Change) (damage : Bytes → Damage) (guid : Bytes) : Damage :=
  match lost guid with
  | none => damage guid
  | some c => (damage guid).lose c

/-- These documents have been read. -/
def repaired (items : List Doc) (damage : Bytes → Damage) (guid : Bytes) : Damage :=
  if guid ∈ items.map Doc.guid then (damage guid).reread else damage guid

@[simp] theorem spoil_nothing (damage : Bytes → Damage) : spoil (fun _ => none) damage = damage := rfl

theorem spoil_ne_none {lost : Bytes → Option Change} {damage : Bytes → Damage} {guid : Bytes}
    (bad : lost guid ≠ none ∨ damage guid ≠ .none) : spoil lost damage guid ≠ .none := by
  unfold spoil
  split
  · rename_i kept
    exact bad.resolve_left (not_not_intro kept)
  · exact Damage.lose_ne_none _ _

theorem spoil_leftover {lost : Bytes → Option Change} {damage : Bytes → Damage} {guid : Bytes}
    (bad : lost guid = some .delete ∨ damage guid = .leftover) : spoil lost damage guid = .leftover := by
  unfold spoil
  rcases bad with deletion | left
  · simp [deletion]
  · rw [left]
    split
    · rfl
    · exact Damage.leftover_lose _

/-! ## Failures -/

/-- `Get` throws an `AMQPException` with this message, the cursor throws, a
statement fails, or what a document has makes its pass of the loop throw. -/
inductive Failure
  | get (message : Bytes)
  | find
  | statement
  | document

/-- The change of this guid that is lost with a message. -/
def announced (queue : QueueName) (m : Message) (guid : Bytes) : Option Change :=
  match queue with
  | .informer => announces guid m
  | .account => none

/-- The `catch` in `ProcessMQ`: the round is over. -/
def failGet (s : Replication.State) (message : Bytes) : Replication.State :=
  let ended : ProcessMQ.State :=
    { s.mq with pc := .idle, mqLog := pushBack 100 s.mq.mqLog (bytes "error: " ++ message) }
  match s.phase, s.mq.pc with
  | .running, .enter _ => { s with mq := ended }
  | .running, .get _ _ => { s with mq := ended }
  | _, _ => s

/-- The `catch` in `InformerUpdate` before its loop: nothing is stored. -/
def failFind (s : Replication.State) : Replication.State × (Bytes → Option Change) :=
  match s.phase, s.mq.pc, s.hand with
  | .bound, _, _ => ({ s with phase := .loading, hand := some [] }, fun _ => some .update)
  | .running, .body queue m _, none =>
    match dispatch queue m with
    | some (.informerUpdate _) => ({ s with hand := some [] }, announced queue m)
    | _ => (s, fun _ => none)
  | _, _, _ => (s, fun _ => none)

/-- `logDb`: the statement has no effect, and the work goes on behind it. A failed
SELECT has an INSERT follow that a row with this id turns into nothing. -/
def failStatement (s : Replication.State) : Replication.State × (Bytes → Option Change) :=
  match s.hand, s.phase, s.mq.pc with
  | some (d :: items), _, _ =>
    ({ s with hand := some items }, fun guid => if guid = d.guid then some .update else none)
  | none, .running, .body queue m _ =>
    match dispatch queue m with
    | some (.informerRemove _) => ({ s with mq := ProcessMQ.work s.mq }, announced queue m)
    | _ => (s, fun _ => none)
  | _, _, _ => (s, fun _ => none)

/-- The `catch` in `InformerUpdate` from its loop: the other documents are not
stored either. -/
def failDocument (s : Replication.State) : Replication.State × (Bytes → Option Change) :=
  match s.hand with
  | some (d :: items) =>
    ({ s with hand := some [] }, fun guid => if guid ∈ (d :: items).map Doc.guid then some .update else none)
  | _ => (s, fun _ => none)

/-- The state after a failure, and the changes that are lost with it; a failure of
what is not being done is none. -/
def fail (s : Replication.State) : Failure → Replication.State × (Bytes → Option Change)
  | .get message => (failGet s message, fun _ => none)
  | .find => failFind s
  | .statement => failStatement s
  | .document => failDocument s

/-- The change of this guid that the worker's next move loses: a message that is
fetched when the counter is used up. -/
def dropped (s : Replication.State) (guid : Bytes) : Option Change :=
  match s.phase, s.mq.pc with
  | .running, .get queue stopCount =>
    if stopCount = 0 then (s.mq.waiting queue).head?.bind fun m => announced queue m guid else none
  | _, _ => none

/-- What the worker's next move puts right. -/
def mended (s : Replication.State) (damage : Bytes → Damage) : Bytes → Damage :=
  match s.phase, s.mq.pc, s.hand with
  | .running, .body queue m _, none =>
    match dispatch queue m with
    | some (.informerUpdate query) => repaired (s.mongo.read query) damage
    | some (.informerRemove id) => Function.update damage id .none
    | none => damage
  | _, _, _ => damage

/-- The service; `damage` is a history variable, which no function reads. -/
structure State where
  service : Service.State
  damage : Bytes → Damage

inductive Label
  | service (label : Service.Label)
  | failure (f : Failure)

section Machine
variable (cfg : CgiService.Config) (filter : VisitorCookie.DigitFilter)

def step (s : State) : Label → State
  | .service label =>
    { service := Service.step cfg filter s.service label
      damage :=
        match label with
        | .base .work => mended s.service.base (spoil (dropped s.service.base) s.damage)
        | _ => s.damage }
  | .failure f =>
    { service := { s.service with base := (fail s.service.base f).1 }
      damage := spoil (fail s.service.base f).2 s.damage }

def initial (mongo : Collection) (serverName : Bytes) (threads : Nat → Thread) : State :=
  ⟨Service.initial mongo serverName threads, fun _ => .none⟩

end Machine

/-! ## What is kept up to the damage -/

/-- `Sound` and `Covered` but for the damage. -/
structure UpTo (damage : Bytes → Damage) (v : View) : Prop where
  sound : v.SoundBut fun row => damage row.guid = .leftover
  covered : v.CoveredBut fun d => damage d.guid ≠ .none

section Views
variable {v : View} {damage : Bytes → Damage}

theorem UpTo.write (kept : UpTo damage v) {mongo : Collection} {w : Write} (wrote : Wrote v.mongo mongo w) :
    UpTo damage (v.afterWrite mongo w) :=
  ⟨kept.sound.write wrote, kept.covered.write wrote⟩

theorem UpTo.store (kept : UpTo damage v) {d : Doc} {items : List Doc} (next : v.items = d :: items) :
    UpTo damage (v.afterStore d items) := by
  refine ⟨kept.sound.store next, kept.covered.store kept.sound (fun row left doc same => ?_) next⟩
  rw [← same, left]
  exact nofun

theorem UpTo.read (kept : UpTo damage v) (none_read : v.items = []) {items : List Doc}
    (there : ∀ d ∈ items, d ∈ v.mongo.docs) {guid : Bytes} {pending : Bytes → List Change}
    (takes : View.Takes guid v.pending pending)
    (all : v.pending guid ≠ pending guid → ∀ d ∈ v.mongo.docs, d.guid = guid → d ∈ items) :
    UpTo (repaired items damage) (v.afterRead items pending) := by
  constructor
  · refine (kept.sound.read there takes).weaken fun row _ left => Or.inr ?_
    unfold repaired
    split
    · exact Damage.reread_eq_leftover.mpr left
    · exact left
  · refine kept.covered.read none_read takes all fun d member bad => ?_
    by_cases read : d.guid ∈ items.map Doc.guid
    · obtain ⟨item, item_member, same⟩ := List.mem_map.mp read
      obtain rfl := v.mongo.eq_of_guid (there item item_member) member same
      exact Or.inl item_member
    · right
      rwa [repaired, if_neg read]

theorem UpTo.remove (kept : UpTo damage v) (none_read : v.items = []) {guid : Bytes}
    {pending : Bytes → List Change} (others : ∀ other ≠ guid, pending other = v.pending other)
    (head : v.pending guid = .delete :: pending guid) :
    UpTo (Function.update damage guid .none) (v.afterRemove guid pending) := by
  constructor
  · refine (kept.sound.remove none_read others head).weaken fun row member left => Or.inr ?_
    have other := ((View.mem_remove_of_born kept.sound.rows_born).mp member).2
    rwa [Function.update_of_ne other]
  · refine (kept.covered.remove kept.sound none_read others head).weaken fun d member nothing bad => ?_
    have other : d.guid ≠ guid := by
      rintro rfl
      -- The deletion was the last change to come, so the document is not there.
      have nothing : pending d.guid = [] := nothing
      have update := (kept.sound.last d.guid .delete (by rw [head, nothing]; rfl)).mpr ⟨d, member, rfl⟩
      cases update
    rwa [Function.update_of_ne other]

/-- The next changes to come are lost. -/
theorem UpTo.lose (kept : UpTo damage v) (none_read : v.items = []) {lost : Bytes → Option Change}
    {pending : Bytes → List Change} (head : ∀ guid, v.pending guid = (lost guid).toList ++ pending guid) :
    UpTo (spoil lost damage) (v.afterRead [] pending) := by
  constructor
  · refine ⟨kept.sound.rows_born, fun _ none => absurd none List.not_mem_nil, fun row member gone => ?_,
      fun _ none => absurd none List.not_mem_nil, fun _ none => absurd none List.not_mem_nil,
      kept.sound.last.of_suffix fun guid => ⟨_, (head guid).symm⟩⟩
    rcases kept.sound.rows_gone row member gone with waits | left
    · rw [head] at waits
      rcases List.mem_append.mp waits with deletion | later
      · exact Or.inr (spoil_leftover (Or.inl (Option.mem_toList.mp deletion)))
      · exact Or.inl later
    · exact Or.inr (spoil_leftover (Or.inr left))
  · intro d member nothing
    cases kept_or : lost d.guid with
    | some c => exact Or.inr (Or.inr (spoil_ne_none (Or.inl (by simp [kept_or]))))
    | none =>
      have before : v.pending d.guid = [] := by
        rw [head, kept_or]
        exact nothing
      rcases kept.covered d member before with stored | item | bad
      · exact Or.inl stored
      · rw [none_read] at item
        cases item
      · exact Or.inr (Or.inr (spoil_ne_none (Or.inr bad)))

/-- Documents that have been read are not stored. -/
theorem UpTo.forget (kept : UpTo damage v) {items : List Doc} (fewer : ∀ d ∈ items, d ∈ v.items)
    {lost : Bytes → Option Change} (others : ∀ d ∈ v.items, d ∈ items ∨ lost d.guid ≠ none) :
    UpTo (spoil lost damage) (v.afterRead items v.pending) := by
  constructor
  · exact ⟨kept.sound.rows_born, fun d member => kept.sound.items_born d (fewer d member),
      fun row member gone => (kept.sound.rows_gone row member gone).imp_right fun left => spoil_leftover (Or.inr left),
      fun d member => kept.sound.items_gone d (fewer d member),
      fun d member => kept.sound.items_stale d (fewer d member), kept.sound.last⟩
  · intro d member nothing
    rcases kept.covered d member nothing with stored | item | bad
    · exact Or.inl stored
    · exact Or.inr ((others d item).imp_right fun forgotten => spoil_ne_none (Or.inl forgotten))
    · exact Or.inr (Or.inr (spoil_ne_none (Or.inr bad)))

end Views

/-! ## Steps -/

/-- The invariant of every run, whatever fails. -/
structure ConsistentBut (damage : Bytes → Damage) (s : Replication.State) : Prop where
  sound : (view s).SoundBut fun row => damage row.guid = .leftover
  covered : Loaded s → (view s).CoveredBut fun d => damage d.guid ≠ .none
  empty : ¬ Loaded s → s.table.rows = [] ∧ s.hand = none
  unbound : s.phase = .declared → s.mq.waiting .informer = []
  idle : s.phase ≠ .running → s.mq.pc = .idle
  handling : s.hand ≠ none → s.phase = .running → Handles s

section Steps
variable {s : Replication.State} {damage : Bytes → Damage}

theorem ConsistentBut.upTo (holds : ConsistentBut damage s) (loaded : Loaded s) : UpTo damage (view s) :=
  ⟨holds.sound, holds.covered loaded⟩

theorem ConsistentBut.of_loaded (loaded : Loaded s) (kept : UpTo damage (view s))
    (idle : s.phase ≠ .running → s.mq.pc = .idle) (handling : s.hand ≠ none → s.phase = .running → Handles s) :
    ConsistentBut damage s where
  sound := kept.sound
  covered _ := kept.covered
  empty not_loaded := absurd loaded not_loaded
  unbound declared := by
    rcases loaded with loading | running
    · cases loading.symm.trans declared
    · cases running.symm.trans declared
  idle := idle
  handling := handling

theorem ConsistentBut.of_consistent (damage : Bytes → Damage) (consistent : Consistent s) : ConsistentBut damage s where
  sound := (View.soundBut_false.mpr consistent.sound).weaken fun _ _ none => none.elim
  covered loaded := (View.coveredBut_false.mpr (consistent.covered loaded)).weaken fun _ _ _ none => none.elim
  empty := consistent.empty
  unbound := consistent.unbound
  idle := consistent.idle
  handling := consistent.handling

/-- Before the documents are read there is nothing to be damaged. -/
theorem ConsistentBut.consistent (holds : ConsistentBut damage s) (not_loaded : ¬ Loaded s) : Consistent s where
  sound := by
    obtain ⟨no_rows, -⟩ := holds.empty not_loaded
    refine View.soundBut_false.mp (holds.sound.weaken fun row member _ => ?_)
    rw [show (view s).table.rows = [] from no_rows] at member
    cases member
  covered loaded := absurd loaded not_loaded
  empty := holds.empty
  unbound := holds.unbound
  idle := holds.idle
  handling := holds.handling

theorem noneDropped_of_idle (idle : s.mq.pc = .idle) : NoneDropped s := by
  rw [NoneDropped, idle]
  rfl

/-- Up to the reading of all documents nothing is lost. -/
theorem unloaded_step (holds : ConsistentBut damage s) (not_loaded : ¬ Loaded s) (label : Replication.Label) :
    ConsistentBut damage (Replication.step s label) := by
  have idle : s.mq.pc = .idle := holds.idle fun running => not_loaded (Or.inr running)
  refine .of_consistent damage (step_consistent s label (holds.consistent not_loaded) (noneDropped_of_idle ?_))
  cases label with
  | write w =>
    simp only [Replication.step, Replication.write]
    split <;> exact idle
  | publish guid =>
    simp only [Replication.step, Replication.publish]
    split
    · exact idle
    · split
      · exact idle
      · exact idle
  | publishAccount user =>
    simp only [Replication.step, Replication.publishAccount]
    split <;> exact idle
  | work =>
    simp only [Replication.step, Replication.work]
    split
    · exact idle
    · exact idle
    · exact idle
    · rename_i loading
      exact absurd (Or.inl loading) not_loaded
    · rename_i running
      exact absurd (Or.inr running) not_loaded

/-- What others do leaves the damage as it is. -/
theorem other_step (holds : ConsistentBut damage s) (label : Replication.Label) (other : label ≠ .work) :
    ConsistentBut damage (Replication.step s label) := by
  by_cases loaded : Loaded s
  case neg => exact unloaded_step holds loaded label
  have bound : s.phase ≠ .declared ∧ s.phase ≠ .informerBound := by
    rcases loaded with phase | phase <;> simp [phase]
  cases label with
  | write w =>
    simp only [Replication.step, Replication.write]
    split
    · exact holds
    · rename_i mongo written
      refine .of_loaded loaded ?_ holds.idle holds.handling
      rw [view_write]
      exact (holds.upTo loaded).write (wrote_of_write? written)
  | publish guid =>
    simp only [Replication.step, Replication.publish, bound.1, ↓reduceIte]
    split
    · exact holds
    · rename_i c rest next
      refine .of_loaded loaded ?_ holds.idle holds.handling
      rw [view_publish next]
      exact holds.upTo loaded
  | publishAccount user =>
    simp only [Replication.step, Replication.publishAccount, bound, or_self, ↓reduceIte]
    refine .of_loaded loaded ?_ holds.idle holds.handling
    rw [view_publishAccount]
    exact holds.upTo loaded
  | work => exact absurd rfl other

/-- The message in the loop body is the next that is to come. -/
theorem pending_body (empty : s.hand = none) {queue : QueueName} {m : Message} {stopCount : Int}
    (here : s.mq.pc = .body queue m stopCount) (guid : Bytes) : pending s guid =
      (announced queue m guid).toList ++ ((s.mq.waiting .informer).filterMap (announces guid) ++ s.outbox guid) := by
  rw [pending_of_empty_hand empty, (waitingOrInHand_body here).1]
  cases queue with
  | account => rfl
  | informer => cases announces_it : announces guid m <;> simp [announced, announces_it]

/-- Behind the loop body it is not. -/
theorem pending_behind {queue : QueueName} {m : Message} {stopCount : Int} (here : s.mq.pc = .body queue m stopCount)
    (guid : Bytes) : pending { s with hand := none, mq := ProcessMQ.work s.mq } guid =
      (s.mq.waiting .informer).filterMap (announces guid) ++ s.outbox guid := by
  rw [pending_of_empty_hand rfl, (waitingOrInHand_body here).2]

/-- Between the loop bodies only a message that is dropped is lost. -/
theorem pending_between (running : s.phase = .running) (empty : s.hand = none)
    (no_body : ∀ queue m stopCount, s.mq.pc ≠ .body queue m stopCount) (guid : Bytes) :
    pending s guid = (dropped s guid).toList ++ pending { s with hand := none, mq := ProcessMQ.work s.mq } guid := by
  have keeps (none_lost : dropped s guid = none) (kept : NoneDropped { s with mq := ProcessMQ.work s.mq }) :
      pending s guid = (dropped s guid).toList ++ pending { s with hand := none, mq := ProcessMQ.work s.mq } guid := by
    rw [none_lost, pending_loop empty no_body kept]
    rfl
  cases here : s.mq.pc with
  | body queue m stopCount => exact absurd here (no_body queue m stopCount)
  | idle =>
    apply keeps
    · simp [dropped, running, here]
    · simp [NoneDropped, ProcessMQ.work, here, drops]
  | enter queue =>
    apply keeps
    · simp [dropped, running, here]
    · cases queue <;> cases first : (s.mq.waiting .informer).head? <;>
        simp [NoneDropped, ProcessMQ.work, ProcessMQ.fetch, here, drops, first, ProcessMQ.maxCount]
  | test queue m stopCount =>
    apply keeps
    · simp [dropped, running, here]
    · cases m with
      | none => cases queue <;> simp [NoneDropped, ProcessMQ.work, here, drops, ProcessMQ.leave]
      | some m =>
        by_cases stop : stopCount = 0
        · cases queue <;> simp [NoneDropped, ProcessMQ.work, here, drops, ProcessMQ.leave, stop]
        · simp [NoneDropped, ProcessMQ.work, here, drops, stop]
  | get queue stopCount =>
    cases queue with
    | account =>
      apply keeps
      · simp [dropped, running, here, announced]
      · simp [NoneDropped, ProcessMQ.work, ProcessMQ.fetch, here, drops]
    | informer =>
      cases waiting : s.mq.waiting .informer with
      | nil =>
        apply keeps
        · simp [dropped, running, here, waiting]
        · simp [NoneDropped, ProcessMQ.work, ProcessMQ.fetch, here, drops, waiting]
      | cons m rest =>
        by_cases stop : stopCount = 0
        · -- The counter is used up, and the message that is fetched goes with it.
          rw [pending_of_empty_hand empty, pending_of_empty_hand rfl]
          cases announces_it : announces guid m <;>
            simp [dropped, running, here, stop, waiting, announced, waitingOrInHand, ProcessMQ.work, ProcessMQ.fetch,
              announces_it]
        · apply keeps
          · simp [dropped, running, here, stop]
          · simp [NoneDropped, ProcessMQ.work, ProcessMQ.fetch, here, drops, waiting, stop]

/-- The loop goes on, and at most the next changes to come are lost. -/
theorem mq_step (holds : ConsistentBut damage s) (running : s.phase = .running) (nothing : s.hand.getD [] = [])
    {mq : ProcessMQ.State} {lost : Bytes → Option Change}
    (head : ∀ guid, pending s guid = (lost guid).toList ++ pending { s with hand := none, mq := mq } guid) :
    ConsistentBut (spoil lost damage) { s with hand := none, mq := mq } :=
  .of_loaded (Or.inr running) ((holds.upTo (Or.inr running)).lose nothing head)
    (fun not_running => absurd running not_running) (fun handling => absurd rfl handling)

theorem store_step (holds : ConsistentBut damage s) {d : Doc} {items : List Doc} (next : s.hand = some (d :: items)) :
    Loaded s ∧ ConsistentBut damage { s with table := store s.table d, hand := some items } := by
  have some_hand : s.hand ≠ none := by simp [next]
  have loaded : Loaded s := by
    by_contra not_loaded
    exact some_hand (holds.empty not_loaded).2
  obtain ⟨same_view, item⟩ := view_store next
  refine ⟨loaded, .of_loaded loaded ?_ holds.idle fun _ => holds.handling some_hand⟩
  rw [same_view]
  exact (holds.upTo loaded).store item

/-- `LoadAllEntities` returns. -/
theorem start_step (holds : ConsistentBut damage s) (loading : s.phase = .loading) (stored : s.hand.getD [] = []) :
    ConsistentBut damage { s with phase := .running, hand := none } := by
  have idle : s.mq.pc = .idle := holds.idle (by simp [loading])
  have same_view : view { s with phase := .running, hand := none } = view s := by
    simp only [view, View.mk.injEq, true_and]
    refine ⟨stored.symm, ?_⟩
    funext guid
    simp [pending, unread, idle]
  refine .of_loaded (Or.inr rfl) ?_ (fun not_running => absurd rfl not_running) fun handling => absurd rfl handling
  rw [same_view]
  exact holds.upTo (Or.inl loading)

theorem handle_step (holds : ConsistentBut damage s) (running : s.phase = .running) {queue : QueueName} {m : Message}
    {stopCount : Int} (here : s.mq.pc = .body queue m stopCount) :
    ConsistentBut (mended s damage) (handle s (dispatch queue m)) := by
  have loaded : Loaded s := Or.inr running
  have handling := (holds.handling · running)
  cases called : dispatch queue m with
  | none =>
    have empty := hand_of_call handling here fun query => by simp [called]
    have moved := @mq_step _ _ holds running (by simp [empty]) (ProcessMQ.work s.mq) (fun _ => none)
      fun guid => (pending_ignore empty here called guid).symm
    have is_mended : mended s damage = damage := by simp only [mended, running, here, empty, called]
    rw [is_mended]
    rwa [← empty, spoil_nothing] at moved
  | some call =>
    cases call with
    | informerRemove id =>
      have empty := hand_of_call handling here fun query => by simp [called]
      obtain ⟨others, head⟩ := pending_remove empty here called
      have is_mended : mended s damage = Function.update damage id .none := by
        simp only [mended, running, here, empty, called]
      rw [is_mended]
      exact .of_loaded loaded ((holds.upTo loaded).remove (by simp [view, empty]) others head)
        (fun not_running => absurd running not_running) fun handling => absurd empty handling
    | informerUpdate query =>
      simp only [handle]
      split
      · rename_i empty
        obtain ⟨guid, takes, all⟩ := pending_read empty here called
        have is_mended : mended s damage = repaired (s.mongo.read query) damage := by
          simp only [mended, running, here, empty, called]
        rw [is_mended]
        exact .of_loaded loaded ((holds.upTo loaded).read (by simp [view, empty])
          (fun d member => Collection.mem_of_mem_read member) takes all)
          (fun not_running => absurd running not_running) fun _ _ => ⟨queue, m, stopCount, query, here, called⟩
      · rename_i d items next
        have is_mended : mended s damage = damage := by simp only [mended, running, here, next]
        rw [is_mended]
        exact (store_step holds next).2
      · rename_i stored
        have moved := @mq_step _ _ holds running (by simp [stored]) (ProcessMQ.work s.mq) (fun _ => none)
          fun guid => (pending_return here stored guid).symm
        have is_mended : mended s damage = damage := by simp only [mended, running, here, stored]
        rw [is_mended]
        rwa [spoil_nothing] at moved

/-- What the worker's next move loses and puts right. -/
theorem work_step (holds : ConsistentBut damage s) :
    ConsistentBut (mended s (spoil (dropped s) damage)) (Replication.work s) := by
  by_cases loaded : Loaded s
  · rcases loaded with loading | running
    · have same : mended s (spoil (dropped s) damage) = damage := by
        funext guid
        simp [mended, dropped, spoil, loading]
      rw [same]
      simp only [Replication.work, loading]
      split
      · rename_i d items next
        have stored := (store_step holds next).2
        rwa [loading] at stored
      · rename_i others
        refine start_step holds loading ?_
        cases hand : s.hand with
        | none => rfl
        | some items =>
          cases items with
          | nil => rfl
          | cons d items => exact absurd hand (others d items)
    · simp only [Replication.work, running]
      split
      · rename_i queue m stopCount here
        have none_lost : spoil (dropped s) damage = damage := by
          funext guid
          simp [dropped, spoil, running, here]
        rw [none_lost]
        exact handle_step holds running here
      · rename_i no_body
        have empty := hand_of_no_body (holds.handling · running) no_body
        have moved := mq_step holds running (by simp [empty]) (pending_between running empty no_body)
        have unmended : mended s (spoil (dropped s) damage) = spoil (dropped s) damage := by
          unfold mended
          split
          · rename_i queue m stopCount _ here _
            exact absurd here (no_body queue m stopCount)
          · rfl
        rw [unmended]
        rwa [← empty, running] at moved
  · have idle : s.mq.pc = .idle := holds.idle fun running => loaded (Or.inr running)
    have same : mended s (spoil (dropped s) damage) = damage := by
      funext guid
      simp [mended, dropped, spoil, idle]
    rw [same]
    exact unloaded_step holds loaded .work

/-- An exception of `Get` loses nothing. -/
theorem failGet_step (holds : ConsistentBut damage s) (message : Bytes) : ConsistentBut damage (failGet s message) := by
  have ended (running : s.phase = .running) (here : (∃ queue, s.mq.pc = .enter queue) ∨
      ∃ queue stopCount, s.mq.pc = .get queue stopCount) : ConsistentBut damage { s with mq :=
        { s.mq with pc := .idle, mqLog := pushBack 100 s.mq.mqLog (bytes "error: " ++ message) } } := by
    have empty : s.hand = none := hand_of_no_body (holds.handling · running) fun queue m stopCount body => by
      rcases here with ⟨_, here⟩ | ⟨_, _, here⟩ <;> cases here.symm.trans body
    have moved := @mq_step _ _ holds running (by simp [empty])
      { s.mq with pc := .idle, mqLog := pushBack 100 s.mq.mqLog (bytes "error: " ++ message) } (fun _ => none)
      fun guid => by
        rw [pending_of_empty_hand empty, pending_of_empty_hand rfl]
        rcases here with ⟨_, here⟩ | ⟨_, _, here⟩ <;> simp [waitingOrInHand, here]
    rwa [← empty, spoil_nothing] at moved
  unfold failGet
  split
  · rename_i queue running here
    exact ended running (Or.inl ⟨queue, here⟩)
  · rename_i queue stopCount running here
    exact ended running (Or.inr ⟨queue, stopCount, here⟩)
  · exact holds

theorem failFind_step (holds : ConsistentBut damage s) :
    ConsistentBut (spoil (failFind s).2 damage) (failFind s).1 := by
  unfold failFind
  split
  · rename_i bound
    have not_loaded : ¬ Loaded s := by simp [Loaded, bound]
    have idle : s.mq.pc = .idle := holds.idle (by simp [bound])
    have empty := (holds.empty not_loaded).2
    have same_view : view { s with phase := .loading, hand := some [] } = view s := by
      simp only [view, View.mk.injEq, true_and]
      refine ⟨by simp [empty], ?_⟩
      funext guid
      simp [pending, unread, idle, empty]
    have all_lost (guid : Bytes) : spoil (fun _ => some .update) damage guid ≠ .none :=
      spoil_ne_none (Or.inl (by simp))
    refine .of_loaded (Or.inl rfl) ?_ (fun _ => idle) fun _ running => by cases running
    rw [same_view]
    exact ⟨holds.sound.weaken fun row _ left => Or.inr (spoil_leftover (Or.inr left)),
      fun d _ _ => Or.inr (Or.inr (all_lost d.guid))⟩
  · rename_i queue m stopCount running here empty
    split
    · rename_i query called
      refine .of_loaded (Or.inr running) ?_ (fun not_running => absurd running not_running)
        fun _ _ => ⟨queue, m, stopCount, query, here, called⟩
      exact (holds.upTo (Or.inr running)).lose (by simp [view, empty]) (pending_body empty here)
    · exact holds
  · exact holds

theorem failStatement_step (holds : ConsistentBut damage s) :
    ConsistentBut (spoil (failStatement s).2 damage) (failStatement s).1 := by
  unfold failStatement
  split
  · rename_i d items next
    have some_hand : s.hand ≠ none := by simp [next]
    refine .of_loaded (store_step holds next).1 ?_ holds.idle fun _ => holds.handling some_hand
    have same_view : view { s with hand := some items } = (view s).afterRead items (view s).pending := by
      simp only [view, View.afterRead, View.mk.injEq, true_and]
      refine ⟨rfl, ?_⟩
      funext guid
      simp [pending, unread, next]
    rw [same_view]
    refine (holds.upTo (store_step holds next).1).forget (fun other later => by simp [view, next, later])
      fun other member => ?_
    have member : other ∈ d :: items := by simpa [view, next] using member
    rcases List.mem_cons.mp member with rfl | later
    · right
      simp
    · exact Or.inl later
  · rename_i queue m stopCount empty running here
    split
    · have moved := @mq_step _ _ holds running (by simp [empty]) (ProcessMQ.work s.mq) (announced queue m)
        fun guid => by rw [pending_body empty here, pending_behind here]
      rwa [← empty] at moved
    · exact holds
  · exact holds

theorem failDocument_step (holds : ConsistentBut damage s) :
    ConsistentBut (spoil (failDocument s).2 damage) (failDocument s).1 := by
  unfold failDocument
  split
  · rename_i d items next
    have some_hand : s.hand ≠ none := by simp [next]
    refine .of_loaded (store_step holds next).1 ?_ holds.idle fun _ => holds.handling some_hand
    have same_view : view { s with hand := some [] } = (view s).afterRead [] (view s).pending := by
      simp only [view, View.afterRead, View.mk.injEq, true_and]
      refine ⟨rfl, ?_⟩
      funext guid
      simp [pending, unread, next]
    rw [same_view]
    refine (holds.upTo (store_step holds next).1).forget (fun _ none => absurd none List.not_mem_nil)
      fun other member => Or.inr ?_
    have member : other ∈ d :: items := by simpa [view, next] using member
    change (if other.guid ∈ (d :: items).map Doc.guid then some Change.update else none) ≠ none
    rw [if_pos (List.mem_map_of_mem member)]
    exact Option.some_ne_none _
  · exact holds

theorem fail_step (holds : ConsistentBut damage s) (f : Failure) : ConsistentBut (spoil (fail s f).2 damage) (fail s f).1 := by
  cases f with
  | get message => exact failGet_step holds message
  | find => exact failFind_step holds
  | statement => exact failStatement_step holds
  | document => exact failDocument_step holds

end Steps

/-! ## Runs -/

section Runs
variable (cfg : CgiService.Config) (filter : VisitorCookie.DigitFilter)

theorem step_consistentBut (s : State) (label : Label) (holds : ConsistentBut s.damage s.service.base) :
    ConsistentBut (step cfg filter s label).damage (step cfg filter s label).service.base := by
  cases label with
  | failure f => exact fail_step holds f
  | service label =>
    cases label with
    | request thread env met memory =>
      simp only [step]
      rcases step_base cfg filter s.service (.request thread env met memory) with same | ⟨l, is_base, -⟩
      · rwa [same]
      · cases is_base
    | base l =>
      cases l with
      | work => exact work_step holds
      | write w => exact other_step holds (.write w) nofun
      | publish guid => exact other_step holds (.publish guid) nofun
      | publishAccount user => exact other_step holds (.publishAccount user) nofun

theorem consistentBut_run (mongo : Collection) (serverName : Bytes) (threads : Nat → Thread) (labels : List Label) :
    ConsistentBut (exec (step cfg filter) (initial mongo serverName threads) labels).damage
      (exec (step cfg filter) (initial mongo serverName threads) labels).service.base :=
  invariant (fun s : State => ConsistentBut s.damage s.service.base) (step_consistentBut cfg filter) labels
    (.of_consistent _ (Replication.initial_consistent mongo))

/-- Without damage the row of a settled informer is that of its document. -/
theorem row_of_undamaged {s : Replication.State} {damage : Bytes → Damage} (holds : ConsistentBut damage s)
    (loaded : Loaded s) {guid : Bytes} (undamaged : damage guid = .none) (settled : Settled s guid) :
    (s.table.rows.find? fun row => row.guid = guid) = (s.mongo.docs.find? fun d => d.guid = guid).map Doc.row := by
  apply find?_row
  · rintro d member rfl
    rcases holds.covered loaded d member settled.pending with stored | item | bad
    · exact stored
    · exact absurd rfl (settled.hand d item)
    · exact absurd undamaged bad
  · rintro row member rfl
    by_contra gone
    rcases holds.sound.rows_gone row member gone with waits | left
    · rw [show (view s).pending row.guid = [] from settled.pending] at waits
      cases waits
    · rw [undamaged] at left
      cases left

/-- **A failure costs only the informers it was about.** For every collection and
every interleaving of writes, messages, moves, requests and failures, whatever
fails how often: an informer of which no change was lost since it was last put
right, and about which nothing is to come, is served from the fields its document
has now, or as unknown if there is no such document. -/
theorem undamaged_served (mongo : Collection) (serverName : Bytes) (threads : Nat → Thread) (labels : List Label)
    (serving : (exec (step cfg filter) (initial mongo serverName threads) labels).service.Serving)
    {request : CoreProcess.Request} (names : Names request) (runs : request.raises = false)
    (undamaged : (exec (step cfg filter) (initial mongo serverName threads) labels).damage
      request.params.informerId = .none)
    (settled : Settled (exec (step cfg filter) (initial mongo serverName threads) labels).service.base
      request.params.informerId) (thread : Nat) :
    answer cfg (exec (step cfg filter) (initial mongo serverName threads) labels).service thread request =
      respond cfg.core request
        (((exec (step cfg filter) (initial mongo serverName threads) labels).service.base.mongo.docs.find?
          fun d => d.guid = request.params.informerId).map fun d => Informer.ofRow cfg.core.rangeCategory d.row) := by
  have holds := consistentBut_run cfg filter mongo serverName threads labels
  rw [answer_eq_respond names, runs, if_neg Bool.false_ne_true,
    row_of_undamaged holds (Or.inr serving) undamaged settled, Option.map_map]
  rfl

end Runs

def otherDoc : Doc := ⟨bytes "c3d4", 18, bytes "shop", Column.default⟩

/-- Two documents are created; the round breaks off once, and later the second
document cannot be read. -/
def halfLost : List Label :=
  let works (n : Nat) : List Label := List.replicate n (.service (.base .work))
  works 4 ++ [.service (.base (.write (.create shopDoc))), .service (.base (.publish (bytes "a1b2"))),
      .service (.base (.write (.create otherDoc))), .service (.base (.publish (bytes "c3d4")))] ++
    works 1 ++ [.failure (.get (bytes "timeout"))] ++ works 8 ++ [.failure .find] ++ works 3

/-- The first informer is served as its document is. -/
theorem undamaged_served_halfLost :
    (exec (step CgiService.shop VisitorCookie.asciiFilter) (initial Collection.empty [] shopThreads) halfLost).damage
        (bytes "c3d4") = .stale ∧
      answer CgiService.shop (exec (step CgiService.shop VisitorCookie.asciiFilter)
          (initial Collection.empty [] shopThreads) halfLost).service 0 shopRequest =
        respond CgiService.shop.core shopRequest (some (Informer.ofRow .null shopDoc.row)) := by
  have settled : Settled (exec (step CgiService.shop VisitorCookie.asciiFilter)
      (initial Collection.empty [] shopThreads) halfLost).service.base shopRequest.params.informerId :=
    ⟨by decide +kernel, by decide +kernel⟩
  exact ⟨by decide +kernel, undamaged_served CgiService.shop VisitorCookie.asciiFilter Collection.empty [] shopThreads
    halfLost (by decide +kernel) shopRequest_names rfl (by decide +kernel) settled 0⟩

end WorkerInformer.Failures
