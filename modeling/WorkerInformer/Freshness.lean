import WorkerInformer.CatchingUp

/-! How old a page can be. While changes are on their way a page may show what a
document was a while ago, or leave out a document that is there again. But once
nothing has been to come about an informer, no later page shows what its document
was before: every answer is that of some moment since. Here, too, each SQL
statement has its intended effect. -/
namespace WorkerInformer.Freshness
open Runs Bytes InformerTable MainDatabase Replica Replication Service
open ProcessMQ (QueueName Message Pc dispatch inHand fetch)

/-- The row of a guid. -/
def rowAt (t : Table) (guid : Bytes) : Option Row := t.rows.find? fun row => row.guid = guid

/-- The row its document should have. -/
def docAt (c : Collection) (guid : Bytes) : Option Row := (c.docs.find? fun d => d.guid = guid).map Doc.row

/-- Everything that can get into the answers about a guid has been seen: its row,
its document in hand, and that there was none if a deletion is to come. -/
structure Fresh (guid : Bytes) (seen : Option Row → Prop) (s : Replication.State) : Prop where
  row : seen (rowAt s.table guid)
  hand : ∀ d ∈ s.hand.getD [], d.guid = guid → seen (some d.row)
  gone : Change.delete ∈ pending s guid → seen none
  now : seen (docAt s.mongo guid)

section Tables
variable {t : Table} {guid : Bytes}

theorem rowAt_eq_some {row : Row} (member : row ∈ t.rows) (is_guid : row.guid = guid) : rowAt t guid = some row := by
  subst is_guid
  exact t.find?_guid member

theorem mem_of_rowAt {row : Row} (found : rowAt t guid = some row) : row ∈ t.rows ∧ row.guid = guid :=
  ⟨List.mem_of_find?_eq_some found, by simpa using List.find?_some found⟩

theorem rowAt_eq_none (absent : ∀ row ∈ t.rows, row.guid ≠ guid) : rowAt t guid = none :=
  List.find?_eq_none.mpr fun row member => by simpa using absent row member

theorem docAt_eq_some {c : Collection} {d : Doc} (member : d ∈ c.docs) (is_guid : d.guid = guid) :
    docAt c guid = some d.row := by
  subst is_guid
  exact congrArg (Option.map Doc.row) (find?_doc c member)

theorem docAt_eq_none {c : Collection} (absent : ∀ d ∈ c.docs, d.guid ≠ guid) : docAt c guid = none := by
  unfold docAt
  rw [List.find?_eq_none.mpr fun d member => by simpa using absent d member]
  rfl

/-- Storing a document leaves the row of a guid or puts its own there. -/
theorem rowAt_store {d : Doc} (key : d.guid ≠ [] ∧ lower d.guid = d.guid) (paired : Paired t d) :
    rowAt (store t d) guid = rowAt t guid ∨ d.guid = guid ∧ rowAt (store t d) guid = some d.row := by
  cases before : rowAt t guid with
  | some row =>
    obtain ⟨member, is_guid⟩ := mem_of_rowAt before
    by_cases same : row.id = d.guidInt
    · right
      have is_own : d.guid = guid := (paired row member same).symm.trans is_guid
      have only : ∀ other ∈ t.rows, other.guid = d.guid → other.id = d.guidInt := by
        intro other other_member guid_is
        rw [List.inj_on_of_nodup_map t.guids other_member member (guid_is.trans (is_own.trans is_guid.symm)), same]
      exact ⟨is_own, rowAt_eq_some (row_mem_store key paired only) is_own⟩
    · exact Or.inl (rowAt_eq_some ((mem_store_of_ne same).mpr member) is_guid)
  | none =>
    cases after : rowAt (store t d) guid with
    | none => exact Or.inl rfl
    | some row =>
      obtain ⟨member, is_guid⟩ := mem_of_rowAt after
      rcases mem_store key paired member with rfl | ⟨old, -⟩
      · exact Or.inr ⟨is_guid, rfl⟩
      · rw [rowAt_eq_some old is_guid] at before
        cases before

/-- Removing a guid leaves the rows of the others. -/
theorem rowAt_remove (id : Bytes) : rowAt (remove t id) guid = rowAt t guid ∨
    id = guid ∧ rowAt (remove t id) guid = none := by
  by_cases key : id = []
  · rw [key, remove, if_pos rfl]
    exact Or.inl rfl
  by_cases same : id = guid
  · subst same
    exact Or.inr ⟨rfl, rowAt_eq_none fun row member => ((mem_remove key).mp member).2⟩
  · left
    cases before : rowAt t guid with
    | none =>
      refine rowAt_eq_none fun row member is_guid => ?_
      rw [rowAt_eq_some ((mem_remove key).mp member).1 is_guid] at before
      cases before
    | some row =>
      obtain ⟨member, is_guid⟩ := mem_of_rowAt before
      exact rowAt_eq_some ((mem_remove key).mpr ⟨member, is_guid ▸ Ne.symm same⟩) is_guid

end Tables

/-! ## Steps -/

section Steps
variable {guid : Bytes} {seen : Option Row → Prop} {s s' : Replication.State}

/-- A step that only takes changes out of what is to come and documents out of the hand. -/
theorem Fresh.less (fresh : Fresh guid seen s) (mongo : s'.mongo = s.mongo) (table : s'.table = s.table)
    (hand : ∀ d ∈ s'.hand.getD [], d ∈ s.hand.getD [])
    (to_come : Change.delete ∈ pending s' guid → Change.delete ∈ pending s guid) : Fresh guid seen s' where
  row := table ▸ fresh.row
  hand d member := fresh.hand d (hand d member)
  gone := fun waits => fresh.gone (to_come waits)
  now := mongo ▸ fresh.now

theorem fresh_handle (fresh : Fresh guid seen s) (consistent : Consistent s) (running : s.phase = .running)
    {queue : QueueName} {m : Message} {stopCount : Int} (here : s.mq.pc = .body queue m stopCount) :
    Fresh guid seen (handle s (dispatch queue m)) := by
  have nothing (other : ∀ query, dispatch queue m ≠ some (.informerUpdate query)) : s.hand = none :=
    hand_of_call (consistent.handling · running) here other
  cases called : dispatch queue m with
  | none =>
    have empty := nothing fun query => by simp [called]
    have same := pending_ignore empty here called guid
    rw [← empty] at same
    exact fresh.less rfl rfl (fun _ => id) fun waits => same ▸ waits
  | some call =>
    cases call with
    | informerRemove id =>
      have empty := nothing fun query => by simp [called]
      obtain ⟨others, head⟩ := pending_remove empty here called
      refine ⟨?_, fun d member => fresh.hand d member, fun waits => ?_, fresh.now⟩
      · rcases @rowAt_remove s.table guid id with same | ⟨same_guid, none_left⟩
        · exact same ▸ fresh.row
        · -- The removal was to come, so there was a moment without the document.
          have waited : Change.delete ∈ pending s guid := by
            rw [← same_guid, head]
            exact List.mem_cons_self
          exact none_left ▸ fresh.gone waited
      · apply fresh.gone
        by_cases same : guid = id
        · subst same
          rw [head]
          exact List.mem_cons_self
        · exact others guid same ▸ waits
    | informerUpdate query =>
      simp only [handle]
      split
      · rename_i empty
        obtain ⟨taken, takes, -⟩ := pending_read empty here called
        refine ⟨fresh.row, fun d member is_guid => ?_, fun waits => fresh.gone ((takes.suffix guid).subset waits),
          fresh.now⟩
        exact docAt_eq_some (Collection.mem_of_mem_read member) is_guid ▸ fresh.now
      · rename_i d items next
        have item : d ∈ s.hand.getD [] := by simp [next]
        have born : ∀ row ∈ s.table.rows, (row.id, row.guid) ∈ s.mongo.born := consistent.sound.rows_born
        have item_born : (d.guidInt, d.guid) ∈ s.mongo.born := consistent.sound.items_born d item
        have paired : Paired s.table d := fun row member same =>
          s.mongo.guid_of_born (born row member) (same ▸ item_born)
        have same_pending : pending { s with table := store s.table d, hand := some items } guid = pending s guid :=
          congrFun (congrArg View.pending (view_store next).1) guid
        refine ⟨?_, fun other member => fresh.hand other (by simp [next, show other ∈ items from member]),
          fun waits => fresh.gone (same_pending ▸ waits), fresh.now⟩
        rcases @rowAt_store s.table guid d (s.mongo.lower_case _ item_born) paired with same | ⟨is_guid, stored⟩
        · exact same ▸ fresh.row
        · exact stored ▸ fresh.hand d item is_guid
      · rename_i stored
        exact fresh.less rfl rfl (fun d member => absurd member List.not_mem_nil) fun waits =>
          pending_return here stored guid ▸ waits

theorem fresh_work (fresh : Fresh guid seen s) (consistent : Consistent s) (running : s.phase = .running)
    (kept : NoneDropped (work s)) : Fresh guid seen (work s) := by
  have between (no_body : ∀ queue m stopCount, s.mq.pc ≠ .body queue m stopCount)
      (kept : NoneDropped { s with mq := ProcessMQ.work s.mq }) : Fresh guid seen { s with mq := ProcessMQ.work s.mq } := by
    have empty := hand_of_no_body (consistent.handling · running) no_body
    have same := pending_loop empty no_body kept guid
    rw [← empty] at same
    exact fresh.less rfl rfl (fun _ => id) fun waits => same ▸ waits
  cases here : s.mq.pc with
  | body queue m stopCount =>
    have is_work : work s = handle s (dispatch queue m) := by simp only [work, running, here]
    rw [is_work]
    exact fresh_handle fresh consistent running here
  | idle | enter _ | test _ _ _ | get _ _ =>
    have is_work : work s = { s with mq := ProcessMQ.work s.mq } := by simp only [work, running, here]
    rw [is_work] at kept ⊢
    exact between (by simp [here]) kept

theorem fresh_write (fresh : Fresh guid seen s) (w : Write) (recorded : seen (docAt (Replication.write s w).mongo guid)) :
    Fresh guid seen (Replication.write s w) := by
  unfold Replication.write at recorded ⊢
  split
  · exact fresh
  · rename_i mongo written
    simp only [written] at recorded
    have wrote := wrote_of_write? written
    refine ⟨fresh.row, fresh.hand, fun waits => ?_, recorded⟩
    have to_come : (view { s with
        mongo := mongo
        outbox := Function.update s.outbox w.guid (s.outbox w.guid ++ [w.change]) }).pending guid =
          ((view s).afterWrite mongo w).pending guid := congrFun (congrArg View.pending (view_write mongo w)) guid
    have waits : Change.delete ∈ ((view s).afterWrite mongo w).pending guid := to_come ▸ waits
    rw [View.pending_afterWrite] at waits
    split at waits
    · rename_i same
      rcases List.mem_append.mp waits with before | new
      · exact fresh.gone before
      · have is_delete : w.change = .delete := (List.mem_singleton.mp new).symm
        have absent : ∀ d ∈ mongo.docs, d.guid ≠ guid := by
          intro d member is_guid
          have update := wrote.present.mp ⟨d, member, is_guid.trans same⟩
          rw [is_delete] at update
          cases update
        exact docAt_eq_none absent ▸ recorded
    · exact fresh.gone waits

theorem fresh_step (fresh : Fresh guid seen s) (consistent : Consistent s) (running : s.phase = .running)
    (label : Replication.Label) (kept : NoneDropped (Replication.step s label))
    (recorded : seen (docAt (Replication.step s label).mongo guid)) :
    Fresh guid seen (Replication.step s label) := by
  cases label with
  | write w => exact fresh_write fresh w recorded
  | publish asked =>
    simp only [Replication.step, Replication.publish, running, reduceCtorEq, ↓reduceIte]
    split
    · exact fresh
    · rename_i c rest next
      have same := congrFun (pending_publish next) guid
      exact fresh.less rfl rfl (fun _ => id) fun waits => same ▸ waits
  | publishAccount user =>
    simp only [Replication.step, Replication.publishAccount, running, reduceCtorEq, or_self, ↓reduceIte]
    have same : pending { s with mq := ProcessMQ.step s.mq (.publish .account ⟨bytes "account.update", user⟩) } guid =
        pending s guid := congrFun (congrArg View.pending (view_publishAccount _)) guid
    exact fresh.less rfl rfl (fun _ => id) fun waits => same ▸ waits
  | work => exact fresh_work fresh consistent running kept

/-- The worker that goes round its queues goes on doing so. -/
theorem step_running (running : s.phase = .running) (label : Replication.Label) :
    (Replication.step s label).phase = .running := by
  cases label with
  | write w =>
    simp only [Replication.step, Replication.write]
    split <;> exact running
  | publish asked =>
    simp only [Replication.step, Replication.publish]
    split <;> exact running
  | publishAccount user =>
    simp only [Replication.step, Replication.publishAccount]
    split <;> exact running
  | work => exact (CatchingUp.work_running running).1

end Steps

/-! ## Runs -/

section Runs
variable (cfg : CgiService.Config) (filter : VisitorCookie.DigitFilter) {guid : Bytes} {seen : Option Row → Prop}

/-- What the documents of a run have been is all that gets into the answers. -/
theorem fresh_run {s : Service.State} {labels : List Service.Label} (consistent : Consistent s.base)
    (serving : s.Serving) (fresh : Fresh guid seen s.base)
    (recorded : EveryStep (Service.step cfg filter) (fun _ _ next => NoneDropped next.base ∧
      seen (docAt next.base.mongo guid)) s labels) :
    Fresh guid seen (exec (Service.step cfg filter) s labels).base := by
  refine (@guarded_invariant _ _ _ (fun now : Service.State =>
    Consistent now.base ∧ now.Serving ∧ Fresh guid seen now.base) _ (fun now label holds guarded => ?_) _ _
      ⟨consistent, serving, fresh⟩ recorded).2.2
  obtain ⟨consistent, serving, fresh⟩ := holds
  obtain ⟨kept, recorded⟩ := guarded
  rcases step_base cfg filter now label with same | ⟨l, -, moved⟩
  · rw [State.Serving, same]
    exact ⟨consistent, serving, fresh⟩
  · rw [State.Serving]
    rw [moved] at kept recorded ⊢
    exact ⟨step_consistent now.base l consistent kept, step_running serving l,
      fresh_step fresh consistent serving l kept recorded⟩

/-- Where nothing is to come about a guid, its row and its document are one. -/
theorem fresh_of_settled {s : Replication.State} (consistent : Consistent s) (loaded : Loaded s)
    (settled : Settled s guid) (now : seen (docAt s.mongo guid)) : Fresh guid seen s where
  row := by
    rw [rowAt, row_of_settled consistent loaded settled]
    exact now
  hand d member is_guid := absurd is_guid (settled.hand d member)
  gone waits := by
    rw [settled.pending] at waits
    cases waits
  now := now

/-- **No page is older than the last rest.** For every collection and every
interleaving in which no fetched informer message is dropped: if at some moment
nothing is to come about an informer, then whatever is written, announced and
handled after it, any thread answers a request for it as its document of some
moment since has it answered, there or not. -/
theorem answers_since_settled (mongo : Collection) (serverName : Bytes) (threads : Nat → Service.Thread)
    {first second : List Service.Label}
    (kept : EveryStep (Service.step cfg filter) (fun _ _ next => NoneDropped next.base)
      (Service.initial mongo serverName threads) (first ++ second))
    (serving : (exec (Service.step cfg filter) (Service.initial mongo serverName threads) first).Serving)
    {request : CoreProcess.Request} (names : Names request) (runs : request.raises = false)
    (settled : Settled (exec (Service.step cfg filter) (Service.initial mongo serverName threads) first).base
      request.params.informerId) (thread : Nat) :
    ∃ moment ≤ second.length,
      answer cfg (exec (Service.step cfg filter) (Service.initial mongo serverName threads) (first ++ second))
          thread request =
        respond cfg.core request ((docAt (upTo (Service.step cfg filter)
          (exec (Service.step cfg filter) (Service.initial mongo serverName threads) first) second
            moment).base.mongo request.params.informerId).map (Informer.ofRow cfg.core.rangeCategory)) := by
  obtain ⟨kept_first, kept_second⟩ := (everyStep_append _).mp kept
  have consistent := consistent_run cfg filter mongo serverName threads kept_first
  rw [exec_append]
  generalize exec (Service.step cfg filter) (Service.initial mongo serverName threads) first = rest at *
  let seen (r : Option Row) : Prop := ∃ moment ≤ second.length,
    r = docAt (upTo (Service.step cfg filter) rest second moment).base.mongo request.params.informerId
  have every : ∀ i ≤ second.length,
      seen (docAt (upTo (Service.step cfg filter) rest second i).base.mongo request.params.informerId) :=
    fun i within => ⟨i, within, rfl⟩
  have start : Fresh request.params.informerId seen rest.base :=
    fresh_of_settled consistent (Or.inr serving) settled (every 0 (Nat.zero_le _))
  have fresh := fresh_run cfg filter consistent serving start
    (everyStep_and _ kept_second (@everyStep_of_upTo _ _ _
      (fun next => seen (docAt next.base.mongo request.params.informerId)) rest second every))
  obtain ⟨moment, within, row_is⟩ := fresh.row
  refine ⟨moment, within, ?_⟩
  rw [answer_eq_respond names, runs, if_neg Bool.false_ne_true, ← row_is]
  rfl

end Runs

/-- The document is deleted, and the deletion announced. -/
def shopDeletion : List Service.Label :=
  [.base (.write (.delete (bytes "a1b2"))), .base (.publish (bytes "a1b2")), .base .work]

/-- Until the message is handled the page may still be that of the document. -/
theorem answers_since_settled_shop : ∃ moment ≤ 3,
    answer CgiService.shop (exec (Service.step CgiService.shop VisitorCookie.asciiFilter)
        (Service.initial Collection.empty [] shopThreads) (shopLabels ++ shopDeletion)) 0 shopRequest =
      respond CgiService.shop.core shopRequest ((docAt (upTo (Service.step CgiService.shop VisitorCookie.asciiFilter)
        (exec (Service.step CgiService.shop VisitorCookie.asciiFilter)
          (Service.initial Collection.empty [] shopThreads) shopLabels) shopDeletion
            moment).base.mongo shopRequest.params.informerId).map (Informer.ofRow .null)) := by
  have settled : Settled (exec (Service.step CgiService.shop VisitorCookie.asciiFilter)
      (Service.initial Collection.empty [] shopThreads) shopLabels).base shopRequest.params.informerId :=
    ⟨by decide +kernel, by decide +kernel⟩
  exact answers_since_settled CgiService.shop VisitorCookie.asciiFilter Collection.empty [] shopThreads
    (show EveryStep _ _ _ (shopLabels ++ shopDeletion) by decide +kernel) (by decide +kernel) shopRequest_names rfl
    settled 0

end WorkerInformer.Freshness
