import WorkerInformer.CgiService
import WorkerInformer.Lagging
import WorkerInformer.Replication

/-! The whole service: the main thread of `CgiService::run` keeps the table up to
date, each SQL statement with its intended effect, while the threads of
`CgiService::Serve` answer requests from it. A request reads the table once, in
one statement, so it meets the table of one moment; everything else it does stays
in its thread. Whatever is interleaved, a page shows one version of one document,
the versions of a document never go back, and once nothing is to come about a
document its page shows what it is now. -/
namespace WorkerInformer.Service
open Runs Bytes Sql InformerTable MainDatabase Replica CoreProcess CoreDataBase
open ProcessMQ (dispatch Filter)

/-! ## What a step does to the table -/

/-- The collection, the table and the documents in hand after a step. -/
inductive Effect (s s' : Replication.State) : Prop
  | wait (mongo : s'.mongo = s.mongo) (table : s'.table = s.table)
    (hand : ∀ d ∈ s'.hand.getD [], d ∈ s.hand.getD [])
  | write (mongo : ∀ key ∈ s.mongo.born, key ∈ s'.mongo.born) (table : s'.table = s.table) (hand : s'.hand = s.hand)
  | read (mongo : s'.mongo = s.mongo) (table : s'.table = s.table) (hand : ∀ d ∈ s'.hand.getD [], d ∈ s.mongo.docs)
  | store (d : Doc) (items : List Doc) (next : s.hand = some (d :: items)) (mongo : s'.mongo = s.mongo)
    (table : s'.table = store s.table d) (hand : s'.hand = some items)
  | remove (id : Bytes) (mongo : s'.mongo = s.mongo) (table : s'.table = remove s.table id) (hand : s'.hand = s.hand)

section Effects
variable {s : Replication.State}

theorem Effect.stays {s' : Replication.State} (mongo : s'.mongo = s.mongo) (table : s'.table = s.table)
    (hand : s'.hand = s.hand ∨ s'.hand = none) : Effect s s' := by
  apply Effect.wait mongo table
  rcases hand with same | nothing
  · rw [same]
    exact fun d member => member
  · rw [nothing]
    exact fun d member => absurd member List.not_mem_nil

theorem handle_effect (call : Option ProcessMQ.Call) : Effect s (Replication.handle s call) := by
  unfold Replication.handle
  split
  · exact .stays rfl rfl (Or.inl rfl)
  · exact .remove _ rfl rfl rfl
  · split
    · exact .read rfl rfl fun d member => Collection.mem_of_mem_read member
    · rename_i d items next
      exact .store d items next rfl rfl rfl
    · exact .stays rfl rfl (Or.inr rfl)

theorem work_effect : Effect s (Replication.work s) := by
  unfold Replication.work
  split
  · exact .stays rfl rfl (Or.inl rfl)
  · exact .stays rfl rfl (Or.inl rfl)
  · exact .read rfl rfl fun d member => member
  · split
    · rename_i d items next
      exact .store d items next rfl rfl rfl
    · exact .stays rfl rfl (Or.inr rfl)
  · split
    · exact handle_effect _
    · exact .stays rfl rfl (Or.inl rfl)

theorem step_effect (label : Replication.Label) : Effect s (Replication.step s label) := by
  cases label with
  | write w =>
    simp only [Replication.step, Replication.write]
    split
    · exact .stays rfl rfl (Or.inl rfl)
    · rename_i mongo written
      exact .write (wrote_of_write? written).born rfl rfl
  | publish guid =>
    simp only [Replication.step, Replication.publish]
    split <;> exact .stays rfl rfl (Or.inl rfl)
  | publishAccount user =>
    simp only [Replication.step, Replication.publishAccount]
    split <;> exact .stays rfl rfl (Or.inl rfl)
  | work => exact work_effect

/-- Rows and read documents have the keys of documents there once were. -/
structure Born (s : Replication.State) : Prop where
  rows : ∀ row ∈ s.table.rows, (row.id, row.guid) ∈ s.mongo.born
  items : ∀ d ∈ s.hand.getD [], (d.guidInt, d.guid) ∈ s.mongo.born

/-- What storing a read document meets. -/
theorem Born.keys (born : Born s) {d : Doc} (member : d ∈ s.hand.getD []) :
    (d.guid ≠ [] ∧ lower d.guid = d.guid) ∧ Paired s.table d :=
  ⟨s.mongo.lower_case _ (born.items d member), fun row row_member same =>
    s.mongo.guid_of_born (born.rows row row_member) (same ▸ born.items d member)⟩

theorem mem_of_mem_remove {t : Table} {guid : Bytes} {row : Row} (member : row ∈ (remove t guid).rows) :
    row ∈ t.rows := by
  unfold remove at member
  split at member
  · exact member
  · exact List.mem_of_mem_filter member

theorem Effect.born {s' : Replication.State} (effect : Effect s s') (born : Born s) : Born s' := by
  cases effect with
  | wait mongo table hand =>
    refine ⟨?_, fun d member => ?_⟩
    · rw [table, mongo]
      exact born.rows
    · rw [mongo]
      exact born.items d (hand d member)
  | write mongo table hand =>
    exact ⟨fun row member => mongo _ (born.rows row (table ▸ member)),
      fun d member => mongo _ (born.items d (hand ▸ member))⟩
  | read mongo table hand =>
    refine ⟨?_, fun d member => ?_⟩
    · rw [table, mongo]
      exact born.rows
    · rw [mongo]
      exact s.mongo.docs_born d (hand d member)
  | store d items next mongo table hand =>
    have here : d ∈ s.hand.getD [] := by simp [next]
    obtain ⟨key, paired⟩ := born.keys here
    refine ⟨fun row member => ?_, fun other member => ?_⟩
    · rw [mongo]
      rw [table] at member
      rcases mem_store key paired member with rfl | ⟨old, -⟩
      · exact born.items d here
      · exact born.rows row old
    · rw [mongo]
      rw [hand] at member
      have later : other ∈ items := member
      exact born.items other (by simp [next, later])
  | remove id mongo table hand =>
    refine ⟨fun row member => ?_, fun d member => ?_⟩
    · rw [mongo]
      exact born.rows row (mem_of_mem_remove (table ▸ member))
    · rw [mongo]
      exact born.items d (hand ▸ member)

/-- The documents of the collection, those in hand and those of the table, as rows. -/
def places : Lagging.Places Replication.State Row where
  source s row := ∃ d ∈ s.mongo.docs, d.row = row
  read s row := ∃ d ∈ s.hand.getD [], d.row = row
  copied s row := row ∈ s.table.rows

/-- Storing a document leaves under its guid only its row, or nothing new. -/
theorem copied_store {d : Doc} (key : d.guid ≠ [] ∧ lower d.guid = d.guid) (paired : Paired s.table d) (guid : Bytes) :
    (∀ row : Row, row.guid = guid → row ∈ (store s.table d).rows → row ∈ s.table.rows) ∨
      ∀ row : Row, row.guid = guid → row ∈ (store s.table d).rows → row = d.row := by
  by_cases stored : d.row ∈ (store s.table d).rows ∧ d.guid = guid
  · right
    intro row is_guid member
    exact List.inj_on_of_nodup_map (store s.table d).guids member stored.1 (is_guid.trans stored.2.symm)
  · left
    intro row is_guid member
    rcases mem_store key paired member with rfl | ⟨old, -⟩
    · exact absurd ⟨member, is_guid⟩ stored
    · exact old

theorem Effect.moves {s' : Replication.State} (effect : Effect s s') (born : Born s) :
    Lagging.Moves places Row.guid s s' := by
  have same_table (table : s'.table = s.table) (guid : Bytes) :
      (∀ row : Row, row.guid = guid → row ∈ s'.table.rows → row ∈ s.table.rows) ∨
        ∀ row : Row, row.guid = guid → row ∈ s'.table.rows → places.read s row :=
    Or.inl fun row _ member => table ▸ member
  have fewer (hand : ∀ d ∈ s'.hand.getD [], d ∈ s.hand.getD []) :
      ∀ row, places.read s' row → places.read s row := by
    rintro row ⟨d, member, is_row⟩
    exact ⟨d, hand d member, is_row⟩
  cases effect with
  | wait mongo table hand => exact ⟨Or.inl (fewer hand), same_table table⟩
  | write mongo table hand => exact ⟨Or.inl (fewer fun d member => hand ▸ member), same_table table⟩
  | read mongo table hand =>
    refine ⟨Or.inr ?_, same_table table⟩
    rintro row ⟨d, member, is_row⟩
    exact ⟨d, hand d member, is_row⟩
  | store d items next mongo table hand =>
    have here : d ∈ s.hand.getD [] := by simp [next]
    obtain ⟨key, paired⟩ := born.keys here
    refine ⟨Or.inl (fewer fun other member => ?_), fun guid => ?_⟩
    · rw [hand] at member
      have later : other ∈ items := member
      simp [next, later]
    · simp only [places, table]
      exact (copied_store key paired guid).imp_right fun only row is_guid member =>
        ⟨d, here, (only row is_guid member).symm⟩
  | remove id mongo table hand =>
    refine ⟨Or.inl (fewer fun d member => hand ▸ member), fun guid => Or.inl fun row _ member => ?_⟩
    simp only [places, table] at member
    exact mem_of_mem_remove member

end Effects

/-! ## Threads -/

/-- What `Serve` keeps. -/
structure Thread where
  core : Core
  countReq : Nat

/-- The replication, the member `server_name` and the threads. -/
structure State where
  base : Replication.State
  serverName : Bytes
  threads : Nat → Thread

/-- The constructor of `BaseCore` is done and the threads are there. -/
def State.Serving (s : State) : Prop := s.base.phase = .running

instance : DecidablePred State.Serving := fun _ => inferInstanceAs (Decidable (_ = _))

/-- The choices of an interleaving: a step of the replication, or a request that
a thread accepts. Of what the request meets the table is the present one, and
`memory` is what `new Core()` would find. -/
inductive Label
  | base (label : Replication.Label)
  | request (thread : Nat) (env : CgiService.Environment) (met : CgiService.Circumstances) (memory : Bytes)

section Machine
variable (cfg : CgiService.Config) (filter : VisitorCookie.DigitFilter)

/-- The loop body of `Serve` for the core that has served a request. -/
def Thread.next (thread : Thread) (core : Core) (memory : Bytes) : Thread where
  core := if thread.countReq = 10000000 then .fresh memory else core
  countReq := thread.countReq + 1

def request (s : State) (thread : Nat) (env : CgiService.Environment) (met : CgiService.Circumstances)
    (memory : Bytes) : State :=
  let (_, serverName, core) := CgiService.processRequest cfg filter env { met with table := s.base.table }
    s.serverName (s.threads thread).core
  { s with
    serverName := serverName
    threads := Function.update s.threads thread ((s.threads thread).next core memory) }

def step (s : State) : Label → State
  | .base label => { s with base := Replication.step s.base label }
  | .request thread env met memory => if s.Serving then request cfg filter s thread env met memory else s

/-- What a thread answers a request with that it serves now. -/
def answer (s : State) (thread : Nat) (request : Request) : Response :=
  (CoreProcess.processRequest cfg.core { request with table := s.base.table } (s.threads thread).core).1

/-- The service starts with a new local database. -/
def initial (mongo : Collection) (serverName : Bytes) (threads : Nat → Thread) : State :=
  ⟨Replication.initial mongo, serverName, threads⟩

end Machine

/-! ## Which version a page shows -/

/-- The page for a request for which this informer is found; `none` when it throws. -/
def pageOf (cfg : CoreProcess.Config) (request : Request) : Option Informer → Option Bytes
  | none => some cfg.templateError
  | some informer =>
    if request.thrown = .inPage then none
    else if UrlParser.param request.query (bytes "show") = bytes "usercode" then
      some (Core.userCodeBefore ++ informer.userCode ++ Core.userCodeAfter)
    else some (resultHtml cfg.template informer (request.params.served informer))

/-- The response to it. -/
def respond (cfg : CoreProcess.Config) (request : Request) (found : Option Informer) : Response :=
  if UrlParser.param request.query (bytes "show") = bytes "status" then .status
  else if request.thrown = .beforeCore then .code 503
  else
    match pageOf cfg request found with
    | none => .code 503
    | some result =>
      if request.thrown = .afterCore then .code 503
      else if result = [] then .code 500
      else if request.thrown = .inSending then .code 503
      else .page result

theorem response_eq_respond (cfg : CoreProcess.Config) (request : Request) :
    request.response cfg = respond cfg request (request.found? cfg) := by
  have made : (if UrlParser.param request.query (bytes "show") = bytes "usercode" then request.userCode cfg
      else request.html cfg) = pageOf cfg request (request.found? cfg) := by
    unfold Request.userCode Request.html pageOf
    cases request.found? cfg with
    | none => simp
    | some informer => by_cases thrown : request.thrown = .inPage <;> simp [thrown]
  cases page : pageOf cfg request (request.found? cfg) <;> simp only [Request.response, respond, made, page]

/-- The `scr` of the request names an informer: it has neither a NUL nor a
quote, and its statement fits. -/
structure Names (request : Request) : Prop where
  nulFree : NulFree (UrlParser.param request.query (bytes "scr"))
  noQuote : 39 ∉ UrlParser.param request.query (bytes "scr")
  fits : (formatted (lower (UrlParser.param request.query (bytes "scr")))).length < CMD_SIZE

/-- Such a request finds the row of its informer. -/
theorem found?_of_names {request : Request} (names : Names request) (cfg : CoreProcess.Config) :
    request.found? cfg = if request.raises then none
      else (request.table.rows.find? fun row => row.guid = request.params.informerId).map
        (Informer.ofRow cfg.rangeCategory) := by
  cases raises : request.raises with
  | true => simp [Request.found?, Request.rows, raises]
  | false =>
    rw [found?_eq_getInformer raises]
    exact ((getInformer_faithful_iff names.nulFree names.fits cfg.rangeCategory request.table).mpr names.noQuote).2

theorem answer_eq_respond {cfg : CgiService.Config} {request : Request} (names : Names request) {s : State}
    {thread : Nat} : answer cfg s thread request =
      respond cfg.core request ((if request.raises then none
        else s.base.table.rows.find? fun row => row.guid = request.params.informerId).map
          (Informer.ofRow cfg.core.rangeCategory)) := by
  have now : Names { request with table := s.base.table } := ⟨names.nulFree, names.noQuote, names.fits⟩
  have found : Request.found? cfg.core { request with table := s.base.table } =
      (if request.raises then none else s.base.table.rows.find? fun row => row.guid = request.params.informerId).map
        (Informer.ofRow cfg.core.rangeCategory) := by
    rw [found?_of_names now]
    cases raises : request.raises <;> rfl
  have same : respond cfg.core { request with table := s.base.table } = respond cfg.core request := rfl
  rw [answer, processRequest_response, response_eq_respond, found, same]

section Runs
variable (cfg : CgiService.Config) (filter : VisitorCookie.DigitFilter)

/-- A step of the service is one of the replication, or leaves it alone. -/
theorem step_base (s : State) (label : Label) :
    (step cfg filter s label).base = s.base ∨ ∃ l, label = .base l ∧ (step cfg filter s label).base = Replication.step s.base l := by
  cases label with
  | base l => exact Or.inr ⟨l, rfl, rfl⟩
  | request thread env met memory =>
    left
    simp only [step]
    split <;> rfl

theorem born_run (mongo : Collection) (serverName : Bytes) (threads : Nat → Thread) (labels : List Label) :
    Born (exec (step cfg filter) (initial mongo serverName threads) labels).base := by
  refine invariant (fun s : State => Born s.base) (fun s label born => ?_) labels ?_
  · rcases step_base cfg filter s label with same | ⟨l, -, moved⟩
    · rw [same]
      exact born
    · rw [moved]
      exact (step_effect l).born born
  · exact ⟨fun _ member => absurd member List.not_mem_nil, fun _ member => absurd member List.not_mem_nil⟩

/-- **Every page shows one version of its document, and no version comes back.**
For every collection and every interleaving of writes, messages, the worker's
moves and requests, there are moments, for each guid never decreasing in the
course of the run, such that at any time any thread answers a request as the
document of that earlier moment has it answered, all of its fields from there,
or as an unknown informer is answered. -/
theorem versions_never_go_back (mongo : Collection) (serverName : Bytes) (threads : Nat → Thread)
    (labels : List Label) :
    ∃ version : Nat → Bytes → Nat, (∀ guid i j, i ≤ j → version i guid ≤ version j guid) ∧
      (∀ i guid, version i guid ≤ i) ∧
      ∀ i thread request, Names request → ∃ shown : Option Doc,
        answer cfg (upTo (step cfg filter) (initial mongo serverName threads) labels i) thread request =
          respond cfg.core request (shown.map fun d => Informer.ofRow cfg.core.rangeCategory d.row) ∧
        ∀ d ∈ shown, d.guid = request.params.informerId ∧
          d ∈ (upTo (step cfg filter) (initial mongo serverName threads) labels
            (version i request.params.informerId)).base.mongo.docs := by
  have empty : ∀ row, ¬ places.read (initial mongo serverName threads).base row ∧
      ¬ places.copied (initial mongo serverName threads).base row := by
    intro row
    refine ⟨?_, List.not_mem_nil⟩
    rintro ⟨d, member, -⟩
    cases member
  have moves (i : Nat) : Lagging.Moves places Row.guid
      (upTo (step cfg filter) (initial mongo serverName threads) labels i).base
      (upTo (step cfg filter) (initial mongo serverName threads) labels (i + 1)).base := by
    have born := born_run cfg filter mongo serverName threads (labels.take i)
    have stays {s' : Replication.State} (same : s' = (upTo (step cfg filter) (initial mongo serverName threads)
        labels i).base) : Effect (upTo (step cfg filter) (initial mongo serverName threads) labels i).base s' := by
      subst same
      exact .stays rfl rfl (Or.inl rfl)
    apply Effect.moves _ born
    rcases upTo_succ (step cfg filter) (initial mongo serverName threads) labels i with same | ⟨label, moved⟩
    · exact stays (by rw [same])
    · rw [moved]
      rcases step_base cfg filter _ label with same | ⟨l, -, is_step⟩
      · exact stays same
      · rw [is_step]
        exact step_effect l
  obtain ⟨version, grows, earlier, versions⟩ := Lagging.exists_versions empty moves
  refine ⟨version, grows, earlier, fun i thread request names => ?_⟩
  have shows := versions i
  generalize upTo (step cfg filter) (initial mongo serverName threads) labels i = s at shows ⊢
  rw [answer_eq_respond names]
  cases row_is : if request.raises then none
      else s.base.table.rows.find? fun row => row.guid = request.params.informerId with
  | none => exact ⟨none, rfl, fun d none_is_some => nomatch none_is_some⟩
  | some row =>
    obtain ⟨-, found⟩ := Option.ite_none_left_eq_some.mp row_is
    have guid : row.guid = request.params.informerId := by simpa using List.find?_some found
    obtain ⟨d, member, is_row⟩ := shows row (List.mem_of_find?_eq_some found)
    refine ⟨some d, by rw [Option.map_some, Option.map_some, is_row], ?_⟩
    rintro other is_d
    obtain rfl := Option.some.inj is_d
    subst is_row
    exact ⟨guid, guid ▸ member⟩

/-! ## Once nothing is to come -/

/-- No change of this informer is on its way or being acted on. -/
structure Settled (s : Replication.State) (guid : Bytes) : Prop where
  pending : Replication.pending s guid = []
  hand : ∀ d ∈ s.hand.getD [], d.guid ≠ guid

/-- A document of the collection is the one found for its guid. -/
theorem find?_doc (c : Collection) {d : Doc} (member : d ∈ c.docs) :
    (c.docs.find? fun other => other.guid = d.guid) = some d := by
  cases first : c.docs.find? fun other => other.guid = d.guid with
  | none => exact absurd rfl (of_decide_eq_false (Bool.not_eq_true _ ▸ List.find?_eq_none.mp first d member))
  | some other =>
    have same : other.guid = d.guid := by simpa using List.find?_some first
    rw [c.eq_of_guid (List.mem_of_find?_eq_some first) member same]

/-- The row of a guid is that of its document if it is there with it and goes with it. -/
theorem find?_row {s : Replication.State} {guid : Bytes}
    (stored : ∀ d ∈ s.mongo.docs, d.guid = guid → d.row ∈ s.table.rows)
    (there : ∀ row ∈ s.table.rows, row.guid = guid → (Replication.view s).Has row.guid row.id) :
    (s.table.rows.find? fun row => row.guid = guid) = (s.mongo.docs.find? fun d => d.guid = guid).map Doc.row := by
  cases doc : s.mongo.docs.find? fun d => d.guid = guid with
  | some d =>
    have member := List.mem_of_find?_eq_some doc
    obtain rfl : d.guid = guid := by simpa using List.find?_some doc
    exact s.table.find?_guid (stored d member rfl)
  | none =>
    rw [Option.map_none, List.find?_eq_none]
    intro row member is_guid
    obtain rfl : row.guid = guid := of_decide_eq_true is_guid
    obtain ⟨d, d_member, d_guid, -⟩ := there row member rfl
    exact List.find?_eq_none.mp doc d d_member (decide_eq_true d_guid)

/-- The row of a settled informer is that of its document. -/
theorem row_of_settled {s : Replication.State} (consistent : Replication.Consistent s) (loaded : Replication.Loaded s)
    {guid : Bytes} (settled : Settled s guid) : (s.table.rows.find? fun row => row.guid = guid) =
      (s.mongo.docs.find? fun d => d.guid = guid).map Doc.row := by
  apply find?_row
  · rintro d member rfl
    exact (consistent.covered loaded d member settled.pending).resolve_right fun item => settled.hand d item rfl
  · rintro row member rfl
    by_contra gone
    have waits : Change.delete ∈ Replication.pending s row.guid := consistent.sound.rows_gone row member gone
    rw [settled.pending] at waits
    cases waits

/-- A request for a settled informer finds the fields of its document. -/
theorem found?_of_settled {cfg : CoreProcess.Config} {s : Replication.State} (consistent : Replication.Consistent s)
    (loaded : Replication.Loaded s) {request : Request} (names : Names request) (runs : request.raises = false)
    (table : request.table = s.table) (settled : Settled s request.params.informerId) :
    request.found? cfg = (s.mongo.docs.find? fun d => d.guid = request.params.informerId).map
      fun d => Informer.ofRow cfg.rangeCategory d.row := by
  rw [found?_of_names names, runs, if_neg Bool.false_ne_true, table, row_of_settled consistent loaded settled,
    Option.map_map]
  rfl

theorem consistent_run (mongo : Collection) (serverName : Bytes) (threads : Nat → Thread) {labels : List Label}
    (kept : EveryStep (step cfg filter) (fun _ _ next => Replication.NoneDropped next.base)
      (initial mongo serverName threads) labels) :
    Replication.Consistent (exec (step cfg filter) (initial mongo serverName threads) labels).base := by
  refine @guarded_invariant _ _ _ (fun s : State => Replication.Consistent s.base) _ (fun s label consistent kept => ?_)
    _ _ (Replication.initial_consistent mongo) kept
  rcases step_base cfg filter s label with same | ⟨l, -, moved⟩
  · rw [same]
    exact consistent
  · rw [moved] at kept ⊢
    exact Replication.step_consistent s.base l consistent kept

/-- **A settled informer is served as it is.** For every collection and every
interleaving in which no fetched informer message is dropped, whatever is still
to come about other informers and whatever other threads are asked, a thread
answers a request for an informer about which nothing is to come from the fields
its document has now, or as unknown if there is no such document. -/
theorem settled_served (mongo : Collection) (serverName : Bytes) (threads : Nat → Thread) {labels : List Label}
    (kept : EveryStep (step cfg filter) (fun _ _ next => Replication.NoneDropped next.base)
      (initial mongo serverName threads) labels)
    (serving : (exec (step cfg filter) (initial mongo serverName threads) labels).Serving) {request : Request}
    (names : Names request) (runs : request.raises = false)
    (settled : Settled (exec (step cfg filter) (initial mongo serverName threads) labels).base
      request.params.informerId) (thread : Nat) :
    answer cfg (exec (step cfg filter) (initial mongo serverName threads) labels) thread request =
      respond cfg.core request
        (((exec (step cfg filter) (initial mongo serverName threads) labels).base.mongo.docs.find?
          fun d => d.guid = request.params.informerId).map fun d => Informer.ofRow cfg.core.rangeCategory d.row) := by
  have consistent := consistent_run cfg filter mongo serverName threads kept
  rw [answer_eq_respond names, runs, if_neg Bool.false_ne_true, row_of_settled consistent (Or.inr serving) settled,
    Option.map_map]
  rfl

end Runs

/-- The worker starts, the document is created and its message handled. -/
def shopLabels : List Label := Replication.shopRun.map Label.base

/-- A request for it, in capitals. -/
def shopRequest : Request := ⟨bytes "scr=A1B2", [], Table.empty, false, .nowhere⟩

def shopThreads (_ : Nat) : Thread := ⟨.fresh [], 0⟩

theorem shopRequest_names : Names shopRequest where
  nulFree := by decide +kernel
  noQuote := by decide +kernel
  fits := by
    rw [formatted_length]
    decide +kernel

/-- The page is made from the document that was created. -/
theorem settled_served_shop :
    answer CgiService.shop (exec (step CgiService.shop VisitorCookie.asciiFilter)
        (initial Collection.empty [] shopThreads) shopLabels) 0 shopRequest =
      respond CgiService.shop.core shopRequest (some (Informer.ofRow .null Replication.shopDoc.row)) := by
  have settled : Settled (exec (step CgiService.shop VisitorCookie.asciiFilter)
      (initial Collection.empty [] shopThreads) shopLabels).base shopRequest.params.informerId :=
    ⟨by decide +kernel, by decide +kernel⟩
  exact settled_served CgiService.shop VisitorCookie.asciiFilter Collection.empty [] shopThreads (by decide +kernel)
    (by decide +kernel) shopRequest_names rfl settled 0

/-- At every moment of that run there is a version to show, or none yet. -/
theorem versions_never_go_back_shop : ∃ version : Nat → Nat, (∀ i, version i ≤ i) ∧ ∀ i, ∃ shown : Option Doc,
    answer CgiService.shop (upTo (step CgiService.shop VisitorCookie.asciiFilter)
        (initial Collection.empty [] shopThreads) shopLabels i) 0 shopRequest =
      respond CgiService.shop.core shopRequest (shown.map fun d => Informer.ofRow .null d.row) ∧
    ∀ d ∈ shown, d ∈ (upTo (step CgiService.shop VisitorCookie.asciiFilter)
      (initial Collection.empty [] shopThreads) shopLabels (version i)).base.mongo.docs := by
  obtain ⟨version, -, earlier, shows⟩ := versions_never_go_back CgiService.shop VisitorCookie.asciiFilter
    Collection.empty [] shopThreads shopLabels
  refine ⟨fun i => version i shopRequest.params.informerId, fun i => earlier i _, fun i => ?_⟩
  obtain ⟨shown, answered, versions⟩ := shows i 0 shopRequest shopRequest_names
  exact ⟨shown, answered, fun d member => (versions d member).2⟩

end WorkerInformer.Service
