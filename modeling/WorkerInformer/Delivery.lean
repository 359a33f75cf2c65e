import WorkerInformer.CatchingUp
import WorkerInformer.PageData

/-! The whole way of a document: from the main database over the message queue
into the table, from there into a page, through the header block and the bytes
of the response, to the JSON reader of the page's script. Once the writes have
stopped and the worker has gone on for a while, what arrives are the members of
the informer as its document is, where the SQL statements have their intended
effect. -/
namespace WorkerInformer.Delivery
open Runs Bytes Json MainDatabase CgiService VisitorCookie PageData CatchingUp
open CoreProcess (Request)

/-- What a thread sends for a request that it serves now. -/
def sent (cfg : CgiService.Config) (filter : DigitFilter) (s : Service.State) (thread : Nat) (env : Environment)
    (met : Circumstances) : Bytes :=
  (CgiService.processRequest cfg filter env { met with table := s.base.table } s.serverName (s.threads thread).core).1

/-- The object a client reads in the body of a response, behind these bytes. -/
def received (skipped : Bytes) (response : Bytes) : Option Object :=
  (HeaderBlock.read response).bind fun (_, body) => (JsonReader.read (body.drop skipped.length)).map Prod.fst

/-- The request is for a page of its informer, and nothing goes wrong with it. -/
structure AsksPage (request : Request) : Prop where
  names : Service.Names request
  runs : request.raises = false
  thrown : request.thrown = .nowhere
  page : UrlParser.param request.query (bytes "show") ∉ [bytes "status", bytes "usercode"]

section Pages
variable {cfg : CgiService.Config} {filter : DigitFilter} {front back : List TemplatePiece} {n : Nat}
  {informer : Informer} {members : List (Bytes × Scalar)}

theorem respond_page {request : Request} (asks : AsksPage request)
    (nonempty : resultHtml cfg.core.template informer (request.params.served informer) ≠ []) :
    Service.respond cfg.core request (some informer) =
      .page (resultHtml cfg.core.template informer (request.params.served informer)) := by
  obtain ⟨not_status, not_usercode⟩ := List.ne_and_not_mem_of_not_mem_cons asks.page
  have not_usercode : UrlParser.param request.query (bytes "show") ≠ bytes "usercode" := by simpa using not_usercode
  simp only [Service.respond, Service.pageOf, asks.thrown, if_neg not_status, if_neg not_usercode, reduceCtorEq,
    ↓reduceIte, if_neg nonempty]

/-- A page that has a JSON text in it is not empty. -/
theorem resultHtml_ne_nil (params : Params) (template : cfg.core.template = front ++ .argument n :: back)
    (is_json : membersOf informer params n = some members) : resultHtml cfg.core.template informer params ≠ [] := by
  intro empty
  obtain ⟨j, read, -⟩ := read_piece front back informer params is_json []
  rw [← template, empty, List.append_nil, List.drop_nil, show JsonReader.read [] = none from rfl] at read
  cases read

/-- A client receives what the page was made from. -/
theorem received_page (plain : PlainCookie cfg.cookie) (digits : DigitsOnly filter) (whole : WholeConfig cfg.core)
    (template : cfg.core.template = front ++ .argument n :: back) (texts : WholeInformer informer)
    {env : Environment} {met : Circumstances} {request : Request} (complete : coreRequest env met = some request)
    (alive : met.failed = false ∧ met.failedLater = false) (asks : AsksPage request)
    (found : request.found? cfg.core = some informer)
    (is_json : membersOf informer (request.params.served informer) n = some members) (serverName : Bytes)
    (core : CoreProcess.Core) :
    ∃ j, received (filled informer (request.params.served informer) front)
        (CgiService.processRequest cfg filter env met serverName core).1 = some j ∧
      ∀ key, j.lookup key = members.lookup key := by
  have nonempty := resultHtml_ne_nil (request.params.served informer) template is_json
  have response_is : request.response cfg.core =
      .page (resultHtml cfg.core.template informer (request.params.served informer)) := by
    rw [Service.response_eq_respond, found, respond_page asks nonempty]
  obtain ⟨j, read, same⟩ := read_piece front back informer (request.params.served informer) is_json [13, 10]
  refine ⟨j, ?_, same⟩
  rw [received, read_processRequest plain digits alive complete, response_is, Option.bind_some,
    cString_of_nulFree (resultHtml_nulFree whole texts _), HeaderBlock.endLine, template]
  simp only [read, Option.map_some]

end Pages

/-- Every client that asks for the page of one of these documents reads, where
the template has its argument, the members of the document or of his request. -/
def Delivers (cfg : CgiService.Config) (filter : DigitFilter) (front : List TemplatePiece) (n : Nat) (docs : List Doc)
    (s : Service.State) : Prop :=
  ∀ thread env met request, met.failed = false ∧ met.failedLater = false →
    coreRequest env { met with table := s.base.table } = some request → AsksPage request →
    ∀ d ∈ docs, d.guid = request.params.informerId → ∀ informer, informer = Informer.ofRow cfg.core.rangeCategory d.row →
      WholeInformer informer → ∀ members, membersOf informer (request.params.served informer) n = some members →
        ∃ j, received (filled informer (request.params.served informer) front) (sent cfg filter s thread env met) =
            some j ∧ ∀ key, j.lookup key = members.lookup key

/-- **A document reaches the page's script.** For every collection and every
interleaving of writes, messages, moves and requests in which no fetched informer
message was dropped, once every write has been published and no more informer
messages wait than the round still takes, there is a number of moves after which,
whatever is asked in between, every client that asks for an informer whose
document there is reads, where the template has `%1%` or `%2%`, an object with
exactly the members of that document or of his own request. -/
theorem delivered {cfg : CgiService.Config} {filter : DigitFilter} (plain : PlainCookie cfg.cookie)
    (digits : DigitsOnly filter) (whole : WholeConfig cfg.core) {front back : List TemplatePiece} {n : Nat}
    (template : cfg.core.template = front ++ .argument n :: back) (mongo : Collection) (serverName : Bytes)
    (threads : Nat → Service.Thread) {labels : List Service.Label}
    (kept : EveryStep (Service.step cfg filter) (fun _ _ next => Replication.NoneDropped next.base)
      (Service.initial mongo serverName threads) labels)
    (serving : (exec (Service.step cfg filter) (Service.initial mongo serverName threads) labels).Serving)
    (published : ∀ guid,
      (exec (Service.step cfg filter) (Service.initial mongo serverName threads) labels).base.outbox guid = [])
    (fits : Fits (exec (Service.step cfg filter) (Service.initial mongo serverName threads) labels).base.mq) :
    ∃ moves, ∀ later, Undisturbed later → moves ≤ later.countP isWork →
      Delivers cfg filter front n
        (exec (Service.step cfg filter) (Service.initial mongo serverName threads) labels).base.mongo.docs
        (exec (Service.step cfg filter) (Service.initial mongo serverName threads) (labels ++ later)) := by
  have calm : Calm _ := ⟨serving, published, Service.consistent_run cfg filter mongo serverName threads kept, fits⟩
  obtain ⟨moves, rests⟩ := work_settles calm
  refine ⟨moves, fun later undisturbed enough thread env met request alive complete asks d member is_guid informer
    is_informer texts members is_json => ?_⟩
  subst is_informer
  rw [exec_append] at complete ⊢
  obtain ⟨⟨calm_then, same_mongo⟩, quiet⟩ := rests _ enough
  rw [← base_of_undisturbed cfg filter _ undisturbed] at calm_then same_mongo quiet
  have empty := Replication.hand_of_quiet (calm_then.consistent.handling · calm_then.running) quiet
  have settled : Service.Settled _ request.params.informerId :=
    ⟨Replication.pending_of_quiet empty quiet _, by simp [empty]⟩
  have doc : (exec (Service.step cfg filter) (Service.initial mongo serverName threads) labels).base.mongo.docs.find?
      (fun d => d.guid = request.params.informerId) = some d := by
    rw [← is_guid]
    exact Service.find?_doc _ member
  have found : request.found? cfg.core = some (Informer.ofRow cfg.core.rangeCategory d.row) := by
    rw [Service.found?_of_settled calm_then.consistent (Or.inr calm_then.running) asks.names asks.runs
      (table_of_coreRequest complete) settled, same_mongo, doc, Option.map_some]
  exact received_page plain digits whole template texts complete alive asks found is_json _ _

/-- The page is an informer's JSON text in a script. -/
def scripted : CgiService.Config :=
  ⟨⟨[.text (bytes "<script>var informer = ")] ++ .argument 1 :: [.text (bytes ";</script>"), .argument 3], bytes "no informer",
    .null, true⟩, shopConfig⟩

theorem scripted_template :
    scripted.core.template = [.text (bytes "<script>var informer = ")] ++
      .argument 1 :: [.text (bytes ";</script>"), .argument 3] := rfl

theorem scripted_whole : WholeConfig scripted.core := by
  refine ⟨fun literal member => ?_, by decide⟩
  simp only [scripted, List.cons_append, List.nil_append, List.mem_cons, TemplatePiece.text.injEq, reduceCtorEq,
    List.not_mem_nil, or_false, false_or] at member
  rcases member with rfl | rfl <;> decide

/-- A document is created and announced, and then the writes stop. -/
theorem delivered_created : ∃ moves, ∀ later, Undisturbed later → moves ≤ later.countP isWork →
    Delivers scripted asciiFilter [.text (bytes "<script>var informer = ")] 1
      (exec (Service.step scripted asciiFilter) (Service.initial Collection.empty [] Service.shopThreads)
        created).base.mongo.docs
      (exec (Service.step scripted asciiFilter) (Service.initial Collection.empty [] Service.shopThreads)
        (created ++ later)) := by
  have outbox : (exec (Service.step scripted asciiFilter)
      (Service.initial Collection.empty [] Service.shopThreads) created).base.outbox =
        Function.update (Function.update (fun _ => []) (bytes "a1b2") [.update]) (bytes "a1b2") [] := rfl
  exact delivered (by decide) asciiFilter_digits scripted_whole rfl Collection.empty [] Service.shopThreads
    (show EveryStep _ _ _ created by decide +kernel) (by decide +kernel)
    (fun guid => by rw [outbox]; simp) (by decide +kernel)

end WorkerInformer.Delivery
