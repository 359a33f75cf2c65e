import WorkerInformer.Delivery
import WorkerInformer.TeaserPaging

/-! A page without offers. When the answers have come and there is nothing to
show, nor a social branch to show it from, the script of `template/teaser.html`
leaves for `/block?scr=...&show=usercode`, and `CgiService::ProcessRequest` reads
this query back and answers with the user code of the informer, which is that of
its document where the SQL statements have their intended effect. Such a page has
shown and counted nothing, and does nothing of it while the browser lets it run. -/
namespace WorkerInformer.Redirect
open Runs Bytes Json InformerTable MainDatabase CgiService VisitorCookie PageData
open CoreProcess (Core Request)
open Delivery (AsksPage received sent)
open TeaserPage (Page SavedByPages)
open UserHistory (Browser)

/-! ## The informer in the script -/

/-- What the script reads of `informer` when it is this object; `none` if it is
not one that `Informer::toJson` wrote. -/
def scriptInformer (j : Object) (ie7 : Bool) : Option TeaserPage.Informer :=
  match j.lookup (bytes "social_branch"), j.lookup (bytes "place_branch"), j.lookup (bytes "retargeting_branch"),
    j.lookup (bytes "capacity"), j.lookup (bytes "auto_reload") with
  | some (.boolean social), some (.boolean place), some (.boolean retargeting), some (.number (.ofNat capacity)),
      some (.number autoReload) =>
    some ⟨⟨social, place, retargeting⟩, capacity, autoReload ≠ 0, ie7⟩
  | _, _, _, _, _ => none

/-- `informer.informer_id`. -/
def informerId (j : Object) : Option Bytes :=
  match j.lookup (bytes "informer_id") with
  | some (.string id) => some id
  | _ => none

/-- The address the page leaves for. -/
def userCodeHref (id : Bytes) : Bytes := bytes "/block?scr=" ++ id ++ bytes "&show=usercode"

/-- What a task assigns to `location.href`: the callback of `$.when` does it when
no offer is there. -/
def leaves (informer : TeaserPage.Informer) (j : Object) (page : Page) : TeaserPage.Label → Option Bytes
  | .answered call outcome =>
    if call < page.calls.length ∧ page.items.length + (page.fetched informer outcome).length < 1 ∧
        informer.branches.socialBranch = false then
      (informerId j).map userCodeHref
    else none
  | _ => none

/-- Letters, digits, and the marks that a browser leaves as they are. -/
def isUnreserved (b : UInt8) : Bool :=
  isDigit b || (65 ≤ b && b ≤ 90) || (97 ≤ b && b ≤ 122) || [45, 46, 95, 126].contains b

def Unreserved (text : Bytes) : Prop := ∀ b ∈ text, isUnreserved b = true

/-- The query a browser sends for an address of such bytes. -/
def queryOfHref (href : Bytes) : Bytes := (UrlParser.after? 63 href).getD []

/-- The object has the fields of the informer it was written from. -/
theorem scriptInformer_members {informer : Informer} {j : Object} (ie7 : Bool)
    (same : ∀ key, j.lookup key = informer.members.lookup key) :
    scriptInformer j ie7 = some ⟨⟨informer.socialBranch, informer.plaseBranch, informer.retargetingBranch⟩,
        informer.capacity, (informer.autoReload : ℤ) ≠ 0, ie7⟩ ∧
      informerId j = some informer.guid := by
  unfold scriptInformer informerId
  simp only [same]
  exact ⟨rfl, rfl⟩

/-! ## The page that leaves -/

section Pages
variable (informer : TeaserPage.Informer) (read : OfferRequests.Value → TeaserPage.Offer)

/-- No offer is there, and none was shown or counted. -/
structure NoOffers (page : Page) : Prop where
  items : page.items = []
  blocks : page.blocks = []
  rendered : page.rendered.flatten = []
  counted : page.counted = []

/-- A page without offers waits for one call at most, and for none before the
campaigns have come. -/
structure Early (page : Page) : Prop extends NoOffers page where
  calls : page.calls.length ≤ 1
  unstarted : page.started = false → page.calls = []

/-- No call waits, and none can be made: what is called for is in a block. -/
structure Left (page : Page) : Prop extends NoOffers page where
  started : page.started = true
  calls : page.calls = []

variable {informer read}

/-- Rendering nothing shows nothing. -/
theorem NoOffers.render {page : Page} (empty : NoOffers page) (capacity : Nat) :
    NoOffers (TeaserPage.render informer capacity page).1 ∧
      (TeaserPage.render informer capacity page).1.started = page.started ∧
      (TeaserPage.render informer capacity page).1.calls = page.calls ∧
      (TeaserPage.render informer capacity page).1.sent = page.sent := by
  obtain ⟨items, blocks, rendered, counted⟩ := empty
  have batch : page.displayAll informer ((page.items.drop page.skip).take capacity) = ([], true) := by
    rw [items, List.drop_nil, List.take_nil, Page.displayAll]
  simp only [TeaserPage.render, batch, ↓reduceIte]
  unfold Page.autoReload
  split <;>
    refine ⟨⟨?_, ?_, ?_, ?_⟩, rfl, rfl, rfl⟩ <;>
    simp [items, blocks, rendered, counted, TeaserPage.bindRedirect, TeaserPage.newBlocks]

/-- No block is there to be rotated. -/
theorem NoOffers.rotated? {page : Page} (empty : NoOffers page) (timers : Nat) :
    Page.rotated? informer { page with timers := timers } = none := by
  simp [Page.rotated?, empty.blocks]

theorem NoOffers.sendRequests {page : Page} (empty : NoOffers page) :
    NoOffers (TeaserPage.sendRequests informer page) ∧
      (TeaserPage.sendRequests informer page).started = page.started ∧
      (TeaserPage.sendRequests informer page).calls = page.calls := by
  unfold TeaserPage.sendRequests
  generalize List.filter _ _ = requests
  induction requests generalizing page with
  | nil => exact ⟨empty, rfl, rfl⟩
  | cons first rest ih =>
    obtain ⟨items, blocks, rendered, counted⟩ := empty
    exact ih ⟨items, blocks, rendered, counted⟩

theorem items_of_render {page : Page} {capacity : Nat}
    (after : (TeaserPage.render informer capacity page).1.items = []) : page.items = [] := by
  rw [TeaserPage.render_items] at after
  obtain ⟨⟨front, shown⟩, back⟩ := (List.append_eq_nil_iff.mp after).imp_left List.append_eq_nil_iff.mp
  rw [shown, List.length_nil, Nat.add_zero] at back
  rw [← List.take_append_drop page.skip page.items, front, back, List.append_nil]

theorem Left.of_render {page : Page} (empty : NoOffers page) (started : page.started = true) (calls : page.calls = [])
    (capacity : Nat) : Left (TeaserPage.render informer capacity page).1 ∧
      (TeaserPage.render informer capacity page).1.sent = page.sent := by
  obtain ⟨still, same_started, same_calls, sent⟩ := empty.render capacity
  exact ⟨⟨still, same_started.trans started, same_calls.trans calls⟩, sent⟩

theorem Left.early {page : Page} (left : Left page) : Early page := by
  obtain ⟨empty, started, calls⟩ := left
  exact ⟨empty, by simp [calls], fun _ => calls⟩

/-- The first call renders nothing or waits. -/
theorem NoOffers.call {page : Page} (empty : NoOffers page) (started : page.started = true) (calls : page.calls = [])
    (capacity : Nat) : Early (TeaserPage.getCampaignDataProcces informer capacity page).1 := by
  unfold TeaserPage.getCampaignDataProcces
  split
  · exact (Left.of_render empty started calls capacity).1.early
  · obtain ⟨still, same_started, same_calls⟩ := @NoOffers.sendRequests informer page empty
    refine ⟨⟨still.items, still.blocks, still.rendered, still.counted⟩, ?_, fun unstarted => ?_⟩
    · simp [same_calls, calls]
    · simp [same_started, started] at unstarted

/-- A task never takes an offer away. -/
theorem items_of_step {page : Page} {label : TeaserPage.Label}
    (after : (TeaserPage.step informer read page label).items = []) : page.items = [] := by
  rcases TeaserPage.step_paging informer read page label with same | ⟨values, capacity, before, grown, done⟩
  · rw [← same.items, after]
  · have all : before.items = [] := items_of_render (done.items.symm.trans after)
    exact (List.append_eq_nil_iff.mp (grown.items.symm.trans all)).1

/-- **A page that has left does nothing more.** -/
theorem Left.step {page : Page} (left : Left page) (label : TeaserPage.Label) :
    Left (TeaserPage.step informer read page label) ∧
      (TeaserPage.step informer read page label).sent = page.sent := by
  have empty := left.toNoOffers
  have kept {after : Page} (same : after = page) : Left after ∧ after.sent = page.sent := by
    subst same
    exact ⟨left, rfl⟩
  obtain ⟨⟨items, blocks, rendered, counted⟩, started, calls⟩ := left
  cases label with
  | campaign params properties => exact kept (by simp only [TeaserPage.step, started, ↓reduceIte])
  | answered call outcome => exact kept (by simp only [TeaserPage.step, calls, List.getElem?_nil])
  | handler key index opened =>
    exact kept (by simp only [TeaserPage.step, blocks, List.find?_nil, Option.bind_none])
  | timer =>
    simp only [TeaserPage.step, empty.rotated?]
    split
    · exact kept rfl
    · exact ⟨⟨⟨items, blocks, rendered, counted⟩, started, calls⟩, rfl⟩
  | removed key => exact ⟨⟨⟨items, by simp [TeaserPage.step, blocks], rendered, counted⟩, started, calls⟩, rfl⟩
  | elsewhere | clock | imageProbe => exact ⟨⟨⟨items, blocks, rendered, counted⟩, started, calls⟩, rfl⟩

/-- The only call of an early page is answered, and nothing came. -/
theorem Early.answered {page : Page} (early : Early page) {call : Nat} (waiting : call < page.calls.length)
    {outcome : String → OfferRequests.Outcome} (nothing : page.fetched informer outcome = []) :
    Left (TeaserPage.step informer read page (.answered call outcome)) ∧
      (TeaserPage.step informer read page (.answered call outcome)).sent = page.sent := by
  have started : page.started = true := by
    by_contra unstarted
    simp [early.unstarted (Bool.eq_false_iff.mpr unstarted)] at waiting
  obtain ⟨capacity, calls⟩ : ∃ capacity, page.calls = [capacity] :=
    List.length_eq_one_iff.mp (Nat.le_antisymm early.calls (Nat.zero_lt_of_lt waiting))
  obtain rfl : call = 0 := by simpa [calls] using waiting
  obtain ⟨⟨items, blocks, rendered, counted⟩, -, -⟩ := early
  simp only [TeaserPage.step, calls, List.getElem?_cons_zero, List.eraseIdx_cons_zero, TeaserPage.whenAnswered]
  refine Left.of_render ?_ ?_ ?_ capacity
  · refine ⟨List.append_eq_nil_iff.mpr ⟨items, ?_⟩, blocks, rendered, counted⟩
    exact List.map_eq_nil_iff.mpr nothing
  · exact started
  · rfl

/-- **A page without offers has had one call at most.** -/
theorem Early.step {page : Page} (early : Early page) {label : TeaserPage.Label}
    (after : (TeaserPage.step informer read page label).items = []) :
    Early (TeaserPage.step informer read page label) := by
  have empty := early.toNoOffers
  obtain ⟨⟨items, blocks, rendered, counted⟩, calls, unstarted⟩ := early
  cases label with
  | campaign params properties =>
    simp only [TeaserPage.step]
    split
    · exact ⟨empty, calls, unstarted⟩
    · rename_i first
      have none_yet : page.calls = [] := unstarted (Bool.eq_false_iff.mpr first)
      refine NoOffers.call ?_ ?_ ?_ _
      · exact ⟨items, blocks, rendered, counted⟩
      · rfl
      · exact none_yet
  | answered call outcome =>
    by_cases waiting : call < page.calls.length
    · have nothing : page.fetched informer outcome = [] := by
        simp only [TeaserPage.step, List.getElem?_eq_getElem waiting, TeaserPage.whenAnswered] at after
        have before := (List.append_eq_nil_iff.mp (items_of_render after)).2
        exact List.map_eq_nil_iff.mp before
      exact (Early.answered ⟨empty, calls, unstarted⟩ waiting nothing).1.early
    · simp only [TeaserPage.step, List.getElem?_eq_none (Nat.le_of_not_lt waiting)]
      exact ⟨empty, calls, unstarted⟩
  | handler key index opened =>
    simp only [TeaserPage.step, blocks, List.find?_nil, Option.bind_none]
    exact ⟨empty, calls, unstarted⟩
  | timer =>
    simp only [TeaserPage.step, empty.rotated?]
    split
    · exact ⟨empty, calls, unstarted⟩
    · exact ⟨⟨items, blocks, rendered, counted⟩, calls, unstarted⟩
  | removed key => exact ⟨⟨items, by simp [TeaserPage.step, blocks], rendered, counted⟩, calls, unstarted⟩
  | elsewhere | clock | imageProbe => exact ⟨⟨items, blocks, rendered, counted⟩, calls, unstarted⟩

theorem Left.run {page : Page} (left : Left page) (more : List TeaserPage.Label) :
    Left (exec (TeaserPage.step informer read) page more) ∧
      (exec (TeaserPage.step informer read) page more).sent = page.sent := by
  refine invariant (fun after : Page => Left after ∧ after.sent = page.sent) (fun after label holds => ?_) more
    ⟨left, rfl⟩
  exact (holds.1.step label).imp_right (·.trans holds.2)

variable (informer read)

theorem early_run (saved : SavedByPages) (browser : Browser) (tasks : List TeaserPage.Label) :
    (exec (TeaserPage.step informer read) (Page.start saved browser) tasks).items = [] →
      Early (exec (TeaserPage.step informer read) (Page.start saved browser) tasks) := by
  refine invariant (fun page : Page => page.items = [] → Early page)
    (fun page label early after => (early (items_of_step after)).step after) tasks fun _ => ?_
  exact ⟨⟨rfl, rfl, rfl, rfl⟩, Nat.zero_le 1, fun _ => rfl⟩

/-- **A page that leaves has shown nothing.** For every run of the page in which
a task assigns its address, and however it goes on until the browser has left,
no offer is ever rendered or counted and no more offers are asked for; and the
informer has no social branch. -/
theorem left_page (saved : SavedByPages) (browser : Browser) {tasks : List TeaserPage.Label}
    {task : TeaserPage.Label} {j : Object} {href : Bytes}
    (leaving : leaves informer j (exec (TeaserPage.step informer read) (Page.start saved browser) tasks) task =
      some href) (more : List TeaserPage.Label) :
    informer.branches.socialBranch = false ∧ (informerId j).map userCodeHref = some href ∧
      (exec (TeaserPage.step informer read) (Page.start saved browser) (tasks ++ task :: more)).rendered.flatten = [] ∧
      (exec (TeaserPage.step informer read) (Page.start saved browser) (tasks ++ task :: more)).counted = [] ∧
      (exec (TeaserPage.step informer read) (Page.start saved browser) (tasks ++ task :: more)).sent =
        (exec (TeaserPage.step informer read) (Page.start saved browser) tasks).sent := by
  have early := early_run informer read saved browser tasks
  rw [exec_append, exec_cons]
  generalize exec (TeaserPage.step informer read) (Page.start saved browser) tasks = page at leaving early ⊢
  cases task with
  | answered call outcome =>
    obtain ⟨⟨waiting, few, social⟩, is_href⟩ := Option.ite_none_right_eq_some.mp leaving
    have none_there : page.items = [] := List.length_eq_zero_iff.mp (by omega)
    have none_came : page.fetched informer outcome = [] := List.length_eq_zero_iff.mp (by omega)
    obtain ⟨left, sent⟩ := @Early.answered informer read page (early none_there) call waiting outcome none_came
    obtain ⟨later, same_sent⟩ := left.run more
    exact ⟨social, is_href, later.rendered, later.counted, same_sent.trans sent⟩
  | campaign | timer | handler | removed | elsewhere | clock | imageProbe => cases leaving

end Pages

/-! ## The query -/

theorem unreserved_free {text : Bytes} (unreserved : Unreserved text) {b : UInt8} (marked : isUnreserved b = false) :
    b ∉ text := by
  intro member
  rw [unreserved b member] at marked
  cases marked

theorem encodes_unreserved {text : Bytes} (unreserved : Unreserved text) : UrlParser.Encodes text text := by
  induction text with
  | nil => exact .nil
  | cons b text ih =>
    have here : isUnreserved b = true := unreserved b List.mem_cons_self
    refine .raw ⟨?_, ?_, ?_⟩ (ih fun c member => unreserved c (List.mem_cons_of_mem b member))
    all_goals
      rintro rfl
      exact absurd here (by decide)

theorem scr_free : ∀ c ∈ bytes "scr", c ≠ 61 ∧ c ≠ 38 ∧ c ≠ 63 := by decide +kernel

theorem show_free : ∀ c ∈ bytes "show", c ≠ 61 ∧ c ≠ 38 ∧ c ≠ 63 := by decide +kernel

theorem usercode_unreserved : Unreserved (bytes "usercode") := List.all_eq_true.mp (by decide +kernel)

section Queries
variable {id : Bytes}

/-- The parameters of the address, which are written as they are. -/
def hrefParameters (unreserved : Unreserved id) : List UrlParser.Parameter :=
  [⟨bytes "scr", id, id, scr_free, encodes_unreserved unreserved⟩,
    ⟨bytes "show", bytes "usercode", bytes "usercode", show_free, encodes_unreserved usercode_unreserved⟩]

theorem queryOfHref_eq (unreserved : Unreserved id) :
    queryOfHref (userCodeHref id) = UrlParser.queryOf (hrefParameters unreserved) := by
  have front : bytes "/block?scr=" = bytes "/block" ++ 63 :: (bytes "scr" ++ [61]) := rfl
  have back : bytes "&show=usercode" = 38 :: (bytes "show" ++ 61 :: bytes "usercode") := rfl
  have address : userCodeHref id = bytes "/block" ++ 63 :: UrlParser.queryOf (hrefParameters unreserved) := by
    rw [userCodeHref, front, back, hrefParameters, UrlParser.queryOf_cons]
    simp only [UrlParser.queryOf, List.map_cons, List.map_nil, List.intercalate_singleton, UrlParser.Parameter.text,
      List.append_assoc, List.cons_append, List.nil_append]
  rw [queryOfHref, address, UrlParser.after?_append (by decide), Option.getD_some]

/-- The server reads of the address what the page put into it. -/
theorem param_href (unreserved : Unreserved id) (name : Bytes) :
    UrlParser.param (queryOfHref (userCodeHref id)) name = UrlParser.lastNamed (hrefParameters unreserved) name := by
  rw [queryOfHref_eq unreserved, UrlParser.param, UrlParser.parse,
    UrlParser.after?_eq_none (UrlParser.queryOf_unmarked _), Option.getD_none,
    UrlParser.parseFrom_queryOf _ (Nat.lt_succ_self _), UrlParser.get?_parameters]

theorem scr_href (unreserved : Unreserved id) :
    UrlParser.param (queryOfHref (userCodeHref id)) (bytes "scr") = id := by
  rw [param_href unreserved]
  rfl

theorem show_href (unreserved : Unreserved id) :
    UrlParser.param (queryOfHref (userCodeHref id)) (bytes "show") = bytes "usercode" := by
  rw [param_href unreserved]
  rfl

/-- The request for the address names the informer if the page's request did. -/
theorem names_href {first request : Request} (names : Service.Names first) (is_id : first.params.informerId = id)
    (unreserved : Unreserved id) (query : request.query = queryOfHref (userCodeHref id)) :
    Service.Names request ∧ request.params.informerId = id := by
  have scr : UrlParser.param request.query (bytes "scr") = id := by rw [query, scr_href unreserved]
  have lower_id : lower id = id := by
    rw [← is_id]
    exact lower_lower _
  refine ⟨⟨?_, ?_, ?_⟩, ?_⟩
  · rw [scr]
    exact unreserved_free unreserved (by decide)
  · rw [scr]
    exact unreserved_free unreserved (by decide)
  · rw [scr, lower_id, ← is_id]
    exact names.fits
  · rw [Request.params, Params.ofRequest, scr, lower_id]

end Queries

/-! ## The user code -/

/-- The page of `Core::UserCode`. -/
def userCodePage (cfg : CoreProcess.Config) : Option Informer → Bytes
  | none => cfg.templateError
  | some informer => Core.userCodeBefore ++ informer.userCode ++ Core.userCodeAfter

theorem respond_userCode {cfg : CoreProcess.Config} (nonempty : cfg.templateError ≠ []) {request : Request}
    (asked : UrlParser.param request.query (bytes "show") = bytes "usercode") (thrown : request.thrown = .nowhere)
    (found : Option Informer) : Service.respond cfg request found = .page (userCodePage cfg found) := by
  have not_status : bytes "usercode" ≠ bytes "status" := by decide
  have before : Core.userCodeBefore ≠ [] := by decide +kernel
  cases found with
  | none => simp [Service.respond, Service.pageOf, asked, thrown, not_status, userCodePage, nonempty]
  | some informer => simp [Service.respond, Service.pageOf, asked, thrown, not_status, userCodePage, before]

/-- A client was sent the page of this informer, and this object is in its script. -/
inductive Shown (cfg : CgiService.Config) (filter : DigitFilter) (front : List TemplatePiece) (s : Service.State)
    (served : Informer) (j : Object) : Prop
  | intro (thread : Nat) (env : Environment) (met : Circumstances) (request : Request)
    (alive : met.failed = false ∧ met.failedLater = false)
    (complete : coreRequest env { met with table := s.base.table } = some request) (asks : AsksPage request)
    (found : request.found? cfg.core = some served) (texts : WholeInformer served)
    (reads : received (filled served (request.params.served served) front) (sent cfg filter s thread env met) =
      some j)

/-- Every client that goes to this address reads this page. -/
def Answers (cfg : CgiService.Config) (filter : DigitFilter) (s : Service.State) (href page : Bytes) : Prop :=
  ∀ thread env met request, met.failed = false ∧ met.failedLater = false →
    env.queryString = some (queryOfHref href) →
    coreRequest env { met with table := s.base.table } = some request → request.raises = false →
    request.thrown = .nowhere →
      HeaderBlock.read (sent cfg filter s thread env met) =
        some (pageFields (setCookie cfg.cookie (cookieValue cfg.cookie filter met.time env.httpCookie)),
          HeaderBlock.endLine page)

/-- What is in the script is the informer that was asked for. -/
theorem Shown.informer {cfg : CgiService.Config} {filter : DigitFilter} (plain : PlainCookie cfg.cookie)
    (digits : DigitsOnly filter) (whole : WholeConfig cfg.core) {front back : List TemplatePiece}
    (template : cfg.core.template = front ++ .argument 1 :: back) {s : Service.State} {served : Informer} {j : Object}
    (shown : Shown cfg filter front s served j) :
    (∀ key, j.lookup key = served.members.lookup key) ∧
      ∃ request, Service.Names request ∧ request.params.informerId = served.guid := by
  obtain ⟨thread, env, met, request, alive, complete, asks, found, texts, reads⟩ := shown
  obtain ⟨other, other_reads, same⟩ := Delivery.received_page plain digits whole template texts
    complete alive asks found rfl s.serverName (s.threads thread).core
  obtain rfl : j = other := Option.some.inj (reads.symm.trans other_reads)
  refine ⟨same, request, asks.names, ?_⟩
  rw [Service.found?_of_names asks.names, asks.runs, if_neg Bool.false_ne_true] at found
  obtain ⟨row, first, rfl⟩ := Option.map_eq_some_iff.mp found
  have guid : row.guid = request.params.informerId := by simpa using List.find?_some first
  exact guid.symm

/-- Once nothing is to come about an informer, its address is answered with its user code. -/
theorem answers_settled {cfg : CgiService.Config} {filter : DigitFilter} (plain : PlainCookie cfg.cookie)
    (digits : DigitsOnly filter) (whole : WholeConfig cfg.core) (nonempty : cfg.core.templateError ≠ [])
    {s : Service.State} (consistent : Replication.Consistent s.base) (serving : s.Serving) {first : Request}
    (names : Service.Names first) (unreserved : Unreserved first.params.informerId)
    (settled : Service.Settled s.base first.params.informerId)
    (texts : ∀ d ∈ s.base.mongo.docs, d.guid = first.params.informerId →
      WholeInformer (Informer.ofRow cfg.core.rangeCategory d.row)) :
    Answers cfg filter s (userCodeHref first.params.informerId) (userCodePage cfg.core
      ((s.base.mongo.docs.find? fun d => d.guid = first.params.informerId).map
        fun d => Informer.ofRow cfg.core.rangeCategory d.row)) := by
  intro thread env met request alive address complete raises thrown
  have query : request.query = queryOfHref (userCodeHref first.params.informerId) :=
    Option.some.inj ((query_of_coreRequest complete).symm.trans address)
  obtain ⟨request_names, same_id⟩ := names_href names rfl unreserved query
  have found : request.found? cfg.core = (s.base.mongo.docs.find? fun d => d.guid = first.params.informerId).map
      fun d => Informer.ofRow cfg.core.rangeCategory d.row := by
    rw [← same_id] at settled ⊢
    exact Service.found?_of_settled consistent (Or.inr serving) request_names raises (table_of_coreRequest complete)
      settled
  have response : request.response cfg.core = .page (userCodePage cfg.core (request.found? cfg.core)) := by
    rw [Service.response_eq_respond]
    exact respond_userCode nonempty (by rw [query, show_href unreserved]) thrown _
  rw [found] at response
  have free : NulFree (userCodePage cfg.core ((s.base.mongo.docs.find? fun d => d.guid = first.params.informerId).map
      fun d => Informer.ofRow cfg.core.rangeCategory d.row)) := by
    cases doc : s.base.mongo.docs.find? fun d => d.guid = first.params.informerId with
    | none => exact whole.templateError
    | some d => exact userCode_nulFree (texts d (List.mem_of_find?_eq_some doc) (by simpa using List.find?_some doc))
  have now_alive : ({ met with table := s.base.table } : Circumstances).failed = false ∧
      ({ met with table := s.base.table } : Circumstances).failedLater = false := alive
  rw [sent, read_processRequest plain digits now_alive complete, response]
  simp only [cString_of_nulFree free]

/-- A client that asks for an informer about which nothing is to come has it in his script. -/
theorem Shown.of_settled {cfg : CgiService.Config} {filter : DigitFilter} (plain : PlainCookie cfg.cookie)
    (digits : DigitsOnly filter) (whole : WholeConfig cfg.core) {front back : List TemplatePiece}
    (template : cfg.core.template = front ++ .argument 1 :: back) {s : Service.State}
    (consistent : Replication.Consistent s.base) (serving : s.Serving) (thread : Nat) {env : Environment}
    {met : Circumstances} (alive : met.failed = false ∧ met.failedLater = false) {request : Request}
    (complete : coreRequest env { met with table := s.base.table } = some request) (asks : AsksPage request) {d : Doc}
    (member : d ∈ s.base.mongo.docs) (is_guid : d.guid = request.params.informerId)
    (settled : Service.Settled s.base request.params.informerId)
    (texts : WholeInformer (Informer.ofRow cfg.core.rangeCategory d.row)) :
    ∃ j, Shown cfg filter front s (Informer.ofRow cfg.core.rangeCategory d.row) j := by
  have found : request.found? cfg.core = some (Informer.ofRow cfg.core.rangeCategory d.row) := by
    rw [Service.found?_of_settled consistent (Or.inr serving) asks.names asks.runs (table_of_coreRequest complete)
      settled, ← is_guid, Service.find?_doc _ member, Option.map_some]
  obtain ⟨j, reads, -⟩ := Delivery.received_page plain digits whole template texts
    complete alive asks found rfl s.serverName (s.threads thread).core
  exact ⟨j, thread, env, met, request, alive, complete, asks, found, texts, reads⟩

/-- **An informer without offers is served its user code.** For every interleaving
of writes, messages, moves and requests in which no fetched informer message was
dropped: a client has the page of an informer, and its script leaves because there
are no offers. Then the informer had no social branch, the page never shows or
counts an offer, and whenever the client gets there, if nothing is to come about
the informer by then, he reads the user code its document has by then, or that
there is no such informer. -/
theorem redirected {cfg : CgiService.Config} {filter : DigitFilter} (plain : PlainCookie cfg.cookie)
    (digits : DigitsOnly filter) (whole : WholeConfig cfg.core) (nonempty : cfg.core.templateError ≠ [])
    {front back : List TemplatePiece} (template : cfg.core.template = front ++ .argument 1 :: back)
    (mongo : Collection) (serverName : Bytes) (threads : Nat → Service.Thread) {labels later : List Service.Label}
    (kept : EveryStep (Service.step cfg filter) (fun _ _ next => Replication.NoneDropped next.base)
      (Service.initial mongo serverName threads) (labels ++ later))
    (serving : (exec (Service.step cfg filter) (Service.initial mongo serverName threads) (labels ++ later)).Serving)
    {served : Informer} (unreserved : Unreserved served.guid) {j : Object}
    (shown : Shown cfg filter front
      (exec (Service.step cfg filter) (Service.initial mongo serverName threads) labels) served j)
    {ie7 : Bool} {informer : TeaserPage.Informer} (script : scriptInformer j ie7 = some informer)
    (read : OfferRequests.Value → TeaserPage.Offer) (saved : SavedByPages) (browser : Browser)
    {tasks : List TeaserPage.Label} {task : TeaserPage.Label} {href : Bytes}
    (leaving : leaves informer j (exec (TeaserPage.step informer read) (Page.start saved browser) tasks) task =
      some href)
    (settled : Service.Settled
      (exec (Service.step cfg filter) (Service.initial mongo serverName threads) (labels ++ later)).base served.guid)
    (texts : ∀ d ∈ (exec (Service.step cfg filter) (Service.initial mongo serverName threads)
      (labels ++ later)).base.mongo.docs, d.guid = served.guid →
        WholeInformer (Informer.ofRow cfg.core.rangeCategory d.row)) :
    served.socialBranch = false ∧
    (∀ more,
      (exec (TeaserPage.step informer read) (Page.start saved browser) (tasks ++ task :: more)).rendered.flatten = [] ∧
      (exec (TeaserPage.step informer read) (Page.start saved browser) (tasks ++ task :: more)).counted = []) ∧
    Answers cfg filter (exec (Service.step cfg filter) (Service.initial mongo serverName threads) (labels ++ later))
      href (userCodePage cfg.core
        (((exec (Service.step cfg filter) (Service.initial mongo serverName threads)
          (labels ++ later)).base.mongo.docs.find? fun d => d.guid = served.guid).map
            fun d => Informer.ofRow cfg.core.rangeCategory d.row)) := by
  have consistent := Service.consistent_run cfg filter mongo serverName threads kept
  obtain ⟨same, request, names, is_guid⟩ := shown.informer plain digits whole template
  obtain ⟨in_script, has_id⟩ := scriptInformer_members ie7 same
  obtain ⟨social, is_href, -⟩ := left_page informer read saved browser leaving []
  refine ⟨?_, fun more => ?_, ?_⟩
  · obtain rfl := Option.some.inj (script.symm.trans in_script)
    exact social
  · obtain ⟨-, -, rendered, counted, -⟩ := left_page informer read saved browser leaving more
    exact ⟨rendered, counted⟩
  · rw [has_id, Option.map_some] at is_href
    obtain rfl := Option.some.inj is_href
    rw [← is_guid] at unreserved settled texts ⊢
    exact answers_settled plain digits whole nonempty consistent serving names unreserved settled texts

/-- A document with room for one offer, and without a user code. -/
def roomDoc : Doc := ⟨bytes "a1b2", 17, bytes "shop", Function.update Column.default .capacity (.integer 1)⟩

/-- It is created, announced and stored. -/
def roomCreated : List Service.Label :=
  (List.replicate 4 .work ++ [.write (.create roomDoc), .publish (bytes "a1b2")] ++ List.replicate 10 .work :
    List Replication.Label).map .base

/-- It is given its user code. -/
def codeGiven : List Service.Label :=
  ([.write (.modify (bytes "a1b2") (bytes "shop")
      (Function.update roomDoc.values .userCode (.text (bytes "<b>shop</b>")))), .publish (bytes "a1b2")] ++
    List.replicate 10 .work : List Replication.Label).map .base

def roomPage : TeaserPage.Informer := ⟨⟨false, false, false⟩, 1, false, false⟩

def visitor : Environment :=
  ⟨some (bytes "scr=A1B2"), none, some (bytes "10.0.0.1"), some (bytes "/show"), none, none, []⟩

/-- The campaigns come, and the requests for offers fail. -/
def campaignsOnly : List TeaserPage.Label := [.campaign (fun _ => none) fun _ => []]

def noAnswer : TeaserPage.Label := .answered 0 fun _ => .failed

/-- The visitor sees the page before the document has a user code, and comes to
the code afterwards. -/
theorem redirected_codeGiven :
    (∀ more, (exec (TeaserPage.step roomPage fun _ => TeaserPage.shopOffer)
      (Page.start TeaserPage.newBrowser TeaserPage.nothingKnown) (campaignsOnly ++ noAnswer :: more)).counted = []) ∧
    Answers Delivery.scripted asciiFilter
      (exec (Service.step Delivery.scripted asciiFilter) (Service.initial Collection.empty [] Service.shopThreads)
        (roomCreated ++ codeGiven))
      (userCodeHref (bytes "a1b2")) (Core.userCodeBefore ++ bytes "<b>shop</b>" ++ Core.userCodeAfter) := by
  have plain : PlainCookie Delivery.scripted.cookie := by decide
  have first : EveryStep (Service.step Delivery.scripted asciiFilter)
      (fun _ _ next => Replication.NoneDropped next.base)
      (Service.initial Collection.empty [] Service.shopThreads) roomCreated := by
    decide +kernel
  have kept : EveryStep (Service.step Delivery.scripted asciiFilter)
      (fun _ _ next => Replication.NoneDropped next.base)
      (Service.initial Collection.empty [] Service.shopThreads) (roomCreated ++ codeGiven) := by
    decide +kernel
  have neither : UrlParser.param (bytes "scr=A1B2") (bytes "show") ∉ [bytes "status", bytes "usercode"] := by
    decide +kernel
  have asks : AsksPage ⟨bytes "scr=A1B2", [], (exec (Service.step Delivery.scripted asciiFilter)
      (Service.initial Collection.empty [] Service.shopThreads) roomCreated).base.table, false, .nowhere⟩ :=
    ⟨⟨Service.shopRequest_names.nulFree, Service.shopRequest_names.noQuote, Service.shopRequest_names.fits⟩, rfl,
      rfl, neither⟩
  have complete : coreRequest visitor
      { CgiService.calm with table := (exec (Service.step Delivery.scripted asciiFilter)
        (Service.initial Collection.empty [] Service.shopThreads) roomCreated).base.table } =
      some ⟨bytes "scr=A1B2", [], (exec (Service.step Delivery.scripted asciiFilter)
        (Service.initial Collection.empty [] Service.shopThreads) roomCreated).base.table, false, .nowhere⟩ := rfl
  have member : roomDoc ∈ (exec (Service.step Delivery.scripted asciiFilter)
      (Service.initial Collection.empty [] Service.shopThreads) roomCreated).base.mongo.docs := List.mem_cons_self
  obtain ⟨j, shown⟩ := Shown.of_settled plain asciiFilter_digits Delivery.scripted_whole Delivery.scripted_template
    (Service.consistent_run _ _ Collection.empty [] Service.shopThreads first) (by decide +kernel) 0 ⟨rfl, rfl⟩
    complete asks member (by decide +kernel) ⟨by decide +kernel, by decide +kernel⟩ ⟨by decide, by decide⟩
  obtain ⟨same, -⟩ := shown.informer plain asciiFilter_digits Delivery.scripted_whole Delivery.scripted_template
  obtain ⟨in_script, has_id⟩ := scriptInformer_members false same
  have script : scriptInformer j false = some roomPage := in_script
  have leaving : leaves roomPage j (exec (TeaserPage.step roomPage fun _ => TeaserPage.shopOffer)
      (Page.start TeaserPage.newBrowser TeaserPage.nothingKnown) campaignsOnly) noAnswer =
        some (userCodeHref (bytes "a1b2")) := by
    rw [noAnswer, leaves, if_pos (by decide +kernel), has_id]
    rfl
  have docs : (exec (Service.step Delivery.scripted asciiFilter)
      (Service.initial Collection.empty [] Service.shopThreads) (roomCreated ++ codeGiven)).base.mongo.docs =
        [⟨bytes "a1b2", 17, bytes "shop",
          Function.update roomDoc.values .userCode (.text (bytes "<b>shop</b>"))⟩] := rfl
  have redirect := redirected plain asciiFilter_digits Delivery.scripted_whole (by decide) Delivery.scripted_template
    Collection.empty [] Service.shopThreads kept (by decide +kernel) (List.all_eq_true.mp (by decide)) shown script
    (fun _ => TeaserPage.shopOffer) TeaserPage.newBrowser TeaserPage.nothingKnown leaving
    ⟨by decide +kernel, by decide +kernel⟩ (fun d there _ => by
      rw [docs] at there
      obtain rfl := List.mem_singleton.mp there
      exact ⟨by decide, by decide⟩)
  rw [docs] at redirect
  exact ⟨fun more => (redirect.2.1 more).2, redirect.2.2⟩

end WorkerInformer.Redirect
