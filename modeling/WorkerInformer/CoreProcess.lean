import Mathlib.Logic.Function.Basic
import WorkerInformer.CoreDataBase
import WorkerInformer.Params
import WorkerInformer.Runs

/-! `src/Core.cpp`, `src/Core_DataBase.cpp` and `CgiService::ProcessRequest`: one
`Core` serves the requests of a thread, and keeps a pointer to the informer, the
parameters, the returned text and the buffer of the statement from one request
to the next. The heap holds the informers that were made and not yet deleted. -/
namespace WorkerInformer.CoreProcess
open Bytes Sql Printf InformerTable UrlParser CoreDataBase Runs

/-- The member `informer`: the constructor leaves it as it finds it. -/
inductive Pointer
  | unset
  | null
  | object (address : Nat)
  deriving DecidableEq

/-- The functions that use what `informer` points to. -/
inductive Site
  | process
  | userCode
  | resultHtml
  | log
  | clear
  deriving DecidableEq

/-- One use of the pointer: who dereferenced or deleted it, and whether it
pointed to a live object. -/
structure Use where
  site : Site
  live : Bool
  deriving DecidableEq

/-- Class `Core`. `uses` is a history variable, which no function reads. What a
use of a dead pointer does is undefined: the machine records it and goes on. -/
structure Core where
  cmd : Bytes
  informer : Pointer
  heap : Nat → Option Informer
  next : Nat
  params : Option Params
  retHtml : Bytes
  uses : List Use

/-- `new Core()`: the buffer holds whatever lay in its memory. -/
def Core.fresh (cmd : Bytes) : Core where
  cmd := cmd
  informer := .unset
  heap := fun _ => none
  next := 0
  params := none
  retHtml := []
  uses := []

/-- What the thread reads of the configuration. -/
structure Config where
  template : List TemplatePiece
  templateError : Bytes
  rangeCategory : Value
  logInformerId : Bool

/-- Where a request runs into an exception that is none of SQLite's. What the
sending of the page throws is caught on the spot, everything else at the end. -/
inductive Thrown
  | nowhere
  | beforeCore
  | inPage
  | afterCore
  | inSending
  deriving DecidableEq

/-- A request, with the table it finds, whether its query raises, and where it
throws. -/
structure Request where
  query : Bytes
  postq : Bytes
  table : Table
  raises : Bool
  thrown : Thrown

/-- The parameters `ProcessRequest` makes of it. -/
def Request.params (request : Request) : Params := Params.ofRequest request.query request.postq

/-- `Response(req, content, cookie)` or `Response(req, status)`. -/
inductive Response
  | status
  | page (content : Bytes)
  | code (status : Nat)
  deriving DecidableEq

/-- The text `getInformer` formats into `cmd`. -/
def informerText (informer_id : Bytes) : Bytes :=
  (snprintf Empty.elim CMD_SIZE informerSqlStr (arguments informer_id)).getD []

namespace Core

/-- The live object the pointer points to. -/
def points (core : Core) : Option Informer :=
  match core.informer with
  | .object address => core.heap address
  | .unset | .null => none

def deref (site : Site) (core : Core) : Core :=
  { core with uses := core.uses ++ [⟨site, core.points.isSome⟩] }

/-- `bzero(cmd, sizeof(cmd))`, which clears the size of a pointer, and then the
formatted text with its NUL over what is there. -/
def writeCmd (buffer text : Bytes) : Bytes :=
  text ++ 0 :: (List.replicate 8 0 ++ buffer.drop 8).drop (text.length + 1)

/-- `new Informer(...)`. -/
def construct (informer : Informer) (core : Core) : Core :=
  { core with
    informer := .object core.next
    heap := Function.update core.heap core.next (some informer)
    next := core.next + 1 }

/-- `Core_DataBase::getInformer`. -/
def getInformer (core : Core) (rangeCategory : Value) (t : Table) (raises : Bool) (informer_id : Bytes) :
    Bool × Core :=
  let core := { core with informer := .null, cmd := writeCmd core.cmd (informerText informer_id) }
  if raises then (false, core)
  else match (sqlRows t core.cmd).head? with
    | some columns => (true, core.construct (Informer.ofColumns rangeCategory columns))
    | none => (false, core)

/-- `Core::Process`; `none` when it throws. -/
def process (cfg : Config) (request : Request) (prms : Params) (core : Core) : Option Bytes × Core :=
  let (found, core) := { core with params := some prms }.getInformer cfg.rangeCategory request.table
    request.raises prms.informerId
  if found then
    let core := core.deref .process
    match core.points with
    | some informer =>
      let prms := prms.served informer
      let core := { core with params := some prms }.deref .resultHtml
      if request.thrown = .inPage then (none, core)
      else
        let core := { core with retHtml := resultHtml cfg.template informer prms }
        (some core.retHtml, core)
    | none => (none, core)
  else (some cfg.templateError, core)

def userCodeBefore : Bytes :=
  bytes "<html><head><META http-equiv=\"Content-Type\" content=\"text/html; charset=utf-8\"><style type=\"text/css\">html, body \x7bpadding: 0; margin: 0; border: 0;\x7d</style></head><body>"

def userCodeAfter : Bytes := bytes "</body></html>"

/-- `Core::UserCode`; `none` when it throws. -/
def userCode (cfg : Config) (request : Request) (prms : Params) (core : Core) : Option Bytes × Core :=
  let (found, core) := { core with params := some prms }.getInformer cfg.rangeCategory request.table
    request.raises prms.informerId
  if found then
    let core := core.deref .userCode
    match core.points with
    | some informer =>
      if request.thrown = .inPage then (none, core)
      else (some (userCodeBefore ++ informer.userCode ++ userCodeAfter), core)
    | none => (none, core)
  else (some cfg.templateError, core)

/-- `Core::log`, of which only the informer's id reads the pointer. -/
def log (cfg : Config) (core : Core) : Core := if cfg.logInformerId then core.deref .log else core

/-- `Core_DataBase::clear`, which leaves the pointer as it is. -/
def clear (core : Core) : Core :=
  match core.informer with
  | .null => core
  | .unset => core.deref .clear
  | .object address => { core.deref .clear with heap := Function.update core.heap address none }

/-- `Core::ProcessClean`. -/
def processClean (cfg : Config) (core : Core) : Core := (core.log cfg).clear

end Core

/-- `CgiService::ProcessRequest`, from the parsed query on. -/
def processRequest (cfg : Config) (request : Request) (core : Core) : Response × Core :=
  if param request.query (bytes "show") = bytes "status" then (.status, core)
  else if request.thrown = .beforeCore then (.code 503, core)
  else
    let (result, core) :=
      if param request.query (bytes "show") = bytes "usercode" then core.userCode cfg request request.params
      else core.process cfg request request.params
    match result with
    | none => (.code 503, core)
    | some result =>
      if request.thrown = .afterCore then (.code 503, core)
      else
        let response : Response :=
          if result = [] then .code 500
          else if request.thrown = .inSending then .code 503
          else .page result
        (response, core.processClean cfg)

/-- The core after a request. -/
def step (cfg : Config) (core : Core) (request : Request) : Core := (processRequest cfg request core).2

/-! ## What one request does -/

namespace Request

/-- The rows the query finds for its `scr`. -/
def rows (request : Request) : List (List Value) :=
  if request.raises then [] else sqlRows request.table (informerText request.params.informerId)

/-- The informer it is answered with. -/
def found? (cfg : Config) (request : Request) : Option Informer :=
  request.rows.head?.map (Informer.ofColumns cfg.rangeCategory)

/-- What `Core::Process` returns for it. -/
def html (cfg : Config) (request : Request) : Option Bytes :=
  match request.found? cfg with
  | some informer =>
    if request.thrown = .inPage then none
    else some (resultHtml cfg.template informer (request.params.served informer))
  | none => some cfg.templateError

/-- What `Core::UserCode` returns for it. -/
def userCode (cfg : Config) (request : Request) : Option Bytes :=
  match request.found? cfg with
  | some informer =>
    if request.thrown = .inPage then none
    else some (Core.userCodeBefore ++ informer.userCode ++ Core.userCodeAfter)
  | none => some cfg.templateError

/-- What it is answered with: nothing of the core goes into it. -/
def response (cfg : Config) (request : Request) : Response :=
  if param request.query (bytes "show") = bytes "status" then .status
  else if request.thrown = .beforeCore then .code 503
  else
    match if param request.query (bytes "show") = bytes "usercode" then request.userCode cfg else request.html cfg with
    | none => .code 503
    | some result =>
      if request.thrown = .afterCore then .code 503
      else if result = [] then .code 500
      else if request.thrown = .inSending then .code 503
      else .page result

/-- The request reaches the core, and nothing is thrown before or after its page
is built. -/
def Settled (request : Request) : Prop :=
  param request.query (bytes "show") ≠ bytes "status" ∧ request.thrown ≠ .beforeCore ∧ request.thrown ≠ .afterCore

end Request

/-- SQLite reads nothing of the buffer behind the formatted text. -/
theorem sqlRows_writeCmd (t : Table) (buffer text : Bytes) : sqlRows t (Core.writeCmd buffer text) = sqlRows t text := by
  have cut : ∀ rest : Bytes, cString (text ++ 0 :: rest) = cString text := by
    intro rest
    unfold cString
    induction text with
    | nil => rfl
    | cons b text ih => by_cases zero : b = 0 <;> simp [zero, ih]
  simp only [sqlRows, prepare, Core.writeCmd, cut]

/-- A query that does not raise finds what `Core_DataBase::getInformer` finds. -/
theorem found?_eq_getInformer {cfg : Config} {request : Request} (runs : request.raises = false) :
    request.found? cfg =
      CoreDataBase.getInformer cfg.rangeCategory request.table request.params.informerId := by
  have text : informerText request.params.informerId = (formatted request.params.informerId).take (CMD_SIZE - 1) := by
    rw [informerText, snprintf_eq, Option.getD_some]
  rw [Request.found?, Request.rows, runs, if_neg Bool.false_ne_true, text,
    CoreDataBase.getInformer_of_snprintf (snprintf_eq _)]

/-- What a call leaves of a core that came with these uses: the pointer is null,
or it points to the informer that was found, and all uses since were of a live
object. -/
structure Served (found : Option Informer) (before : List Use) (core : Core) : Prop where
  points : core.points = found
  null : found = none → core.informer = .null
  uses : ∃ uses, core.uses = before ++ uses ∧ ∀ use ∈ uses, use.live = true

namespace Served
variable {found : Option Informer} {before : List Use} {core : Core}

/-- The other members do not matter. -/
theorem frame (served : Served found before core) (cmd : Bytes) (params : Option Params) (retHtml : Bytes) :
    Served found before { core with cmd := cmd, params := params, retHtml := retHtml } :=
  ⟨served.points, served.null, served.uses⟩

theorem deref (served : Served found before core) (live : found.isSome = true) (site : Site) :
    Served found before (core.deref site) := by
  obtain ⟨uses, grown, all⟩ := served.uses
  refine ⟨served.points, served.null, uses ++ [⟨site, true⟩], ?_, ?_⟩
  · simp [Core.deref, grown, served.points, live]
  · intro use member
    rcases List.mem_append.mp member with old | new
    · exact all use old
    · obtain rfl := List.mem_singleton.mp new
      rfl

end Served

/-- The call by the rows it finds. -/
private theorem getInformer_of_rows (core : Core) (rangeCategory : Value) (t : Table) (raises : Bool)
    (informer_id : Bytes) : ∃ cmd, core.getInformer rangeCategory t raises informer_id =
      if raises then (false, { core with informer := .null, cmd := cmd })
      else match (sqlRows t (informerText informer_id)).head? with
        | some columns =>
          (true, { core with informer := .null, cmd := cmd }.construct (Informer.ofColumns rangeCategory columns))
        | none => (false, { core with informer := .null, cmd := cmd }) := by
  refine ⟨Core.writeCmd core.cmd (informerText informer_id), ?_⟩
  -- the function is unfolded before it is applied: nothing of the text is evaluated
  conv =>
    lhs
    fun
    fun
    fun
    fun
    fun
    delta Core.getInformer
  have unread := sqlRows_writeCmd t core.cmd (informerText informer_id)
  -- the text and what SQLite reads of it are taken as unknown for the same reason
  obtain ⟨text, is_text⟩ : ∃ text, informerText informer_id = text := ⟨_, rfl⟩
  obtain ⟨query, is_query⟩ : ∃ query, sqlRows t = query := ⟨_, rfl⟩
  rw [is_text, is_query] at unread ⊢
  simp only [unread]

private theorem getInformer_served (cfg : Config) (request : Request) (core : Core) :
    (core.getInformer cfg.rangeCategory request.table request.raises request.params.informerId).1 =
        (request.found? cfg).isSome ∧
      Served (request.found? cfg) core.uses
        (core.getInformer cfg.rangeCategory request.table request.raises request.params.informerId).2 := by
  have no_uses : ∃ uses, core.uses = core.uses ++ uses ∧ ∀ use ∈ uses, use.live = true :=
    ⟨[], (List.append_nil _).symm, fun _ member => absurd member List.not_mem_nil⟩
  obtain ⟨cmd, called⟩ := getInformer_of_rows core cfg.rangeCategory request.table request.raises
    request.params.informerId
  rw [called, Request.found?, Request.rows]
  generalize sqlRows request.table (informerText request.params.informerId) = found
  cases request.raises with
  | true => exact ⟨rfl, rfl, fun _ => rfl, no_uses⟩
  | false =>
    cases found with
    | nil => exact ⟨rfl, rfl, fun _ => rfl, no_uses⟩
    | cons columns rest =>
      refine ⟨rfl, ?_, fun none => absurd none (Option.some_ne_none _), no_uses⟩
      simp [Core.points, Core.construct]

/-- The call of `getInformer` that both functions begin with, by what it finds. -/
private theorem getInformer_cases (cfg : Config) (request : Request) (core : Core) :
    ∃ queried, Served (request.found? cfg) core.uses queried ∧
      { core with params := some request.params }.getInformer cfg.rangeCategory request.table request.raises
        request.params.informerId = ((request.found? cfg).isSome, queried) := by
  obtain ⟨success, served⟩ := getInformer_served cfg request { core with params := some request.params }
  exact ⟨_, served, Prod.ext success rfl⟩

theorem process_served (cfg : Config) (request : Request) (core : Core) :
    (core.process cfg request request.params).1 = request.html cfg ∧
      Served (request.found? cfg) core.uses (core.process cfg request request.params).2 := by
  obtain ⟨queried, served, called⟩ := getInformer_cases cfg request core
  unfold Core.process Request.html
  rw [called]
  cases found : request.found? cfg with
  | none =>
    rw [found] at served
    exact ⟨rfl, served⟩
  | some informer =>
    rw [found] at served
    have used := served.deref rfl .process
    have page := (used.frame queried.cmd (some (request.params.served informer)) queried.retHtml).deref rfl .resultHtml
    have points : (queried.deref .process).points = some informer := used.points
    simp only [Option.isSome_some, ↓reduceIte, points]
    split
    · exact ⟨rfl, page⟩
    · exact ⟨rfl, page.frame queried.cmd _ _⟩

theorem userCode_served (cfg : Config) (request : Request) (core : Core) :
    (core.userCode cfg request request.params).1 = request.userCode cfg ∧
      Served (request.found? cfg) core.uses (core.userCode cfg request request.params).2 := by
  obtain ⟨queried, served, called⟩ := getInformer_cases cfg request core
  unfold Core.userCode Request.userCode
  rw [called]
  cases found : request.found? cfg with
  | none =>
    rw [found] at served
    exact ⟨rfl, served⟩
  | some informer =>
    rw [found] at served
    have used := served.deref rfl .userCode
    have points : (queried.deref .userCode).points = some informer := used.points
    simp only [Option.isSome_some, ↓reduceIte, points]
    split
    · exact ⟨rfl, used⟩
    · exact ⟨rfl, used⟩

/-- Either function's call, as `ProcessRequest` makes it. -/
private theorem called_served (cfg : Config) (request : Request) (core : Core) :
    ∃ after, Served (request.found? cfg) core.uses after ∧
      (if param request.query (bytes "show") = bytes "usercode" then core.userCode cfg request request.params
        else core.process cfg request request.params) =
        (if param request.query (bytes "show") = bytes "usercode" then request.userCode cfg else request.html cfg,
          after) := by
  split
  · obtain ⟨result, served⟩ := userCode_served cfg request core
    exact ⟨_, served, Prod.ext result rfl⟩
  · obtain ⟨result, served⟩ := process_served cfg request core
    exact ⟨_, served, Prod.ext result rfl⟩

/-! ## No data of an earlier request -/

theorem processRequest_response (cfg : Config) (request : Request) (core : Core) :
    (processRequest cfg request core).1 = request.response cfg := by
  obtain ⟨after, -, called⟩ := called_served cfg request core
  unfold processRequest Request.response
  rw [called]
  split
  · rfl
  split
  · rfl
  generalize (if param request.query (bytes "show") = bytes "usercode" then request.userCode cfg
    else request.html cfg) = result
  cases result with
  | none => rfl
  | some page =>
    simp only
    split
    · rfl
    · rfl

/-- **No earlier request reaches a page.** For every configuration and request,
after any two histories of requests, whatever they asked for, found, raised or
threw, the response is the same, and it is the one a new core gives. -/
theorem response_forgets_history (cfg : Config) (request : Request) (earlier other : List Request)
    (cmd otherCmd newCmd : Bytes) :
    (processRequest cfg request (exec (step cfg) (.fresh cmd) earlier)).1 =
        (processRequest cfg request (exec (step cfg) (.fresh otherCmd) other)).1 ∧
      (processRequest cfg request (exec (step cfg) (.fresh cmd) earlier)).1 =
        (processRequest cfg request (.fresh newCmd)).1 := by
  simp only [processRequest_response, and_self]

/-! ## The uses of the pointer -/

/-- A request of the run uses only live objects: if informer ids are logged, a
request that comes to the logging found its informer. -/
def Spared (cfg : Config) (request : Request) : Prop :=
  cfg.logInformerId = true → request.Settled → request.rows ≠ []

/-- The uses of one part of a run, all of live objects exactly under a condition. -/
def UsesLive (before after : List Use) (condition : Prop) : Prop :=
  ∃ uses, after = before ++ uses ∧ ((∀ use ∈ uses, use.live = true) ↔ condition)

theorem Served.usesLive {found : Option Informer} {before : List Use} {core : Core} (served : Served found before core)
    {condition : Prop} (holds : condition) : UsesLive before core.uses condition := by
  obtain ⟨uses, grown, all⟩ := served.uses
  exact ⟨uses, grown, iff_of_true all holds⟩

theorem UsesLive.append {start middle last : List Use} {first second : Prop} (before : UsesLive start middle first)
    (after : UsesLive middle last second) : UsesLive start last (first ∧ second) := by
  obtain ⟨uses, grown, live⟩ := before
  obtain ⟨more, grownMore, liveMore⟩ := after
  refine ⟨uses ++ more, ?_, ?_⟩
  · rw [grownMore, grown, List.append_assoc]
  · rw [List.forall_mem_append, live, liveMore]

/-- `log` reads the id of an informer that may not be there; `clear` looks first. -/
private theorem processClean_uses {found : Option Informer} {before : List Use} {core : Core}
    (served : Served found before core) (cfg : Config) :
    UsesLive before (core.processClean cfg).uses (cfg.logInformerId = true → found ≠ none) := by
  cases found with
  | none =>
    have null := served.null rfl
    have cleaned : core.processClean cfg = core.log cfg := by
      cases logs : cfg.logInformerId <;> simp [Core.processClean, Core.clear, Core.log, Core.deref, logs, null]
    obtain ⟨uses, grown, all⟩ := served.uses
    rw [cleaned, Core.log]
    cases cfg.logInformerId with
    | false => exact ⟨uses, grown, iff_of_true all fun logs => nomatch logs⟩
    | true =>
      refine ⟨uses ++ [⟨.log, false⟩], ?_, iff_of_false ?_ fun logs => logs rfl rfl⟩
      · simp [Core.deref, grown, served.points]
      · intro all
        exact Bool.noConfusion (all ⟨.log, false⟩ (by simp))
  | some informer =>
    have logged : Served (some informer) before (core.log cfg) := by
      unfold Core.log
      split
      · exact served.deref rfl .log
      · exact served
    have cleaned : (core.processClean cfg).uses = ((core.log cfg).deref .clear).uses := by
      have points := logged.points
      unfold Core.processClean Core.clear
      cases pointer : (core.log cfg).informer with
      | unset => rfl
      | null => simp [Core.points, pointer] at points
      | object address => rfl
    rw [cleaned]
    exact (logged.deref rfl .clear).usesLive fun _ => Option.some_ne_none informer

theorem found?_ne_none {cfg : Config} {request : Request} : request.found? cfg ≠ none ↔ request.rows ≠ [] := by
  rw [Request.found?, Option.map_eq_none_iff.ne, List.head?_eq_none_iff.ne]

/-- Only page building throws, and only with an informer. -/
private theorem found_of_threw {cfg : Config} {request : Request}
    (threw : (if param request.query (bytes "show") = bytes "usercode" then request.userCode cfg
      else request.html cfg) = none) : request.rows ≠ [] := by
  have found : request.found? cfg ≠ none := fun absent => by
    simp [Request.userCode, Request.html, absent] at threw
  exact found?_ne_none.mp found

/-- **What one request uses.** -/
theorem step_uses (cfg : Config) (core : Core) (request : Request) :
    UsesLive core.uses (step cfg core request).uses (Spared cfg request) := by
  have unsettled (ignored : ¬ request.Settled) : Spared cfg request := fun _ settled => absurd settled ignored
  have nothing (ignored : ¬ request.Settled) : UsesLive core.uses core.uses (Spared cfg request) :=
    ⟨[], (List.append_nil _).symm, iff_of_true (by simp) (unsettled ignored)⟩
  obtain ⟨after, served, called⟩ := called_served cfg request core
  unfold step processRequest
  rw [called]
  split
  · rename_i status
    exact nothing fun settled => settled.1 status
  split
  · rename_i before
    exact nothing fun settled => settled.2.1 before
  rename_i status before
  cases result : (if param request.query (bytes "show") = bytes "usercode" then request.userCode cfg
    else request.html cfg) with
  | none => exact served.usesLive fun _ _ => found_of_threw result
  | some page =>
    by_cases later : request.thrown = .afterCore
    · simp only [later, ↓reduceIte]
      exact served.usesLive (unsettled fun settled => settled.2.2 later)
    · simp only [later, ↓reduceIte]
      obtain ⟨uses, grown, live⟩ := processClean_uses served cfg
      refine ⟨uses, grown, live.trans ?_⟩
      rw [found?_ne_none]
      exact ⟨fun found logs _ => found logs, fun spared logs => spared logs ⟨status, before, later⟩⟩

/-- What a run uses, request by request. -/
theorem exec_uses (cfg : Config) (core : Core) (requests : List Request) :
    UsesLive core.uses (exec (step cfg) core requests).uses (∀ request ∈ requests, Spared cfg request) := by
  induction requests generalizing core with
  | nil => exact ⟨[], (List.append_nil _).symm, iff_of_true (by simp) (by simp)⟩
  | cons request rest ih =>
    rw [List.forall_mem_cons]
    exact (step_uses cfg core request).append (ih _)

/-- **The pointer is used only while it points to a live informer exactly when
the logging asks for none that is not there.** For every configuration and every
run of one core, each use and each delete is of a live object if and only if
informer ids are not logged, or every request that comes to the logging found a
row. -/
theorem uses_live_iff (cfg : Config) (cmd : Bytes) (requests : List Request) :
    (∀ use ∈ (exec (step cfg) (.fresh cmd) requests).uses, use.live = true) ↔
      ∀ request ∈ requests, Spared cfg request := by
  obtain ⟨uses, grown, live⟩ := exec_uses cfg (.fresh cmd) requests
  rw [grown, ← live]
  rfl

/-- Informer ids are logged, everything else is as small as it gets. -/
def logging : Config := ⟨[.argument 1], bytes "no informer", .null, true⟩

/-- A request for an informer that is not in the table. -/
def unknownInformer : Request := ⟨bytes "scr=b2c3", [], oneInformer, false, .nowhere⟩

/-- The visitor gets the error page, and then `log` reads the id of no informer. -/
theorem log_reads_null :
    (processRequest logging unknownInformer (.fresh [])).1 = .page (bytes "no informer") ∧
      ¬ ∀ use ∈ (exec (step logging) (.fresh []) [unknownInformer]).uses, use.live = true := by
  decide +kernel

end WorkerInformer.CoreProcess
