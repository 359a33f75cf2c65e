import WorkerInformer.CoreProcess
import WorkerInformer.HeaderBlock
import WorkerInformer.PostBody
import WorkerInformer.VisitorCookie
import WorkerInformer.WholeTexts

/-! `src/CgiService.cpp`: a request from its environment to the bytes that are
sent back. Every text goes into the response through `%s`, so it ends at its
first NUL, and nothing is escaped: that a client reads the fields that were
meant, and the whole page, rests on what the texts can hold. -/
namespace WorkerInformer.CgiService
open Bytes Sql Printf InformerTable CoreProcess VisitorCookie Json WholeTexts

/-! ## Responses -/

/-- What `FCGX_FPrintF` writes for a format and its arguments. -/
def fPrintF (format : Bytes) (arguments : List Slot) : Bytes :=
  (render Empty.elim (pieces format) ⟨arguments, [], fun _ => 0⟩).getD []

/-- `Response(req, content, cookie)`. -/
def responsePage (content cookie : Bytes) : Bytes :=
  if content = [] then []
  else
    fPrintF (bytes "Status: 200 OK\r\n") [] ++
    fPrintF (bytes "Content-type: text/html\r\n") [] ++
    fPrintF (bytes "Set-Cookie: %s\r\n") [.pointer cookie] ++
    fPrintF (bytes "Pragma: no-cache\r\n") [] ++
    fPrintF (bytes "Expires: Fri, 01 Jan 1990 00:00:00 GMT\r\n") [] ++
    fPrintF (bytes "Cache-Control: no-cache, must-revalidate, no-cache=\"Set-Cookie\", private\r\n") [] ++
    fPrintF (bytes "\r\n") [] ++
    fPrintF (bytes "%s\r\n") [.pointer content]

/-- `Response(req, status)`. -/
def responseStatus (status : Nat) : Bytes :=
  fPrintF (bytes "Status: %d OK\r\n") [.word status] ++
  fPrintF (bytes "Content-type: text/html\r\n") [] ++
  fPrintF (bytes "\r\n\r\n") []

/-! ## Requests -/

/-- What `FCGX_GetParam` finds, and what is sent along. -/
structure Environment where
  queryString : Option Bytes
  contentLength : Option Bytes
  remoteAddr : Option Bytes
  scriptName : Option Bytes
  httpCookie : Option Bytes
  serverName : Option Bytes
  input : Bytes

/-- What a request meets: whether its connection fails before it is looked at or
before it is answered, the memory behind the buffer for its body, the clock, the
table, whether its query raises and where it throws, and `BaseCore::Status`. -/
structure Circumstances where
  failed : Bool
  failedLater : Bool
  beyond : Bytes
  time : Int
  table : Table
  raises : Bool
  thrown : Thrown
  status : Bytes → Bytes

structure Config where
  core : CoreProcess.Config
  cookie : VisitorCookie.Config

/-- The request the core sees, unless a variable that must be set is not. -/
def coreRequest (env : Environment) (met : Circumstances) : Option Request :=
  match env.queryString with
  | none => none
  | some query =>
    let postq :=
      match env.contentLength with
      | none => []
      | some header => PostBody.postq header env.input met.beyond
    match env.remoteAddr, env.scriptName with
    | some _, some _ => some ⟨query, postq, met.table, met.raises, met.thrown⟩
    | _, _ => none

/-- `CgiService::ProcessRequest`: what it writes, and the member `server_name`
and the core it leaves. -/
def processRequest (cfg : Config) (filter : DigitFilter) (env : Environment) (met : Circumstances)
    (serverName : Bytes) (core : Core) : Bytes × Bytes × Core :=
  if met.failed then ([], serverName, core)
  else
    match coreRequest env met with
    | none => ([], serverName, core)
    | some request =>
      let cookie := setCookie cfg.cookie (cookieValue cfg.cookie filter met.time env.httpCookie)
      let (response, core) := CoreProcess.processRequest cfg.core request core
      let serverName :=
        if response = .status ∧ serverName = [] then env.serverName.getD [] else serverName
      let written :=
        match response with
        | .status => responsePage (met.status serverName) []
        | .page content => responsePage content cookie
        | .code status => responseStatus status
      (if met.failedLater then [] else written, serverName, core)

/-! ## What is written -/

theorem render_pushText {Double : Type*} (fixed : Double → Fixed) (literal : Bytes) (rest : List Piece)
    (va : VaList Double) : render fixed (pushText literal rest) va = (render fixed rest va).map (literal ++ ·) := by
  cases rest with
  | nil => rfl
  | cons piece rest =>
    cases piece with
    | conversion c => rfl
    | text more => simp [pushText, render, Function.comp_def]

/-- Text in front of a conversion is written as it is. -/
theorem render_plain {Double : Type*} (fixed : Double → Fixed) {text : Bytes} (plain : 37 ∉ text) (format : Bytes)
    (va : VaList Double) :
    render fixed (pieces (text ++ format)) va = (render fixed (pieces format) va).map (text ++ ·) := by
  induction text with
  | nil => simp
  | cons b text ih =>
    have other : b ≠ 37 := fun percent => plain (percent ▸ List.mem_cons_self)
    have later := ih fun member => plain (List.mem_cons_of_mem b member)
    rw [List.cons_append, pieces, render_pushText, later, Option.map_map]
    · rfl
    all_goals simp [other]

/-- A line without arguments. -/
theorem fPrintF_line {format line : Bytes} (plain : 37 ∉ format) (ended : format = HeaderBlock.endLine line) :
    fPrintF format [] = HeaderBlock.endLine line := by
  have written := render_plain Empty.elim plain [] ⟨[], [], fun _ => 0⟩
  rw [List.append_nil] at written
  rw [fPrintF, written, pieces, render, Option.map_some, Option.getD_some, List.append_nil, ended]

/-- A line that ends in an argument. -/
theorem fPrintF_argument (argument : Bytes) {name format : Bytes} (plain : 37 ∉ name)
    (ended : format = name ++ bytes "%s\r\n") :
    fPrintF format [.pointer argument] = HeaderBlock.endLine (name ++ cString argument) := by
  have value : render Empty.elim (pieces (bytes "%s\r\n")) ⟨[.pointer argument], [], fun _ => 0⟩ =
      some (HeaderBlock.endLine (cString argument)) := by
    simp [show pieces (bytes "%s\r\n") = [.conversion .s, .text [13, 10]] from rfl, render, VaList.convert,
      VaList.pointer?, HeaderBlock.endLine]
  rw [fPrintF, ended, render_plain _ plain, value, Option.map_some, Option.getD_some, HeaderBlock.endLine,
    HeaderBlock.endLine, List.append_assoc]

/-- The fields before the cookie, and those after it. -/
def fieldsBefore : List Bytes := [bytes "Status: 200 OK", bytes "Content-type: text/html"]

def fieldsAfter : List Bytes :=
  [bytes "Pragma: no-cache", bytes "Expires: Fri, 01 Jan 1990 00:00:00 GMT",
    bytes "Cache-Control: no-cache, must-revalidate, no-cache=\"Set-Cookie\", private"]

/-- The fields of a page's head. -/
def pageFields (cookie : Bytes) : List Bytes := fieldsBefore ++ (bytes "Set-Cookie: " ++ cookie) :: fieldsAfter

def statusFields (status : Nat) : List Bytes :=
  [bytes "Status: " ++ signed (toInt32 status) ++ bytes " OK", bytes "Content-type: text/html"]

theorem responsePage_eq {content : Bytes} (nonempty : content ≠ []) (cookie : Bytes) :
    responsePage content cookie =
      HeaderBlock.write (pageFields (cString cookie)) ++ HeaderBlock.endLine (cString content) := by
  have ok : fPrintF (bytes "Status: 200 OK\r\n") [] = HeaderBlock.endLine (bytes "Status: 200 OK") :=
    fPrintF_line (by decide) rfl
  have type : fPrintF (bytes "Content-type: text/html\r\n") [] =
      HeaderBlock.endLine (bytes "Content-type: text/html") := fPrintF_line (by decide) rfl
  have setCookie : fPrintF (bytes "Set-Cookie: %s\r\n") [.pointer cookie] =
      HeaderBlock.endLine (bytes "Set-Cookie: " ++ cString cookie) := fPrintF_argument cookie (by decide) rfl
  have pragma : fPrintF (bytes "Pragma: no-cache\r\n") [] = HeaderBlock.endLine (bytes "Pragma: no-cache") :=
    fPrintF_line (by decide) rfl
  have expires : fPrintF (bytes "Expires: Fri, 01 Jan 1990 00:00:00 GMT\r\n") [] =
      HeaderBlock.endLine (bytes "Expires: Fri, 01 Jan 1990 00:00:00 GMT") := fPrintF_line (by decide) rfl
  have cache :
      fPrintF (bytes "Cache-Control: no-cache, must-revalidate, no-cache=\"Set-Cookie\", private\r\n") [] =
        HeaderBlock.endLine (bytes "Cache-Control: no-cache, must-revalidate, no-cache=\"Set-Cookie\", private") :=
    fPrintF_line (by decide) rfl
  have empty : fPrintF (bytes "\r\n") [] = HeaderBlock.endLine [] := fPrintF_line (by decide) rfl
  have page : fPrintF (bytes "%s\r\n") [.pointer content] = HeaderBlock.endLine (cString content) :=
    fPrintF_argument content List.not_mem_nil rfl
  rw [responsePage, if_neg nonempty, ok, type, setCookie, pragma, expires, cache, empty, page]
  simp only [HeaderBlock.write, pageFields, fieldsBefore, fieldsAfter, List.flatMap_append, List.flatMap_cons,
    List.flatMap_nil, List.append_assoc, List.nil_append]

theorem responseStatus_eq (status : Nat) :
    responseStatus status = HeaderBlock.write (statusFields status) ++ HeaderBlock.endLine [] := by
  have code : fPrintF (bytes "Status: %d OK\r\n") [.word status] =
      HeaderBlock.endLine (bytes "Status: " ++ signed (toInt32 status) ++ bytes " OK") := by
    simp [fPrintF, show pieces (bytes "Status: %d OK\r\n") =
      [.text (bytes "Status: "), .conversion .d, .text (HeaderBlock.endLine (bytes " OK"))] from rfl, render,
      VaList.convert, VaList.word?, HeaderBlock.endLine]
  have type : fPrintF (bytes "Content-type: text/html\r\n") [] =
      HeaderBlock.endLine (bytes "Content-type: text/html") := fPrintF_line (by decide) rfl
  have empty : fPrintF (bytes "\r\n\r\n") [] = HeaderBlock.endLine [13, 10] := fPrintF_line (by decide) rfl
  rw [responseStatus, code, type, empty]
  simp only [HeaderBlock.write, HeaderBlock.endLine, statusFields, List.flatMap_cons, List.flatMap_nil,
    List.append_assoc, List.nil_append, List.append_nil]

/-! ## The page arrives whole -/

theorem getColumnString_nulFree {v : Value} (whole : Whole v) : NulFree (getColumnString v) := by
  cases v with
  | null => exact List.not_mem_nil
  | integer i => exact signed_nulFree i
  | real text => exact whole
  | text text => exact whole

theorem escapeByte_nulFree (c : UInt8) : NulFree (escapeByte c) := by
  revert c
  exact forall_byte (by decide +kernel)

theorem escapeString_nulFree (text : Bytes) : NulFree (escapeString text) := by
  intro zero
  obtain ⟨c, -, inside⟩ := List.mem_flatMap.mp zero
  exact escapeByte_nulFree c inside

theorem dump_scalar_nulFree (value : Scalar) : NulFree value.dump := by
  cases value with
  | number value => exact signed_nulFree value
  | boolean value => cases value <;> decide
  | string text => simpa [Scalar.dump, NulFree] using escapeString_nulFree text

theorem dumpMember_nulFree (e : Bytes × Scalar) : NulFree (dumpMember e) := by
  have key := escapeString_nulFree e.1
  have value := dump_scalar_nulFree e.2
  have between : NulFree (bytes "\":") := by decide
  simp only [NulFree] at key value between
  simp [NulFree, dumpMember, key, value, between]

/-- A JSON text holds no NUL, whatever is put into it. -/
theorem dump_nulFree (members : Object) : NulFree (dump members) := by
  cases members with
  | nil => decide
  | cons first rest =>
    have head := dumpMember_nulFree first
    have tail : 0 ∉ dumpRest rest := by
      intro zero
      obtain ⟨e, -, inside⟩ := List.mem_flatMap.mp zero
      exact dumpMember_nulFree e ((List.mem_cons.mp inside).resolve_left (by decide))
    simp only [NulFree] at head
    simp [NulFree, dump, head, tail]

theorem select?_whole {t : Table} (texts : WholeTable t) {statement : Statement} {found : List (List Value)}
    (selected : select? t statement = some found) : ∀ columns ∈ found, ∀ v ∈ columns, Whole v := by
  have field {row : Row} (member : row ∈ t.rows) (f : Field) : Whole (row.get f) := by
    cases f with
    | id => trivial
    | guid => exact (texts row member).1
    | other c => exact (texts row member).2 c
  have all (fields : List Field) (keep : Row → Bool) :
      ∀ columns ∈ (t.rows.filter keep).map fun row => fields.map row.get, ∀ v ∈ columns, Whole v := by
    intro columns columns_mem v v_mem
    obtain ⟨row, row_mem, rfl⟩ := List.mem_map.mp columns_mem
    obtain ⟨f, -, rfl⟩ := List.mem_map.mp v_mem
    exact field (List.mem_of_mem_filter row_mem) f
  unfold select? at selected
  split at selected
  · split at selected
    · obtain ⟨fields, -, rfl⟩ := Option.map_eq_some_iff.mp selected
      intro columns member
      split at member
      · exact all fields _ columns member
      · exact all fields _ columns (List.mem_of_mem_take member)
    · cases selected
  · cases selected

/-- The texts of an informer that go into a page as they are. -/
def WholeInformer (informer : Informer) : Prop := NulFree informer.teasersCss ∧ NulFree informer.userCode

theorem ofColumns_whole (rangeCategory : Value) {columns : List Value} (whole : ∀ v ∈ columns, Whole v) :
    WholeInformer (Informer.ofColumns rangeCategory columns) := by
  have column (i : Nat) : NulFree (getColumnString (columns.getD i .null)) := by
    apply getColumnString_nulFree
    rw [List.getD_eq_getElem?_getD]
    cases there : columns[i]? with
    | none => trivial
    | some v => exact whole v (List.mem_of_getElem? there)
  exact ⟨column 12, column 22⟩

theorem found_whole {cfg : CoreProcess.Config} {request : Request} (texts : WholeTable request.table)
    {informer : Informer} (found : request.found? cfg = some informer) : WholeInformer informer := by
  obtain ⟨columns, first, rfl⟩ := Option.map_eq_some_iff.mp found
  apply ofColumns_whole
  have member : columns ∈ request.rows := List.mem_of_mem_head? first
  unfold Request.rows at member
  split at member
  · cases member
  · unfold sqlRows at member
    cases selected : (prepare (informerText request.params.informerId)).bind (select? request.table) with
    | none => simp [selected] at member
    | some rows =>
      obtain ⟨statement, -, chosen⟩ := Option.bind_eq_some_iff.mp selected
      rw [selected] at member
      exact select?_whole texts chosen columns member

/-- The templates hold no NUL. -/
structure WholeConfig (cfg : CoreProcess.Config) : Prop where
  template : ∀ literal, TemplatePiece.text literal ∈ cfg.template → NulFree literal
  templateError : NulFree cfg.templateError

theorem resultHtml_nulFree {cfg : CoreProcess.Config} (whole : WholeConfig cfg) {informer : Informer}
    (texts : WholeInformer informer) (params : Params) : NulFree (resultHtml cfg.template informer params) := by
  have argument (n : Nat) : NulFree (substituted informer params n) := by
    simp only [substituted]
    split
    · exact dump_nulFree _
    · exact dump_nulFree _
    · exact texts.1
    · exact List.not_mem_nil
  have mark : NulFree (if params.testMode then bytes "<!--test-->" else []) := by split <;> decide
  intro zero
  rcases List.mem_append.mp zero with inside | inside
  · obtain ⟨piece, member, here⟩ := List.mem_flatMap.mp inside
    cases piece with
    | text literal => exact whole.template literal member here
    | argument n => exact argument n here
  · exact mark inside

theorem userCode_nulFree {informer : Informer} (texts : WholeInformer informer) :
    NulFree (Core.userCodeBefore ++ informer.userCode ++ Core.userCodeAfter) := by
  have code := texts.2
  have before : NulFree Core.userCodeBefore := by decide +kernel
  have after : NulFree Core.userCodeAfter := by decide
  simp only [NulFree] at code before after
  simp [NulFree, code, before, after]

/-- A page is what was made, and not empty. -/
theorem response_page {cfg : CoreProcess.Config} {request : Request} {content : Bytes}
    (answered : request.response cfg = .page content) :
    content ≠ [] ∧ (if UrlParser.param request.query (bytes "show") = bytes "usercode" then request.userCode cfg
      else request.html cfg) = some content := by
  unfold Request.response at answered
  split at answered
  · cases answered
  split at answered
  · cases answered
  split at answered
  · cases answered
  · rename_i result made
    split at answered
    · cases answered
    split at answered
    · cases answered
    rename_i nonempty
    split at answered
    · cases answered
    · obtain rfl := Response.page.inj answered
      exact ⟨nonempty, made⟩

/-- No page holds a NUL. -/
theorem page_nulFree {cfg : CoreProcess.Config} (whole : WholeConfig cfg) {request : Request}
    (texts : WholeTable request.table) {content : Bytes} (answered : request.response cfg = .page content) :
    NulFree content := by
  have html {page : Bytes} (made : request.html cfg = some page) : NulFree page := by
    unfold Request.html at made
    split at made
    · rename_i informer found
      split at made
      · cases made
      · obtain rfl := Option.some.inj made
        exact resultHtml_nulFree whole (found_whole texts found) _
    · obtain rfl := Option.some.inj made
      exact whole.templateError
  have userCode {page : Bytes} (made : request.userCode cfg = some page) : NulFree page := by
    unfold Request.userCode at made
    split at made
    · rename_i informer found
      split at made
      · cases made
      · obtain rfl := Option.some.inj made
        exact userCode_nulFree (found_whole texts found)
    · obtain rfl := Option.some.inj made
      exact whole.templateError
  have made := (response_page answered).2
  split at made
  · exact userCode made
  · exact html made

/-! ## What the client reads -/

/-- The parts of the cookie that the configuration gives hold neither a NUL nor
the end of a line. -/
def PlainCookie (cfg : VisitorCookie.Config) : Prop :=
  ∀ part ∈ [cfg.cookieName, cfg.cookieDomain, cfg.cookiePath], 0 ∉ part ∧ 10 ∉ part

instance : DecidablePred PlainCookie := fun _ => List.decidableBAll _ _

/-- What the filter leaves of any text is digits. -/
def DigitsOnly (filter : DigitFilter) : Prop :=
  ∀ text left, filter.replace text = some left → ∀ b ∈ left, isDigit b = true

theorem not_mem_signed {b : UInt8} (no_digit : isDigit b = false) (no_minus : b ≠ 45) (i : Int) : b ∉ signed i := by
  have digits (n : Nat) : b ∉ decimal n := fun member => by simp [decimal_isDigit n b member] at no_digit
  unfold signed
  split
  · simpa [no_minus] using digits _
  · exact digits _

/-- The value of the cookie is digits, perhaps behind a minus. -/
theorem not_mem_cookieValue {filter : DigitFilter} (digits : DigitsOnly filter) {b : UInt8}
    (no_digit : isDigit b = false) (no_minus : b ≠ 45) (cfg : VisitorCookie.Config) (time : Int)
    (header : Option Bytes) : b ∉ cookieValue cfg filter time header := by
  unfold cookieValue
  simp only
  split
  · exact not_mem_signed no_digit no_minus time
  · cases left : filter.replace (readHeader cfg.cookieName header) with
    | none => exact List.not_mem_nil
    | some left_over =>
      intro member
      simp [digits _ _ left b member] at no_digit

theorem not_mem_setCookie {cfg : VisitorCookie.Config} {value : Bytes} {b : UInt8}
    (parts : ∀ part ∈ [cfg.cookieName, cfg.cookieDomain, cfg.cookiePath], b ∉ part) (absent : b ∉ value)
    (fixed : ∀ text ∈ [bytes "=", bytes "; ", bytes "Path=", bytes "; Version=1; Max-Age=31536000; Domain=",
      bytes "; HttpOnly;"], b ∉ text) : b ∉ setCookie cfg value := by
  simp only [List.mem_cons, List.not_mem_nil, or_false, forall_eq_or_imp, forall_eq] at parts fixed
  simp only [setCookie, List.mem_append, not_or]
  exact ⟨⟨⟨⟨⟨⟨⟨⟨parts.1, fixed.1⟩, absent⟩, fixed.2.1⟩, fixed.2.2.1⟩, parts.2.2⟩, fixed.2.2.2.1⟩, parts.2.1⟩,
    fixed.2.2.2.2⟩

theorem read_page {content cookie : Bytes} (nonempty : content ≠ []) (whole : NulFree cookie) (one_line : 10 ∉ cookie) :
    HeaderBlock.read (responsePage content cookie) =
      some (pageFields cookie, HeaderBlock.endLine (cString content)) := by
  rw [responsePage_eq nonempty, cString_of_nulFree whole]
  apply HeaderBlock.read_write
  have constant : ∀ line ∈ fieldsBefore ++ fieldsAfter, line ≠ [] ∧ 10 ∉ line := by decide
  intro line member
  rcases List.mem_append.mp member with before | rest
  · exact constant line (List.mem_append_left _ before)
  · rcases List.mem_cons.mp rest with rfl | after
    · have name : 10 ∉ bytes "Set-Cookie: " := by decide
      exact ⟨List.append_ne_nil_of_left_ne_nil (by decide) _, by simp [name, one_line]⟩
    · exact constant line (List.mem_append_right _ after)

theorem read_status (status : Nat) :
    HeaderBlock.read (responseStatus status) = some (statusFields status, HeaderBlock.endLine []) := by
  rw [responseStatus_eq]
  apply HeaderBlock.read_write
  have before : 10 ∉ bytes "Status: " := by decide
  have after : 10 ∉ bytes " OK" := by decide
  have code : 10 ∉ signed (toInt32 status) := not_mem_signed (by decide) (by decide) _
  intro line member
  rcases List.mem_cons.mp member with rfl | member
  · have named : bytes "Status: " ≠ [] := by decide
    exact ⟨List.append_ne_nil_of_left_ne_nil (List.append_ne_nil_of_left_ne_nil named _) _,
      by simp [before, after, code]⟩
  · obtain rfl := List.mem_singleton.mp member
    decide

/-- The core looks into the table the request meets. -/
theorem table_of_coreRequest {env : Environment} {met : Circumstances} {request : Request}
    (complete : coreRequest env met = some request) : request.table = met.table := by
  unfold coreRequest at complete
  split at complete
  · cases complete
  · simp only at complete
    split at complete
    · rw [← Option.some.inj complete]
    · cases complete

theorem query_of_coreRequest {env : Environment} {met : Circumstances} {request : Request}
    (complete : coreRequest env met = some request) : env.queryString = some request.query := by
  unfold coreRequest at complete
  split at complete
  · cases complete
  · rename_i query sent_query
    simp only at complete
    split at complete
    · rw [← Option.some.inj complete, sent_query]
    · cases complete

/-- What is read of the response: the fields, and the page up to a NUL. -/
theorem read_processRequest {cfg : Config} (plain : PlainCookie cfg.cookie) {filter : DigitFilter}
    (digits : DigitsOnly filter) {env : Environment} {met : Circumstances}
    (alive : met.failed = false ∧ met.failedLater = false) {request : Request}
    (complete : coreRequest env met = some request) (serverName : Bytes) (core : Core) :
    HeaderBlock.read (processRequest cfg filter env met serverName core).1 =
      match request.response cfg.core with
      | .page content =>
        some (pageFields (setCookie cfg.cookie (cookieValue cfg.cookie filter met.time env.httpCookie)),
          HeaderBlock.endLine (cString content))
      | .code status => some (statusFields status, HeaderBlock.endLine [])
      | .status =>
        let text := met.status (if serverName = [] then env.serverName.getD [] else serverName)
        if text = [] then none else some (pageFields [], HeaderBlock.endLine (cString text)) := by
  unfold processRequest
  simp only [alive.1, alive.2, complete, processRequest_response, Bool.false_eq_true, ↓reduceIte]
  cases response_is : request.response cfg.core with
  | status =>
    simp only [true_and]
    generalize met.status (if serverName = [] then env.serverName.getD [] else serverName) = text
    by_cases empty : text = []
    · subst empty
      rfl
    · rw [if_neg empty]
      exact read_page empty List.not_mem_nil List.not_mem_nil
  | page content =>
    have value {b : UInt8} (no_digit : isDigit b = false) (no_minus : b ≠ 45) :=
      not_mem_cookieValue digits no_digit no_minus cfg.cookie met.time env.httpCookie
    have no_nul := not_mem_setCookie (fun part member => (plain part member).1) (value (by decide) (by decide))
      (by decide)
    have one_line := not_mem_setCookie (fun part member => (plain part member).2) (value (by decide) (by decide))
      (by decide)
    exact read_page (response_page response_is).1 no_nul one_line
  | code status => exact read_status status

/-- **A client reads the response that was meant.** For every configuration with
plain cookie settings and templates, every request that is complete and alive,
whatever its query, its cookies, its body and the history of its core, the bytes
that are sent are read back as exactly the fields of `Response` with the
visitor's cookie, and behind them the whole page and the end of a line: nothing
a visitor sends adds or changes a field or cuts the page short. -/
theorem client_reads {cfg : Config} (whole : WholeConfig cfg.core) (plain : PlainCookie cfg.cookie)
    {filter : DigitFilter} (digits : DigitsOnly filter) {env : Environment} {met : Circumstances}
    (alive : met.failed = false ∧ met.failedLater = false) (made : MadeByStatements met.table) {request : Request}
    (complete : coreRequest env met = some request) (serverName : Bytes) (core : Core) :
    HeaderBlock.read (processRequest cfg filter env met serverName core).1 =
      match request.response cfg.core with
      | .page content =>
        some (pageFields (setCookie cfg.cookie (cookieValue cfg.cookie filter met.time env.httpCookie)),
          HeaderBlock.endLine content)
      | .code status => some (statusFields status, HeaderBlock.endLine [])
      | .status =>
        let text := met.status (if serverName = [] then env.serverName.getD [] else serverName)
        if text = [] then none else some (pageFields [], HeaderBlock.endLine (cString text)) := by
  rw [read_processRequest plain digits alive complete]
  cases response_is : request.response cfg.core with
  | status => rfl
  | code status => rfl
  | page content =>
    have same_table : request.table = met.table := table_of_coreRequest complete
    have arrives := cString_of_nulFree (page_nulFree whole (same_table ▸ whole_of_made made) response_is)
    simp only [arrives]

theorem asciiFilter_digits : DigitsOnly asciiFilter := by
  intro text left replaced b member
  obtain ⟨-, kept⟩ := Option.ite_none_right_eq_some.mp replaced
  obtain rfl := Option.some.inj kept
  exact (List.mem_filter.mp member).2

/-- A visitor who puts a line of his own into his cookie and a NUL into his country. -/
def hostile : Environment where
  queryString := some (bytes "scr=A1B2&country=%00%0D%0ASet-Cookie:+x")
  contentLength := none
  remoteAddr := some (bytes "10.0.0.1")
  scriptName := some (bytes "/show")
  httpCookie := some (bytes "unique_id=15\r\nX-Header: 7")
  serverName := none
  input := []

def insertInformer : Bytes := bytes "INSERT OR IGNORE INTO Informer (id, guid) VALUES (17, 'a1b2');"

/-- The table has the informer he asks for. -/
def calm : Circumstances :=
  ⟨false, false, [], 1600000000, sqlStatement Table.empty insertInformer, false, .nowhere, id⟩

/-- The page is the JSON text of the parameters. -/
def shop : Config := ⟨⟨[.argument 2, .argument 3], bytes "no informer", .null, true⟩, shopConfig⟩

def hostileRequest : Request :=
  ⟨bytes "scr=A1B2&country=%00%0D%0ASet-Cookie:+x", [], calm.table, false, .nowhere⟩

def hostilePage : Bytes :=
  bytes "\x7b\"capacity\":0,\"country\":\"\\u0000\\r\\nSet-Cookie:+x\",\"informer_id\":\"a1b2\",\"informer_id_int\":17,\"rating_division\":1000,\"region\":\"\",\"request\":\"initial\",\"test\":false\x7d"

/-- He reads the fields that were meant, with the digits of his cookie in one,
and the whole page. -/
theorem client_reads_hostile :
    HeaderBlock.read (processRequest shop asciiFilter hostile calm [] (.fresh [])).1 =
      some (pageFields (setCookie shopConfig (bytes "157")), HeaderBlock.endLine hostilePage) := by
  have whole : WholeConfig shop.core := by
    refine ⟨fun literal member => ?_, by decide⟩
    simp [shop] at member
  have made : MadeByStatements calm.table := ⟨[insertInformer], rfl⟩
  have complete : coreRequest hostile calm = some hostileRequest := rfl
  have page : hostileRequest.response shop.core = .page hostilePage := by decide +kernel
  have cookie : cookieValue shopConfig asciiFilter 1600000000 (some (bytes "unique_id=15\r\nX-Header: 7")) =
      bytes "157" := by decide +kernel
  have read := client_reads whole (by decide) asciiFilter_digits ⟨rfl, rfl⟩ made complete [] (.fresh [])
  rw [page] at read
  rw [read]
  simp only [shop, calm, hostile, cookie]

end WorkerInformer.CgiService
