import WorkerInformer.HistoryCalls
import WorkerInformer.OfferRequests

/-! `template/teaser.html`: the page of one informer as a machine. A label is
one task of the browser: the answer to the campaign request, the answers a group
of offer requests waited for, a rotation timer, one click handler of an offer
block, the end of a block's removal, or a change of what the page finds around
it. Tasks come in any order, so the runs over all label lists are all
interleavings. What only the display reads (the slider, the notifications, the
analytics and the log) is left out. -/
namespace WorkerInformer.TeaserPage
open UserHistory Frames OfferRequests

/-! ## Offers -/

/-- A decimal id. -/
structure OfferId where
  text : String
  digits : ∀ c ∈ text.toList, c.isDigit
  deriving DecidableEq

/-- The property the history keeps for an offer. -/
def OfferId.name (id : OfferId) : PropertyName := PropertyName.decimal id.text id.digits

/-- A key of the exclude stores that is a decimal id. -/
def Decimal (guid : PropertyName) : Prop := ∀ c ∈ guid.text.toList, c.isDigit

/-- `localStorage` as pages leave it: they count offers only, by their ids. -/
structure SavedByPages where
  storage : LocalStorage
  decimal : ∀ c guid, (storage.count c guid).isSome → Decimal guid

/-- `item.image`: a text when it is fetched, a list of texts once it is shown. -/
inductive Image
  | text (value : String)
  | list (images : List String)
  | other
  deriving DecidableEq

/-- The properties the page reads of an offer; `retargeting` is
`item.retargeting == 0` negated. -/
structure Offer where
  id : OfferId
  unique : Option ℚ
  retargeting : Bool
  image : Image
  campaignId : String
  c : String
  campaignDisabledRetargitingStyle : Bool
  campaignDisabledRecomendetStyle : Bool
  deriving DecidableEq

/-- What the history counts of an offer. -/
def Offer.item (offer : Offer) : Item := ⟨offer.id.name, offer.unique, offer.retargeting⟩

/-- A property of a campaign, with its value. -/
inductive Property
  | id (value : OfferId)
  | unique (value : Option ℚ)
  | retargeting (value : Bool)
  | image (value : Image)
  | campaignId (value : String)
  | c (value : String)
  | campaignDisabledRetargitingStyle (value : Bool)
  | campaignDisabledRecomendetStyle (value : Bool)

namespace Offer

def assign (offer : Offer) : Property → Offer
  | .id value => { offer with id := value }
  | .unique value => { offer with unique := value }
  | .retargeting value => { offer with retargeting := value }
  | .image value => { offer with image := value }
  | .campaignId value => { offer with campaignId := value }
  | .c value => { offer with c := value }
  | .campaignDisabledRetargitingStyle value => { offer with campaignDisabledRetargitingStyle := value }
  | .campaignDisabledRecomendetStyle value => { offer with campaignDisabledRecomendetStyle := value }

/-- `$.extend(item, campaign)`. -/
def extend (offer : Offer) (campaign : List Property) : Offer := campaign.foldl assign offer

/-- The two conditions that clear `item.c`. -/
def styled (offer : Offer) : Offer :=
  let offer := if offer.c = "Ret" ∧ offer.campaignDisabledRetargitingStyle then { offer with c := "" } else offer
  if offer.c = "Rec" ∧ offer.campaignDisabledRecomendetStyle then { offer with c := "" } else offer

end Offer

/-- `text.split(' , ')`. -/
def splitImages : List Char → List (List Char)
  | ' ' :: ',' :: ' ' :: rest => [] :: splitImages rest
  | c :: rest =>
    match splitImages rest with
    | [] => [[c]]
    | first :: others => (c :: first) :: others
  | [] => [[]]

/-- `text.replace(/(png|webp)/g, format)`. -/
def replaceFormat (format : List Char) : List Char → List Char
  | 'p' :: 'n' :: 'g' :: rest => format ++ replaceFormat format rest
  | 'w' :: 'e' :: 'b' :: 'p' :: rest => format ++ replaceFormat format rest
  | c :: rest => c :: replaceFormat format rest
  | [] => []

/-- The addresses in `item.image`; of two, both are shown twice. -/
def imgList (format : String) (ie7 : Bool) (image : String) : List String :=
  let addresses := (splitImages image.toList).map fun val => String.ofList (replaceFormat format.toList val)
  let addresses := if addresses.length = 2 then addresses ++ addresses else addresses
  if ie7 then addresses.take 1 else addresses

/-! ## The page -/

/-- What the page knows of its informer and its browser. -/
structure Informer where
  branches : Branches
  capacity : Nat
  autoReload : Bool
  ie7 : Bool

/-- An offer block in the document: `key` tells blocks apart, `handlers` are the
offers whose click handlers are bound to it. -/
structure Block where
  key : Nat
  id : OfferId
  handlers : List Offer
  leaving : Bool

/-- What `generateRequestData` puts into `params`. -/
structure RequestData where
  storage : Bool
  cost : Answer
  gender : Answer
  exclude : String
  retargeting : Answer
  costAccounts : Answer
  genderAccounts : Answer
  retargetingView : Answer
  retargetingExclude : String
  retargetingAccountExclude : String

/-- A request for offers, with the ids of the blocks in the page and of the
fetched offers not rendered yet when it was sent. -/
structure Sent where
  data : RequestData
  shown : List OfferId
  waiting : List OfferId

/-- The state of the page. The last four fields are history variables, which no
function reads: the batches rendered, what rendering counted, the requests sent
for offers, and whether `split` was called on something else than a text. -/
structure Page where
  memory : History
  storage : LocalStorage
  browser : Browser
  format : String
  started : Bool
  params : String → Option String
  campaign : String → List Property
  items : List Offer
  skip : Nat
  show_ : Nat
  iterationChange : Nat
  timers : Nat
  blocks : List Block
  nextKey : Nat
  /-- The requests waiting for their answers, by the number of offers to render. -/
  calls : List Nat
  rendered : List (List Offer)
  counted : List Addition
  sent : List Sent
  failed : Bool

variable (informer : Informer)

/-- The page when the request for the campaigns has been sent. -/
def Page.start (saved : SavedByPages) (browser : Browser) : Page where
  memory := load History.fresh saved.storage
  storage := saved.storage
  browser := browser
  format := "png"
  started := false
  params := fun _ => none
  campaign := fun _ => []
  items := []
  skip := 0
  show_ := 0
  iterationChange := 0
  timers := 0
  blocks := []
  nextKey := 0
  calls := []
  rendered := []
  counted := []
  sent := []
  failed := false

/-- `view_ids`: the blocks in the page, then the fetched offers after `skip`. -/
def Page.viewIds (page : Page) : List String :=
  page.blocks.map (·.id.text) ++ ((page.items.drop page.skip).take informer.capacity).map (·.id.text)

/-- `generateRequestData`: the history is loaded first. -/
def generateRequestData (page : Page) : RequestData × Page :=
  let memory := load page.memory page.storage
  let viewIds := page.viewIds informer
  let get (c : Component) := c.kind.get page.browser (memory c)
  ({ storage := page.storage.available
     cost := get .costUser
     gender := get .genderUser
     exclude := excludeGet .shipped .exclude memory viewIds
     retargeting := get .retargeting
     costAccounts := get .costAccounts
     genderAccounts := get .genderAccounts
     retargetingView := (Component.kind .retargetingView).getString (memory .retargetingView)
     retargetingExclude := excludeGet .shipped .retargetingExclude memory viewIds
     retargetingAccountExclude := excludeGet .shipped .retargetingAccountExclude memory viewIds },
    { page with memory := memory })

/-- The callback of `render` for one item: `none` when `split` is called on
something else than a text, which throws. -/
def Page.display (page : Page) (offer : Offer) : Option Offer :=
  match offer.image with
  | .text image =>
    some ({ offer with image := .list (imgList page.format informer.ie7 image) }.extend
      (page.campaign offer.campaignId)).styled
  | .list _ | .other => none

/-- The items shown before the first throw, and whether there was none. -/
def Page.displayAll (page : Page) : List Offer → List Offer × Bool
  | [] => ([], true)
  | offer :: rest =>
    match page.display informer offer with
    | some shown => (shown :: (page.displayAll rest).1, (page.displayAll rest).2)
    | none => ([], false)

/-- `bindRedirect`: every block with the id of an item gets a handler. -/
def bindRedirect (blocks : List Block) (items : List Offer) : List Block :=
  items.foldl
    (fun blocks v => blocks.map fun b => if b.id = v.id then { b with handlers := b.handlers ++ [v] } else b) blocks

/-- The blocks of a batch, appended to the page. -/
def newBlocks (key : Nat) (items : List Offer) : List Block :=
  (items.zipIdx key).map fun e => ⟨e.2, e.1.id, [], false⟩

/-- The last lines of `render`. -/
def Page.autoReload (page : Page) : Page :=
  if informer.autoReload then
    { page with
      iterationChange := (if page.iterationChange ≥ informer.capacity then 0 else page.iterationChange) + 1
      timers := page.timers + 1 }
  else page

/-- `render(capacity)`, and whether it ran to its end. -/
def render (capacity : Nat) (page : Page) : Page × Bool :=
  let batch := (page.items.drop page.skip).take capacity
  let (items, whole) := page.displayAll informer batch
  let additions := items.flatMap fun item => item.item.rendered
  let memory := additions.foldl History.add (load page.memory page.storage)
  -- the items are changed in place, those behind a throw not at all
  let page := { page with
    memory := memory
    items := page.items.take page.skip ++ items ++ page.items.drop (page.skip + items.length)
    counted := page.counted ++ additions }
  if whole then
    (Page.autoReload informer { page with
      storage := save memory page.storage
      blocks := bindRedirect (page.blocks ++ newBlocks page.nextKey items) items
      nextKey := page.nextKey + items.length
      skip := page.skip + items.length
      show_ := page.show_ + 1
      rendered := page.rendered ++ [items] }, true)
  else ({ page with failed := true }, false)

/-- A request is sent with data of its own. -/
def sendRequest (page : Page) : Page :=
  let (data, page) := generateRequestData informer page
  { page with sent := page.sent ++ [⟨data, page.blocks.map (·.id), (page.items.drop page.skip).map (·.id)⟩] }

/-- The requests `getCampaignData` sends. -/
def sendRequests (page : Page) : Page :=
  ([place informer.branches, retargetingAccount informer.branches, retargetingOffer informer.branches].filter
    fun required => required.sent page.params).foldl (fun page _ => sendRequest informer page) page

/-- `getCampaignDataProcces(capacity)`: render from what is there, or ask for
more offers. -/
def getCampaignDataProcces (capacity : Nat) (page : Page) : Page × Bool :=
  if (page.items.length : ℤ) - (informer.capacity + page.skip) ≥ capacity then render informer capacity page
  else
    let page := sendRequests informer page
    ({ page with calls := page.calls ++ [capacity] }, true)

/-- The items of `offerUnion`, which do not depend on the history. -/
def unionItems (capacity : Nat) (place retargeringAccount retargering : Value) : List Value :=
  (offerUnion capacity place retargeringAccount retargering (Visit.start LocalStorage.empty)).1

/-- The clean operations of `offerUnion`. -/
def runCleans (which : List Clean) (h : History) (st : LocalStorage) : History × LocalStorage :=
  which.foldl (fun state which => which.run state.1 state.2) (h, st)

/-- What `$.when` hands on for one of the requests. -/
def Page.answer (page : Page) (outcome : String → Outcome) (required : Branches → Required) : Value :=
  (required informer.branches).value page.params outcome

/-- The objects the answers to a call bring. -/
def Page.fetched (page : Page) (outcome : String → Outcome) : List Value :=
  let answer := page.answer informer outcome
  unionItems informer.capacity (answer place) (answer retargetingAccount) (answer retargetingOffer)

/-- The callback of `$.when`: the answers are joined, appended to the offers, and
rendered. `read` is what the page reads of a fetched object. -/
def whenAnswered (read : Value → Offer) (capacity : Nat) (outcome : String → Outcome) (page : Page) : Page :=
  let answer := page.answer informer outcome
  let cleaned := runCleans (cleans (answer place) (answer retargetingOffer)) page.memory page.storage
  (render informer capacity { page with
    memory := cleaned.1
    storage := cleaned.2
    items := page.items ++ (page.fetched informer outcome).map read }).1

/-- `offerChange`: the block leaves the page, unless rendering threw. -/
def offerChange (key : Nat) (page : Page) : Page :=
  let (page, whole) := getCampaignDataProcces informer 1 page
  if whole then
    { page with blocks := page.blocks.map fun b => if b.key = key then { b with leaving := true } else b }
  else page

/-- The click handler of an offer: the click is counted, then the block is
changed for another. -/
def clicked (key : Nat) (v : Offer) (page : Page) : Page :=
  let memory := (load page.memory page.storage).add v.item.clicked
  offerChange informer key { page with memory := memory, storage := save memory page.storage }

/-! ## Tasks -/

inductive Label
  /-- The campaigns came: the parameters and the properties of each campaign. -/
  | campaign (params : String → Option String) (properties : String → List Property)
  /-- The answers a waiting call needs are all there. -/
  | answered (call : Nat) (outcome : String → Outcome)
  | timer
  /-- A click runs the handlers of a block one after the other; a handler whose
  window was blocked throws. -/
  | handler (key : Nat) (index : Nat) (opened : Bool)
  /-- The animation of a leaving block has ended. -/
  | removed (key : Nat)
  /-- Another frame has saved its history. -/
  | elsewhere (saved : SavedByPages)
  | clock (browser : Browser)
  /-- The test image was loaded, or was not. -/
  | imageProbe (loaded : Bool)

/-- The block a rotation timer looks for: one that is not there makes it throw. -/
def Page.rotated? (page : Page) : Option Block :=
  let index : ℤ := informer.capacity - page.iterationChange
  if 0 ≤ index then page.blocks[index.toNat]? else none

def step (read : Value → Offer) (page : Page) : Label → Page
  | .campaign params properties =>
    if page.started then page
    else (getCampaignDataProcces informer informer.capacity
      { page with started := true, params := params, campaign := properties }).1
  | .answered call outcome =>
    match page.calls[call]? with
    | some capacity =>
      whenAnswered informer read capacity outcome { page with calls := page.calls.eraseIdx call }
    | none => page
  | .timer =>
    if page.timers = 0 then page
    else
      let page := { page with timers := page.timers - 1 }
      match page.rotated? informer with
      | some block => offerChange informer block.key page
      | none => page
  | .handler key index opened =>
    match (page.blocks.find? fun b => b.key = key).bind fun b => b.handlers[index]? with
    | some v => if opened then clicked informer key v page else page
    | none => page
  | .removed key => { page with blocks := page.blocks.filter fun b => !(b.key = key && b.leaving) }
  | .elsewhere saved => { page with storage := saved.storage }
  | .clock browser => { page with browser := browser }
  | .imageProbe loaded => { page with format := if loaded then "webp" else "png" }

end WorkerInformer.TeaserPage
