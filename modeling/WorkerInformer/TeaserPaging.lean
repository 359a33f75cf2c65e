import WorkerInformer.TeaserPage

/-! `template/teaser.html`: which offers are rendered. Answers only append to the
offers and the cursor `skip` only moves over what was rendered, so whatever the
order of answers, timers and clicks, the batches are the offers in the order they
came. -/
namespace WorkerInformer.TeaserPage
open Runs UserHistory Frames OfferRequests

variable (informer : Informer) (read : Value → Offer)

/-- The offers, the cursor and what has been rendered are those of before. -/
structure SamePaging (before after : Page) : Prop where
  items : after.items = before.items
  skip : after.skip = before.skip
  rendered : after.rendered = before.rendered
  counted : after.counted = before.counted
  failed : after.failed = before.failed

theorem SamePaging.refl (page : Page) : SamePaging page page := ⟨rfl, rfl, rfl, rfl, rfl⟩

theorem SamePaging.trans {first second third : Page} (one : SamePaging first second)
    (two : SamePaging second third) : SamePaging first third :=
  ⟨two.items.trans one.items, two.skip.trans one.skip, two.rendered.trans one.rendered,
    two.counted.trans one.counted, two.failed.trans one.failed⟩

/-- `render` was called on a page that differs in the fetched offers at most,
and what it did was kept. -/
def RenderedFrom (informer : Informer) (read : Value → Offer) (page after : Page) : Prop :=
  ∃ (values : List Value) (capacity : Nat) (before : Page),
    SamePaging { page with items := page.items ++ values.map read } before ∧
      SamePaging (render informer capacity before).1 after

theorem sendRequests_paging (page : Page) : SamePaging page (sendRequests informer page) := by
  unfold sendRequests
  generalize List.filter _ _ = requests
  induction requests generalizing page with
  | nil => exact SamePaging.refl page
  | cons first rest ih =>
    rw [List.foldl_cons]
    refine SamePaging.trans ?_ (ih _)
    exact ⟨rfl, rfl, rfl, rfl, rfl⟩

/-- A call either renders from the page as it is, or sends requests. -/
theorem getCampaignDataProcces_cases (capacity : Nat) (page : Page) :
    getCampaignDataProcces informer capacity page = render informer capacity page ∨
      SamePaging page (getCampaignDataProcces informer capacity page).1 ∧
        (getCampaignDataProcces informer capacity page).2 = true := by
  unfold getCampaignDataProcces
  split
  · exact .inl rfl
  · have sent := sendRequests_paging informer page
    exact .inr ⟨⟨sent.items, sent.skip, sent.rendered, sent.counted, sent.failed⟩, rfl⟩

theorem getCampaignDataProcces_paging (capacity : Nat) {page before : Page} (same : SamePaging page before) :
    SamePaging page (getCampaignDataProcces informer capacity before).1 ∨
      RenderedFrom informer read page (getCampaignDataProcces informer capacity before).1 := by
  rcases getCampaignDataProcces_cases informer capacity before with renders | ⟨kept, -⟩
  · rw [renders]
    refine .inr ⟨[], capacity, before, ?_, SamePaging.refl _⟩
    simpa using same
  · exact .inl (same.trans kept)

theorem offerChange_paging (key : Nat) {page before : Page} (same : SamePaging page before) :
    SamePaging page (offerChange informer key before) ∨
      RenderedFrom informer read page (offerChange informer key before) := by
  have leaves : SamePaging (getCampaignDataProcces informer 1 before).1 (offerChange informer key before) := by
    unfold offerChange
    simp only
    split
    · exact ⟨rfl, rfl, rfl, rfl, rfl⟩
    · exact SamePaging.refl _
  rcases getCampaignDataProcces_paging informer read 1 same with kept | ⟨values, capacity, start, grown, done⟩
  · exact .inl (kept.trans leaves)
  · exact .inr ⟨values, capacity, start, grown, done.trans leaves⟩

/-- **What a task can do to the offers.** It renders once, after appending what
was fetched, or it leaves them alone. -/
theorem step_paging (page : Page) (label : Label) :
    SamePaging page (step informer read page label) ∨
      RenderedFrom informer read page (step informer read page label) := by
  cases label with
  | campaign params properties =>
    simp only [step]
    split
    · exact .inl (SamePaging.refl page)
    · exact getCampaignDataProcces_paging informer read _ ⟨rfl, rfl, rfl, rfl, rfl⟩
  | answered call outcome =>
    simp only [step]
    split
    · rename_i capacity waiting
      refine .inr ⟨page.fetched informer outcome, capacity, _, ?_, SamePaging.refl _⟩
      exact ⟨rfl, rfl, rfl, rfl, rfl⟩
    · exact .inl (SamePaging.refl page)
  | timer =>
    simp only [step]
    split
    · exact .inl (SamePaging.refl page)
    · split
      · exact offerChange_paging informer read _ ⟨rfl, rfl, rfl, rfl, rfl⟩
      · exact .inl ⟨rfl, rfl, rfl, rfl, rfl⟩
  | handler key index opened =>
    simp only [step]
    split
    · split
      · exact offerChange_paging informer read key ⟨rfl, rfl, rfl, rfl, rfl⟩
      · exact .inl (SamePaging.refl page)
    · exact .inl (SamePaging.refl page)
  | removed | elsewhere | clock | imageProbe => exact .inl ⟨rfl, rfl, rfl, rfl, rfl⟩

/-! ## One rendering -/

/-- The items a call of `render` shows before the first throw. -/
def Page.shown (informer : Informer) (capacity : Nat) (page : Page) : List Offer :=
  (page.displayAll informer ((page.items.drop page.skip).take capacity)).1

/-- The call runs to its end. -/
def Page.whole (informer : Informer) (capacity : Nat) (page : Page) : Bool :=
  (page.displayAll informer ((page.items.drop page.skip).take capacity)).2

theorem render_items (capacity : Nat) (page : Page) :
    (render informer capacity page).1.items = page.items.take page.skip ++ page.shown informer capacity ++
      page.items.drop (page.skip + (page.shown informer capacity).length) := by
  unfold render
  simp only
  split
  · unfold Page.autoReload
    split <;> rfl
  · rfl

theorem render_counted (capacity : Nat) (page : Page) :
    (render informer capacity page).1.counted =
      page.counted ++ (page.shown informer capacity).flatMap fun item => item.item.rendered := by
  unfold render
  simp only
  split
  · unfold Page.autoReload
    split <;> rfl
  · rfl

theorem render_whole {capacity : Nat} {page : Page} (whole : page.whole informer capacity = true) :
    (render informer capacity page).1.skip = page.skip + (page.shown informer capacity).length ∧
      (render informer capacity page).1.rendered = page.rendered ++ [page.shown informer capacity] ∧
      (render informer capacity page).1.failed = page.failed := by
  unfold Page.whole at whole
  unfold render
  simp only [whole, ↓reduceIte]
  unfold Page.autoReload
  split <;> exact ⟨rfl, rfl, rfl⟩

theorem render_threw {capacity : Nat} {page : Page} (threw : page.whole informer capacity = false) :
    (render informer capacity page).1.skip = page.skip ∧
      (render informer capacity page).1.rendered = page.rendered := by
  unfold Page.whole at threw
  unfold render
  simp only [threw, Bool.false_eq_true, ↓reduceIte, and_self]

theorem displayAll_length (page : Page) (items : List Offer) :
    (page.displayAll informer items).1.length ≤ items.length := by
  induction items with
  | nil => exact le_rfl
  | cons offer rest ih =>
    rw [Page.displayAll]
    split
    · simpa using ih
    · exact Nat.zero_le _

/-- Offers with texts for images are all shown. -/
theorem displayAll_texts (page : Page) {items : List Offer}
    (texts : ∀ offer ∈ items, ∃ image, offer.image = .text image) :
    (page.displayAll informer items).2 = true ∧ (page.displayAll informer items).1.length = items.length := by
  induction items with
  | nil => exact ⟨rfl, rfl⟩
  | cons offer rest ih =>
    obtain ⟨image, text⟩ := texts offer List.mem_cons_self
    obtain ⟨whole, length⟩ := ih fun other member => texts other (List.mem_cons_of_mem _ member)
    simp [Page.displayAll, Page.display, text, whole, length]

/-! ## Every run -/

/-- The batches are the offers up to the cursor. -/
structure Paged (page : Page) : Prop where
  within : page.skip ≤ page.items.length
  rendered : page.rendered.flatten = page.items.take page.skip

theorem Paged.of_same {before after : Page} (paged : Paged before) (same : SamePaging before after) : Paged after := by
  obtain ⟨within, rendered⟩ := paged
  constructor
  · rw [same.skip, same.items]
    exact within
  · rw [same.rendered, same.items, same.skip]
    exact rendered

/-- Fetching appends behind the cursor. -/
theorem Paged.append {page : Page} (paged : Paged page) (more : List Offer) :
    Paged { page with items := page.items ++ more } := by
  constructor
  · simpa using Nat.le_add_right_of_le paged.within
  · simpa [List.take_append_of_le_length paged.within] using paged.rendered

theorem shown_length (capacity : Nat) {page : Page} (within : page.skip ≤ page.items.length) :
    page.skip + (page.shown informer capacity).length ≤ page.items.length := by
  have shown : (page.shown informer capacity).length ≤ _ :=
    displayAll_length informer page ((page.items.drop page.skip).take capacity)
  rw [List.length_take, List.length_drop] at shown
  omega

theorem Paged.render {page : Page} (paged : Paged page) (capacity : Nat) :
    Paged (render informer capacity page).1 := by
  have within := paged.within
  have longer := shown_length informer capacity within
  have front : (page.items.take page.skip).length = page.skip := by simpa using within
  have length : (TeaserPage.render informer capacity page).1.items.length = page.items.length := by
    rw [render_items]
    simp only [List.length_append, front, List.length_drop]
    omega
  cases whole : page.whole informer capacity with
  | true =>
    obtain ⟨skip, rendered, -⟩ := render_whole informer whole
    refine ⟨by rw [skip, length]; exact longer, ?_⟩
    rw [rendered, skip, render_items, List.flatten_concat, paged.rendered, List.take_left' (by simp [front])]
  | false =>
    obtain ⟨skip, rendered⟩ := render_threw informer whole
    refine ⟨by rw [skip, length]; exact within, ?_⟩
    rw [rendered, skip, render_items, paged.rendered, List.append_assoc, List.take_left' front]

theorem Paged.step {page : Page} (paged : Paged page) (label : Label) : Paged (step informer read page label) := by
  rcases step_paging informer read page label with
    same | ⟨values, capacity, before, grown, done⟩
  · exact paged.of_same same
  · exact (((paged.append _).of_same grown).render informer capacity).of_same done

/-- Nothing was rendered that `split` could fail on, and each offer rendered was
counted once. -/
structure Untouched (page : Page) : Prop where
  texts : ∀ offer ∈ page.items.drop page.skip, ∃ image, offer.image = .text image
  worked : page.failed = false
  counted : page.counted = (page.items.take page.skip).flatMap fun item => item.item.rendered

theorem Untouched.of_same {before after : Page} (untouched : Untouched before) (same : SamePaging before after) :
    Untouched after := by
  obtain ⟨texts, worked, counted⟩ := untouched
  refine ⟨?_, same.failed.trans worked, ?_⟩
  · rw [same.items, same.skip]
    exact texts
  · rw [same.counted, same.items, same.skip]
    exact counted

theorem Untouched.append {page : Page} (untouched : Untouched page) (within : page.skip ≤ page.items.length)
    {more : List Offer} (texts : ∀ offer ∈ more, ∃ image, offer.image = .text image) :
    Untouched { page with items := page.items ++ more } := by
  refine ⟨fun offer member => ?_, untouched.worked, ?_⟩
  · have parts : offer ∈ page.items.drop page.skip ++ more := by
      simpa [List.drop_append_of_le_length within] using member
    rcases List.mem_append.mp parts with old | new
    · exact untouched.texts offer old
    · exact texts offer new
  · simpa [List.take_append_of_le_length within] using untouched.counted

theorem Untouched.render {page : Page} (untouched : Untouched page) (within : page.skip ≤ page.items.length)
    (capacity : Nat) : Untouched (render informer capacity page).1 := by
  have batch : ∀ offer ∈ (page.items.drop page.skip).take capacity, ∃ image, offer.image = .text image :=
    fun offer member => untouched.texts offer (List.mem_of_mem_take member)
  obtain ⟨whole, -⟩ := displayAll_texts informer page batch
  obtain ⟨skip, -, failed⟩ := render_whole informer whole
  have front : (page.items.take page.skip).length = page.skip := by simpa using within
  have shown : (page.items.take page.skip ++ page.shown informer capacity).length =
      page.skip + (page.shown informer capacity).length := by
    rw [List.length_append, front]
  refine ⟨fun offer member => ?_, failed.trans untouched.worked, ?_⟩
  · rw [render_items, skip, List.drop_left' shown] at member
    apply untouched.texts offer
    rw [← List.drop_drop] at member
    exact List.mem_of_mem_drop member
  · rw [render_counted, render_items, skip, List.take_left' shown, List.flatMap_append, untouched.counted]

theorem Untouched.step {page : Page} (paged : Paged page) (untouched : Untouched page)
    (texts : ∀ value, ∃ image, (read value).image = .text image) (label : Label) :
    Untouched (step informer read page label) := by
  rcases step_paging informer read page label with
    same | ⟨values, capacity, before, grown, done⟩
  · exact untouched.of_same same
  · have fetched : ∀ offer ∈ values.map read, ∃ image, offer.image = .text image := by
      intro offer member
      obtain ⟨value, -, rfl⟩ := List.mem_map.mp member
      exact texts value
    have appended := (untouched.append paged.within fetched).of_same grown
    exact (appended.render informer ((paged.append _).of_same grown).within capacity).of_same done

/-- **Every offer is rendered once, in order.** In every run of the page the
batches rendered so far are the offers up to the cursor, which stays within the
offers; and when the answers hold offers with texts for images, `split` was only
called on texts and every rendering was counted once. -/
theorem rendered_in_order (saved : SavedByPages) (browser : Browser) (labels : List Label) :
    let page := exec (step informer read) (Page.start saved browser) labels
    page.rendered.flatten = page.items.take page.skip ∧ page.skip ≤ page.items.length ∧
      ((∀ value, ∃ image, (read value).image = .text image) →
        page.failed = false ∧
          page.counted = (page.items.take page.skip).flatMap fun item => item.item.rendered) := by
  intro page
  have paged : Paged page :=
    invariant Paged (fun _ label before => before.step informer read label) labels ⟨Nat.zero_le _, rfl⟩
  refine ⟨paged.rendered, paged.within, fun texts => ?_⟩
  have start : Untouched (Page.start saved browser) := by
    refine ⟨fun offer member => ?_, rfl, rfl⟩
    cases member
  have both : Paged page ∧ Untouched page :=
    invariant (fun page => Paged page ∧ Untouched page)
      (fun _ label before =>
        ⟨before.1.step informer read label, before.2.step informer read before.1 texts label⟩)
      labels ⟨⟨Nat.zero_le _, rfl⟩, start⟩
  exact ⟨both.2.worked, both.2.counted⟩

private theorem shop_digits : ∀ text ∈ ["17", "18", "19", "20", "21"], ∀ c ∈ text.toList, c.isDigit := by
  simp only [List.forall_mem_cons, ← List.all_eq_true]
  decide

/-- The ids of a shop's offers. -/
def shopIds : List OfferId :=
  ["17", "18", "19", "20", "21"].attach.map fun text => ⟨text.1, shop_digits text.1 text.2⟩

private theorem seventeen_digits : ∀ c ∈ "17".toList, c.isDigit := shop_digits _ List.mem_cons_self

def shopOffer : Offer := ⟨⟨"17", seventeen_digits⟩, none, false, .text "shop.png", "c1", "", false, false⟩

def nothingKnown : Browser := ⟨0, fun _ => none, fun _ => .nan, fun _ => .nan⟩

def newBrowser : SavedByPages := ⟨LocalStorage.empty, by simp⟩

/-- A page with room for two offers. -/
def twoPlaces : Informer := ⟨⟨true, false, false⟩, 2, false, false⟩

/-- The offer of the shop whose id is in the answer. -/
def readShop (value : Value) : Offer :=
  match value.member "id" with
  | some (.str text) => { shopOffer with id := (shopIds.find? fun id => id.text = text).getD shopOffer.id }
  | _ => shopOffer

/-- An answer with offers of these ids. -/
def brings (ids : List String) (_ : String) : Outcome :=
  .answered (some (.obj [("place", .arr (ids.map fun id => .obj [("id", .str id)]))]))

/-- Two offers come, a click on each asks for another, and the second of the two
requests is answered before the first. -/
def crossedAnswers : List Label :=
  [.campaign (fun _ => none) fun _ => [], .answered 0 (brings ["17", "18"]), .handler 0 0 true, .handler 1 0 true,
    .answered 1 (brings ["19", "20"]), .answered 0 (brings ["21"])]

theorem crossedAnswers_rendered :
    let page := exec (step twoPlaces readShop) (Page.start newBrowser nothingKnown) crossedAnswers
    page.rendered.flatten.map (·.id.text) = ["17", "18", "19", "20"] ∧ page.failed = false ∧
      page.counted = (page.items.take 4).flatMap fun item => item.item.rendered := by
  intro page
  have texts : ∀ value, ∃ image, (readShop value).image = .text image := by
    intro value
    unfold readShop
    split <;> exact ⟨_, rfl⟩
  obtain ⟨rendered, -, whole⟩ := rendered_in_order twoPlaces readShop newBrowser nothingKnown crossedAnswers
  have four : page.skip = 4 := by decide +kernel
  have first : (page.items.take 4).map (·.id.text) = ["17", "18", "19", "20"] := by decide +kernel
  obtain ⟨worked, counted⟩ := whole texts
  rw [← four]
  rw [← four] at first
  exact ⟨(congrArg (List.map (·.id.text)) rendered).trans first, worked, counted⟩

end WorkerInformer.TeaserPage
