import WorkerInformer.TeaserPaging

/-! `template/teaser.html`: the rotation of offer blocks. Every rendering starts a
timer and moves a counter, and a timer that fires takes the block at the capacity
less the counter. The block is there as long as at least as many blocks as the
capacity are in the page while a timer is pending; an answer with too few offers
or a removal too many leaves a gap. -/
namespace WorkerInformer.TeaserPage
open Runs UserHistory Frames OfferRequests

variable (informer : Informer) (read : Value → Offer)

/-- A timer that fires finds its block. -/
def RotationFinds (page : Page) : Label → Prop
  | .timer => page.timers ≠ 0 → (page.rotated? informer).isSome
  | _ => True

/-- The step leaves as many blocks as the capacity wherever a timer is pending:
an answer brings what is missing, a click that renders at once is short of one
block at most, and a removal while a timer is pending leaves enough. -/
def KeepsBlocks (page : Page) : Label → Prop
  | .answered call outcome =>
    ∀ capacity ∈ page.calls[call]?, informer.capacity ≤ page.blocks.length +
      min capacity (page.items.length + (page.fetched informer outcome).length - page.skip)
  | .handler _ _ _ =>
    informer.capacity + page.skip + 1 ≤ page.items.length → informer.capacity ≤ page.blocks.length + 1
  | .removed key =>
    page.timers ≠ 0 → informer.capacity ≤ (page.blocks.filter fun b => !(b.key = key && b.leaving)).length
  | _ => True

instance (page : Page) : (label : Label) → Decidable (RotationFinds informer page label)
  | .timer => inferInstanceAs (Decidable (_ → _))
  | .campaign .. | .answered .. | .handler .. | .removed .. | .elsewhere .. | .clock .. | .imageProbe .. =>
    inferInstanceAs (Decidable True)

instance (page : Page) : (label : Label) → Decidable (KeepsBlocks informer page label)
  | .answered call _ => Option.decidableForallMem page.calls[call]?
  | .handler .. | .removed .. => inferInstanceAs (Decidable (_ → _))
  | .campaign .. | .timer | .elsewhere .. | .clock .. | .imageProbe .. => inferInstanceAs (Decidable True)

/-- While a timer is pending, the block it will look for is in the page. -/
structure RotationReady (page : Page) : Prop where
  blocks : page.timers ≠ 0 → informer.capacity ≤ page.blocks.length
  counter : page.timers ≠ 0 → 1 ≤ page.iterationChange ∧ page.iterationChange ≤ informer.capacity

/-- What the rotation depends on is as before, but for timers that are gone. -/
structure SameRotation (before after : Page) : Prop where
  timers : after.timers ≤ before.timers
  counter : after.iterationChange = before.iterationChange
  blocks : after.blocks.length = before.blocks.length

theorem RotationReady.of_same {before after : Page} (ready : RotationReady informer before)
    (same : SameRotation before after) : RotationReady informer after := by
  have pending : after.timers ≠ 0 → before.timers ≠ 0 := by
    have fewer := same.timers
    omega
  constructor
  · intro timers
    rw [same.blocks]
    exact ready.blocks (pending timers)
  · intro timers
    rw [same.counter]
    exact ready.counter (pending timers)

/-- A block for every place there is: the timer finds its own. -/
theorem RotationReady.finds {page : Page} (ready : RotationReady informer page) (label : Label) :
    RotationFinds informer page label := by
  cases label with
  | timer =>
    intro timers
    obtain ⟨positive, within⟩ := ready.counter timers
    have blocks := ready.blocks timers
    have inside : ((informer.capacity : ℤ) - page.iterationChange).toNat < page.blocks.length := by omega
    rw [Page.rotated?]
    simp only [show (0 : ℤ) ≤ informer.capacity - page.iterationChange by omega, ↓reduceIte]
    rw [List.getElem?_eq_getElem inside, Option.isSome_some]
  | campaign | answered | handler | removed | elsewhere | clock | imageProbe => trivial

theorem bindRedirect_length (blocks : List Block) (items : List Offer) :
    (bindRedirect blocks items).length = blocks.length := by
  unfold bindRedirect
  induction items generalizing blocks with
  | nil => rfl
  | cons v rest ih => rw [List.foldl_cons, ih, List.length_map]

theorem displayAll_whole (page : Page) {items : List Offer} (whole : (page.displayAll informer items).2 = true) :
    (page.displayAll informer items).1.length = items.length := by
  induction items with
  | nil => rfl
  | cons offer rest ih =>
    rw [Page.displayAll] at whole ⊢
    split at whole
    · simp only [List.length_cons, ih whole]
    · cases whole

/-- Rendering adds a block for each offer there is, or throws and adds none. -/
theorem render_rotation (auto : informer.autoReload = true) (capacity : Nat) (page : Page) :
    SameRotation page (render informer capacity page).1 ∨
      (render informer capacity page).1.blocks.length =
          page.blocks.length + min capacity (page.items.length - page.skip) ∧
        (render informer capacity page).1.iterationChange =
          (if page.iterationChange ≥ informer.capacity then 0 else page.iterationChange) + 1 := by
  cases whole : (page.displayAll informer ((page.items.drop page.skip).take capacity)).2 with
  | false =>
    left
    unfold render
    simp only [whole, Bool.false_eq_true, ↓reduceIte]
    exact ⟨Nat.le_refl _, rfl, rfl⟩
  | true =>
    right
    have shown := displayAll_whole informer page whole
    rw [List.length_take, List.length_drop] at shown
    unfold render
    simp only [whole, ↓reduceIte, Page.autoReload, auto]
    refine ⟨?_, trivial⟩
    rw [bindRedirect_length, List.length_append, newBlocks, List.length_map, List.length_zipIdx, shown]

theorem RotationReady.render {page : Page} (auto : informer.autoReload = true) (room : 1 ≤ informer.capacity)
    (ready : RotationReady informer page) {capacity : Nat}
    (enough : informer.capacity ≤ page.blocks.length + min capacity (page.items.length - page.skip)) :
    RotationReady informer (render informer capacity page).1 := by
  rcases render_rotation informer auto capacity page with same | ⟨blocks, counter⟩
  · exact ready.of_same informer same
  · constructor
    · intro _
      rw [blocks]
      exact enough
    · intro _
      rw [counter]
      split <;> omega

theorem sendRequests_rotation (page : Page) : SameRotation page (sendRequests informer page) := by
  unfold sendRequests
  generalize List.filter _ _ = requests
  induction requests generalizing page with
  | nil => exact ⟨Nat.le_refl _, rfl, rfl⟩
  | cons first rest ih =>
    rw [List.foldl_cons]
    obtain ⟨timers, counter, blocks⟩ := ih (sendRequest informer page)
    exact ⟨timers, counter, blocks⟩

/-- A call that renders at once has `capacity` offers to render. -/
theorem RotationReady.process {page : Page} (auto : informer.autoReload = true) (room : 1 ≤ informer.capacity)
    (ready : RotationReady informer page) {capacity : Nat}
    (enough : informer.capacity + page.skip + capacity ≤ page.items.length →
      informer.capacity ≤ page.blocks.length + capacity) :
    RotationReady informer (getCampaignDataProcces informer capacity page).1 := by
  unfold getCampaignDataProcces
  split
  · rename_i waiting
    have waiting : informer.capacity + page.skip + capacity ≤ page.items.length := by omega
    apply ready.render informer auto room
    rw [Nat.min_eq_left (by omega)]
    exact enough waiting
  · obtain ⟨timers, counter, blocks⟩ := sendRequests_rotation informer page
    exact ready.of_same informer ⟨timers, counter, blocks⟩

theorem RotationReady.change {page : Page} (auto : informer.autoReload = true) (room : 1 ≤ informer.capacity)
    (ready : RotationReady informer page) (key : Nat)
    (enough : informer.capacity + page.skip + 1 ≤ page.items.length → informer.capacity ≤ page.blocks.length + 1) :
    RotationReady informer (offerChange informer key page) := by
  have processed := ready.process informer auto room enough
  unfold offerChange
  simp only
  split
  · exact processed.of_same informer ⟨Nat.le_refl _, rfl, List.length_map _⟩
  · exact processed

/-- **What keeps the blocks keeps the rotation ready.** A task that renders starts
a timer and must find the blocks for it; a task that removes a block must leave
them; the other tasks touch neither. -/
theorem RotationReady.step {page : Page} (auto : informer.autoReload = true) (room : 1 ≤ informer.capacity)
    (ready : RotationReady informer page) (label : Label) (keeps : KeepsBlocks informer page label) :
    RotationReady informer (step informer read page label) := by
  cases label with
  | campaign params properties =>
    simp only [TeaserPage.step]
    split
    · exact ready
    · apply RotationReady.process informer auto room
      · exact ready.of_same informer ⟨Nat.le_refl _, rfl, rfl⟩
      · intro _
        exact Nat.le_add_left _ _
  | answered call outcome =>
    simp only [TeaserPage.step]
    split
    · rename_i capacity waiting
      have enough := keeps capacity waiting
      apply RotationReady.render informer auto room
      · exact ready.of_same informer ⟨Nat.le_refl _, rfl, rfl⟩
      · rw [List.length_append, List.length_map]
        exact enough
    · exact ready
  | timer =>
    simp only [TeaserPage.step]
    split
    · exact ready
    rename_i pending
    have blocks := ready.blocks pending
    have fired : RotationReady informer { page with timers := page.timers - 1 } :=
      ready.of_same informer ⟨Nat.sub_le _ _, rfl, rfl⟩
    split
    · apply fired.change informer auto room
      intro _
      exact Nat.le_succ_of_le blocks
    · exact fired
  | handler key index opened =>
    simp only [TeaserPage.step]
    split
    · split
      · apply RotationReady.change informer auto room
        · exact ready.of_same informer ⟨Nat.le_refl _, rfl, rfl⟩
        · exact keeps
      · exact ready
    · exact ready
  | removed key => exact ⟨keeps, ready.counter⟩
  | elsewhere | clock | imageProbe => exact ready.of_same informer ⟨Nat.le_refl _, rfl, rfl⟩

/-- **A rotation never fails on a missing block while the blocks are kept.** In
every run whose tasks keep as many blocks as the capacity wherever a timer is
pending, every timer that fires finds its block. -/
theorem rotation_finds_blocks (auto : informer.autoReload = true) (room : 1 ≤ informer.capacity)
    (saved : SavedByPages) (browser : Browser) (labels : List Label)
    (kept : EveryStep (step informer read) (fun page label _ => KeepsBlocks informer page label)
      (Page.start saved browser) labels) :
    EveryStep (step informer read) (fun page label _ => RotationFinds informer page label)
      (Page.start saved browser) labels := by
  have start : RotationReady informer (Page.start saved browser) :=
    ⟨fun timers => absurd rfl timers, fun timers => absurd rfl timers⟩
  apply guarded_everyStep _ _ start kept
  · intro page label ready keeps
    exact ready.step informer read auto room label keeps
  · intro page label ready _
    exact ready.finds informer label

/-- A page with room for two offers, that rotates them. -/
def twoBlocks : Informer := ⟨⟨true, false, false⟩, 2, true, false⟩

/-- The campaigns come, and the answer brings this many offers. -/
def offersCome (count : Nat) : List Label :=
  [.campaign (fun _ => none) fun _ => [],
    .answered 0 fun _ => .answered (some (.obj [("place", .arr (List.replicate count (.obj [])))]))]

/-- Two offers come and one of them is changed: its block leaves, and an answer
brings another. -/
def oneChanged : List Label :=
  offersCome 2 ++ [.timer, .removed 1,
    .answered 0 fun _ => .answered (some (.obj [("place", .arr [.obj []])])), .timer]

theorem oneChanged_finds :
    EveryStep (step twoBlocks fun _ => shopOffer) (fun page label _ => RotationFinds twoBlocks page label)
      (Page.start newBrowser nothingKnown) oneChanged :=
  rotation_finds_blocks twoBlocks (fun _ => shopOffer) rfl (by decide) newBrowser nothingKnown oneChanged
    (by decide +kernel)

/-- An answer with one offer for two places: the timer looks for the second. -/
theorem oneOffer_missing :
    ¬ EveryStep (step twoBlocks fun _ => shopOffer) (fun page label _ => RotationFinds twoBlocks page label)
      (Page.start newBrowser nothingKnown) (offersCome 1 ++ [.timer]) := by
  decide +kernel

end WorkerInformer.TeaserPage
