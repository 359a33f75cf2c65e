import WorkerInformer.TeaserPaging

/-! `template/teaser.html`: what a request for offers reports. Only the offers
from `skip` to `skip + capacity` are reported as waiting; that these are all of
them follows from the test before a request is sent. The three texts list keys of
the history as well, and what a page counts has decimal keys, so no key hides
another. -/
namespace WorkerInformer.TeaserPage
open Runs UserHistory Frames OfferRequests Texts

variable (informer : Informer) (read : Value → Offer)

/-! ## The keys of the history -/

/-- A history whose counters belong to decimal ids. -/
def DecimalKeys (h : History) : Prop := ∀ c guid, (h.count c guid).isSome → Decimal guid

def DecimalCopy (st : LocalStorage) : Prop := ∀ c guid, (st.count c guid).isSome → Decimal guid

theorem decimal_fresh : DecimalKeys History.fresh := by
  intro c guid counted
  simp at counted

theorem decimal_load {h : History} {st : LocalStorage} (memory : DecimalKeys h) (copy : DecimalCopy st) :
    DecimalKeys (load h st) := by
  intro c guid counted
  cases available : st.available with
  | true =>
    rw [load_count available, Option.isSome_or, Bool.or_eq_true] at counted
    rcases counted with stored | remembered
    · rw [LocalStorage.loaded, Option.isSome_map] at stored
      exact copy c guid stored
    · exact memory c guid remembered
  | false =>
    simp only [load, available, Bool.false_eq_true, ↓reduceIte] at counted
    exact memory c guid counted

theorem decimal_save {h : History} {st : LocalStorage} (memory : DecimalKeys h) (copy : DecimalCopy st) :
    DecimalCopy (save h st) := by
  intro c guid counted
  cases available : st.available with
  | true =>
    rw [save_count available, Option.isSome_map] at counted
    exact memory c guid counted
  | false =>
    simp only [save, available, Bool.false_eq_true, ↓reduceIte] at counted
    exact copy c guid counted

theorem decimal_add {h : History} (memory : DecimalKeys h) {a : Addition} (decimal : Decimal a.id) :
    DecimalKeys (h.add a) := by
  intro c guid counted
  rw [add_count] at counted
  split at counted
  · rename_i here
    exact here.2 ▸ decimal
  · exact memory c guid counted

theorem decimal_foldl_add {h : History} (memory : DecimalKeys h) {additions : List Addition}
    (decimal : ∀ a ∈ additions, Decimal a.id) : DecimalKeys (additions.foldl History.add h) := by
  induction additions generalizing h with
  | nil => exact memory
  | cons a rest ih =>
    exact ih (decimal_add memory (decimal a List.mem_cons_self))
      fun later member => decimal later (List.mem_cons_of_mem _ member)

theorem decimal_clean {h : History} {st : LocalStorage} (memory : DecimalKeys h) (copy : DecimalCopy st)
    (which : Clean) : DecimalKeys (which.run h st).1 ∧ DecimalCopy (which.run h st).2 := by
  have renewed : DecimalKeys (which.run h st).1 := by
    intro c guid counted
    by_cases named : c ∈ which.components
    · rw [clean_renews which h st named] at counted
      cases counted
    · rw [History.count, clean_keeps_memory which h st named] at counted
      exact memory c guid counted
  exact ⟨renewed, by rw [clean_saves]; exact decimal_save renewed copy⟩

theorem decimal_runCleans {h : History} {st : LocalStorage} (memory : DecimalKeys h) (copy : DecimalCopy st)
    (which : List Clean) : DecimalKeys (runCleans which h st).1 ∧ DecimalCopy (runCleans which h st).2 := by
  unfold runCleans
  induction which generalizing h st with
  | nil => exact ⟨memory, copy⟩
  | cons first rest ih =>
    obtain ⟨memory, copy⟩ := decimal_clean memory copy first
    exact ih memory copy

/-- The keys the three operations list are decimal. -/
theorem decimal_excludeKeys {h : History} (memory : DecimalKeys h) (which : ExcludeGet) :
    ∀ key ∈ which.keys h, ∀ c ∈ key.toList, c.isDigit := by
  have listed : ∀ (c : Component) (store : ExcludeOffers false false) (key : PropertyName),
      (∀ guid, store.counts.get? guid = h.count c guid) → key ∈ store.get.map Prod.fst → Decimal key := by
    intro c store key same member
    obtain ⟨count, stored, -⟩ := ExcludeOffers.mem_get.mp member
    exact memory c key (by rw [← same, stored]; rfl)
  have both : ∀ (first second : Component) (one other : ExcludeOffers false false),
      (∀ guid, one.counts.get? guid = h.count first guid) →
        (∀ guid, other.counts.get? guid = h.count second guid) →
          ∀ key ∈ (one.get ++ other.get).map (·.1.text), ∀ c ∈ key.toList, c.isDigit := by
    intro first second one other same_first same_second key member
    obtain ⟨e, here, rfl⟩ := List.mem_map.mp member
    rcases List.mem_append.mp here with shown | clicked
    · exact listed first one e.1 same_first (List.mem_map.mpr ⟨e, shown, rfl⟩)
    · exact listed second other e.1 same_second (List.mem_map.mpr ⟨e, clicked, rfl⟩)
  cases which with
  | exclude => exact both .exclude .excludeClick _ _ (fun _ => rfl) (fun _ => rfl)
  | retargetingExclude => exact both .retargetingExclude .retargetingExcludeClick _ _ (fun _ => rfl) (fun _ => rfl)
  | retargetingAccountExclude =>
    exact both .retargetingAccountExclude .retargetingAccountExcludeClick _ _ (fun _ => rfl) (fun _ => rfl)

/-! ## One text -/

/-- The ids are parts of the text between semicolons, and no part comes twice. -/
structure Lists (text : String) (ids : List OfferId) : Prop where
  contains : ∀ id ∈ ids, id.text ∈ splitAt ';' text
  once : (splitAt ';' text).Nodup

theorem decimal_not_inherited {text : String} (digits : ∀ c ∈ text.toList, c.isDigit) : text ∉ inheritedNames := by
  have letters : (inheritedNames.all fun name => name.toList.any (! ·.isDigit)) = true := by decide
  intro member
  obtain ⟨c, here, letter⟩ := exists_letter letters member
  exact letter (digits c here)

/-- **The operations list the ids they are told.** Whatever the history counts,
the text of the shipped copy has every id it was given, and none twice. -/
theorem lists_viewed {h : History} (memory : DecimalKeys h) (which : ExcludeGet) (viewed : List OfferId) :
    Lists (excludeGet .shipped which h (viewed.map (·.text))) viewed := by
  let listed := unique (which.keys h ++ viewed.map (·.text))
  have known : ∀ id ∈ viewed, id.text ∈ listed := by
    intro id member
    refine mem_uniqueFrom.mpr ⟨List.mem_append_right _ ?_, decimal_not_inherited id.digits⟩
    exact List.mem_map.mpr ⟨id, member, rfl⟩
  have distinct : listed.Nodup := nodup_uniqueFrom _ _
  have separated : ∀ text ∈ listed, ';' ∉ text.toList := by
    intro text member separator
    have digits : ∀ c ∈ text.toList, c.isDigit := by
      rcases List.mem_append.mp (mem_uniqueFrom.mp member).1 with key | id
      · exact decimal_excludeKeys memory which text key
      · obtain ⟨viewed_id, -, rfl⟩ := List.mem_map.mp id
        exact viewed_id.digits
    exact absurd (digits ';' separator) (by decide)
  have text : excludeGet .shipped which h (viewed.map (·.text)) = joinTexts (String.singleton ';') listed := rfl
  rw [text]
  by_cases nothing : listed = []
  · rw [nothing]
    refine ⟨fun id member => ?_, by decide⟩
    have := known id member
    rw [nothing] at this
    cases this
  · have parts := splitAt_joinTexts separated nothing
    exact ⟨by rw [parts]; exact known, by rw [parts]; exact distinct⟩

/-! ## Every request -/

/-- A request reports every block in the page and every fetched offer that was
not rendered. -/
structure Reports (sent : Sent) : Prop where
  exclude : Lists sent.data.exclude (sent.shown ++ sent.waiting)
  retargetingExclude : Lists sent.data.retargetingExclude (sent.shown ++ sent.waiting)
  retargetingAccountExclude : Lists sent.data.retargetingAccountExclude (sent.shown ++ sent.waiting)

/-- Before the campaigns came nothing was fetched, shown or asked for. -/
structure Idle (page : Page) : Prop where
  items : page.items = []
  blocks : page.blocks = []
  timers : page.timers = 0
  calls : page.calls = []

/-- What every task keeps true of the page. -/
structure Informed (page : Page) : Prop where
  idle : page.started = false → Idle page
  memory : DecimalKeys page.memory
  storage : DecimalCopy page.storage
  reports : ∀ sent ∈ page.sent, Reports sent

theorem decimal_rendered (items : List Offer) :
    ∀ a ∈ items.flatMap fun item => item.item.rendered, Decimal a.id := by
  intro a member
  obtain ⟨item, -, here⟩ := List.mem_flatMap.mp member
  have named : a.id = item.id.name := by
    unfold Item.rendered at here
    split at here
    · rcases List.mem_cons.mp here with rfl | here
      · rfl
      · obtain rfl := List.mem_singleton.mp here
        rfl
    · obtain rfl := List.mem_singleton.mp here
      rfl
  rw [named]
  exact item.id.digits

theorem render_history (capacity : Nat) (page : Page) :
    (render informer capacity page).1.memory =
        ((page.shown informer capacity).flatMap fun item => item.item.rendered).foldl History.add
          (load page.memory page.storage) ∧
      ((render informer capacity page).1.storage = save (render informer capacity page).1.memory page.storage ∨
        (render informer capacity page).1.storage = page.storage) ∧
      (render informer capacity page).1.sent = page.sent ∧
      (render informer capacity page).1.started = page.started := by
  unfold render
  simp only
  split
  · unfold Page.autoReload
    split <;> exact ⟨rfl, .inl rfl, rfl, rfl⟩
  · exact ⟨rfl, .inr rfl, rfl, rfl⟩

/-- A started page, with what every task keeps true. -/
structure Running (page : Page) : Prop extends Informed page where
  started : page.started = true

theorem Running.mk' {page : Page} (started : page.started = true) (memory : DecimalKeys page.memory)
    (storage : DecimalCopy page.storage) (reports : ∀ sent ∈ page.sent, Reports sent) : Running page :=
  ⟨⟨fun waiting => absurd (started.symm.trans waiting) (by decide), memory, storage, reports⟩, started⟩

theorem Running.render {page : Page} (running : Running page) (capacity : Nat) :
    Running (render informer capacity page).1 := by
  obtain ⟨memory, storage, sent, started⟩ := render_history informer capacity page
  have decimal : DecimalKeys (TeaserPage.render informer capacity page).1.memory := by
    rw [memory]
    exact decimal_foldl_add (decimal_load running.memory running.storage) (decimal_rendered _)
  refine Running.mk' (started.trans running.started) decimal ?_ (by rw [sent]; exact running.reports)
  rcases storage with saved | kept
  · rw [saved]
    exact decimal_save decimal running.storage
  · rw [kept]
    exact running.storage

/-- A request sent with a small backlog reports all of it. -/
theorem Running.sendRequest {page : Page} (running : Running page)
    (backlog : page.items.length ≤ page.skip + informer.capacity) : Running (sendRequest informer page) := by
  have memory := decimal_load running.memory running.storage
  refine Running.mk' running.started memory running.storage fun sent member => ?_
  rcases List.mem_append.mp member with old | new
  · exact running.reports sent old
  · obtain rfl := List.mem_singleton.mp new
    have all : (page.items.drop page.skip).take informer.capacity = page.items.drop page.skip := by
      apply List.take_of_length_le
      rw [List.length_drop]
      omega
    have ids : page.viewIds informer =
        ((page.blocks.map (·.id)) ++ (page.items.drop page.skip).map (·.id)).map (·.text) := by
      rw [Page.viewIds, all, List.map_append, List.map_map, List.map_map]
      rfl
    constructor
    · show Lists (excludeGet .shipped .exclude _ (page.viewIds informer)) _
      rw [ids]
      exact lists_viewed memory _ _
    · show Lists (excludeGet .shipped .retargetingExclude _ (page.viewIds informer)) _
      rw [ids]
      exact lists_viewed memory _ _
    · show Lists (excludeGet .shipped .retargetingAccountExclude _ (page.viewIds informer)) _
      rw [ids]
      exact lists_viewed memory _ _

theorem Running.sendRequests {page : Page} (running : Running page)
    (backlog : page.items.length ≤ page.skip + informer.capacity) : Running (sendRequests informer page) := by
  unfold TeaserPage.sendRequests
  generalize List.filter _ _ = requests
  induction requests generalizing page with
  | nil => exact running
  | cons first rest ih => exact ih (running.sendRequest informer backlog) backlog

/-- Requests for one offer, or for the first offers, are sent with a small backlog. -/
theorem Running.getCampaignDataProcces {page : Page} (running : Running page) {capacity : Nat}
    (asks : capacity ≤ 1 ∨ page.items = []) : Running (getCampaignDataProcces informer capacity page).1 := by
  unfold TeaserPage.getCampaignDataProcces
  split
  · exact running.render informer capacity
  · rename_i short
    have backlog : page.items.length ≤ page.skip + informer.capacity := by
      rcases asks with one | none
      · omega
      · simp [none]
    have sent := running.sendRequests informer backlog
    exact Running.mk' sent.started sent.memory sent.storage sent.reports

theorem Running.offerChange {page : Page} (running : Running page) (key : Nat) :
    Running (offerChange informer key page) := by
  have asked := running.getCampaignDataProcces informer (.inl le_rfl)
  unfold TeaserPage.offerChange
  simp only
  split
  · exact Running.mk' asked.started asked.memory asked.storage asked.reports
  · exact asked

theorem Running.clicked {page : Page} (running : Running page) (key : Nat) (v : Offer) :
    Running (clicked informer key v page) := by
  have memory : DecimalKeys ((load page.memory page.storage).add v.item.clicked) :=
    decimal_add (decimal_load running.memory running.storage) v.id.digits
  have counted : Running { page with
      memory := (load page.memory page.storage).add v.item.clicked
      storage := save ((load page.memory page.storage).add v.item.clicked) page.storage } :=
    Running.mk' running.started memory (decimal_save memory running.storage) running.reports
  exact counted.offerChange informer key

theorem Running.whenAnswered {page : Page} (running : Running page) (capacity : Nat) (outcome : String → Outcome) :
    Running (whenAnswered informer read capacity outcome page) := by
  unfold TeaserPage.whenAnswered
  obtain ⟨memory, storage⟩ := decimal_runCleans running.memory running.storage
    (cleans (page.answer informer outcome place) (page.answer informer outcome retargetingOffer))
  apply Running.render
  exact Running.mk' running.started memory storage running.reports

theorem Running.step {page : Page} (running : Running page) (label : Label) :
    Running (step informer read page label) := by
  have ⟨started, memory, storage, reports⟩ :=
    And.intro running.started (And.intro running.memory (And.intro running.storage running.reports))
  cases label with
  | campaign params properties =>
    simp only [TeaserPage.step, started, ↓reduceIte]
    exact running
  | answered call outcome =>
    simp only [TeaserPage.step]
    split
    · rename_i capacity waiting
      have answered : Running { page with calls := page.calls.eraseIdx call } :=
        Running.mk' started memory storage reports
      exact answered.whenAnswered informer read capacity outcome
    · exact running
  | timer =>
    simp only [TeaserPage.step]
    split
    · exact running
    · have fired : Running { page with timers := page.timers - 1 } := Running.mk' started memory storage reports
      split
      · exact fired.offerChange informer _
      · exact fired
  | handler key index opened =>
    simp only [TeaserPage.step]
    split
    · split
      · exact running.clicked informer key _
      · exact running
    · exact running
  | removed key => exact Running.mk' started memory storage reports
  | elsewhere saved => exact Running.mk' started memory saved.decimal reports
  | clock | imageProbe => exact Running.mk' started memory storage reports

/-- **What one task keeps.** A page that was not started has nothing to answer,
to click or to rotate, and its first call finds no offers. -/
theorem Informed.step {page : Page} (informed : Informed page) (label : Label) :
    Informed (step informer read page label) := by
  by_cases started : page.started = true
  · exact (Running.mk informed started).step informer read label |>.toInformed
  · have waiting : page.started = false := Bool.eq_false_iff.mpr started
    have ⟨items, blocks, timers, calls⟩ := informed.idle waiting
    cases label with
    | campaign params properties =>
      simp only [TeaserPage.step, waiting, Bool.false_eq_true, ↓reduceIte]
      have asked : Running { page with started := true, params := params, campaign := properties } :=
        Running.mk' rfl informed.memory informed.storage informed.reports
      exact (asked.getCampaignDataProcces informer (.inr items)).toInformed
    | answered call outcome => simpa [TeaserPage.step, calls] using informed
    | timer => simpa [TeaserPage.step, timers] using informed
    | handler key index opened => simpa [TeaserPage.step, blocks] using informed
    | removed key =>
      refine ⟨fun _ => ⟨items, ?_, timers, calls⟩, informed.memory, informed.storage, informed.reports⟩
      simp [TeaserPage.step, blocks]
    | elsewhere saved => exact ⟨fun _ => ⟨items, blocks, timers, calls⟩, informed.memory, saved.decimal, informed.reports⟩
    | clock | imageProbe =>
      exact ⟨fun _ => ⟨items, blocks, timers, calls⟩, informed.memory, informed.storage, informed.reports⟩

/-- **A request reports everything the page has.** In every run of the page,
every request for offers lists, in each of its three texts, the ids of all blocks
in the page and of all fetched offers that were not rendered, each id once. -/
theorem requests_report_all (saved : SavedByPages) (browser : Browser) (labels : List Label) :
    ∀ sent ∈ (exec (step informer read) (Page.start saved browser) labels).sent, Reports sent := by
  have start : Informed (Page.start saved browser) :=
    ⟨fun _ => ⟨rfl, rfl, rfl, rfl⟩, decimal_load decimal_fresh saved.decimal, saved.decimal,
      fun _ member => by cases member⟩
  exact (invariant Informed (fun _ label before => before.step informer read label) labels start).reports

/-- A third click: the request reports the four blocks and the offer that waits. -/
theorem crossedAnswers_reports : ∃ sent ∈ (exec (step twoPlaces readShop) (Page.start newBrowser nothingKnown)
    (crossedAnswers ++ [.handler 2 0 true])).sent,
      sent.shown.map (·.text) = ["17", "18", "19", "20"] ∧ sent.waiting.map (·.text) = ["21"] ∧ Reports sent := by
  have asked : (["17", "18", "19", "20"], ["21"]) ∈
      ((exec (step twoPlaces readShop) (Page.start newBrowser nothingKnown)
        (crossedAnswers ++ [.handler 2 0 true])).sent.map
          fun sent => (sent.shown.map (·.text), sent.waiting.map (·.text))) := by
    decide +kernel
  obtain ⟨sent, member, ids⟩ := List.mem_map.mp asked
  obtain ⟨shown, waiting⟩ := Prod.mk.inj ids
  exact ⟨sent, member, shown, waiting, requests_report_all twoPlaces readShop newBrowser nothingKnown _ sent member⟩

end WorkerInformer.TeaserPage
