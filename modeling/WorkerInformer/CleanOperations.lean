import WorkerInformer.Frames
import WorkerInformer.HistoryRoundTrip

/-! `template/storage.js`: what the clean operations of `UserHistory` do to the
components they are named for and to the others. Four of them renew their
components; `retargeting_click_clean` writes a member of another name, so the
component it is named for stays as it is. -/
namespace WorkerInformer.UserHistory

/-- The components an operation is named for. -/
def CleanCall.components : CleanCall → List Component
  | exclude => [.exclude]
  | excludeClick => [.excludeClick]
  | retargeting => [.retargetingExclude, .retargetingView]
  | retargetingAccount => [.retargetingAccountExclude]
  | retargetingClick => [.retargetingExcludeClick]

/-- Memory and storage agree: every component is stored as it is. -/
def Agrees (session : Session) : Prop :=
  ∀ c : Component, c.kind.Same (session.saved.storage.item c) (some (c.kind.stringify (session.memory.stores c)))

/-- A component without a counter, in memory. -/
def Empty (h : History) (c : Component) : Prop := ∀ id, h.count c id = none

/-- A component without a counter, in memory and in storage. -/
def Emptied (session : Session) (c : Component) : Prop :=
  Empty session.memory.stores c ∧ ∀ id, session.saved.storage.count c id = none

/-- The three lists are what they are without the component. -/
def ContributesNothing (h : History) (c : Component) : Prop :=
  ∀ copy which viewed, excludeGet copy which (h.put c c.kind.fresh) viewed = excludeGet copy which h viewed

/-- A component is the same, in memory and in storage. -/
def Unchanged (c : Component) (before after : Session) : Prop :=
  after.memory.stores c = before.memory.stores c ∧
    c.kind.Same (after.saved.storage.item c) (before.saved.storage.item c)

/-- A new history with what the session has stored. -/
def Session.reloaded (session : Session) : History := (Memory.fresh.load session.saved).stores

/-- The operation empties the components it is named for, in memory and in
storage, so that they add nothing to the lists afterwards or after a reload, and
leaves the others unchanged; with a falsy flag it changes nothing. -/
def CleansNamed (which : CleanCall) (cl : Bool) (before after : Session) : Prop :=
  if cl then
    (∀ c ∈ which.components,
      Emptied after c ∧ ContributesNothing after.memory.stores c ∧ ContributesNothing after.reloaded c) ∧
      ∀ c ∉ which.components, Unchanged c before after
  else after = before

/-! ## What an operation renews -/

theorem renew_named {which : CleanCall} (renews : which ≠ .retargetingClick) (m : Memory) {c : Component}
    (named : c ∈ which.components) : (m.renew which).stores c = c.kind.fresh := by
  cases which with
  | exclude | excludeClick | retargetingAccount =>
    obtain rfl := List.mem_singleton.mp named
    simp only [Memory.renew, put_self]
  | retargeting =>
    rcases List.mem_cons.mp named with rfl | later
    · simp only [Memory.renew]
      rw [put_ne _ _ (by decide), put_self]
    · obtain rfl := List.mem_singleton.mp later
      simp only [Memory.renew, put_self]
  | retargetingClick => exact absurd rfl renews

theorem renew_other (which : CleanCall) (m : Memory) {c : Component} (other : c ∉ which.components) :
    (m.renew which).stores c = m.stores c := by
  cases which with
  | exclude | excludeClick | retargetingAccount => exact put_ne _ _ fun same => other (List.mem_singleton.mpr same)
  | retargeting =>
    simp only [CleanCall.components, List.mem_cons, List.not_mem_nil, or_false, not_or] at other
    exact (put_ne _ _ other.2).trans (put_ne _ _ other.1)
  | retargetingClick => rfl

/-! ## What an empty component contributes -/

/-- The components operations are named for are exclude stores, of which an empty
one has the content of a new one. -/
theorem content_of_empty {which : CleanCall} {h : History} {c : Component} (named : c ∈ which.components)
    (empty : Empty h c) : c.kind.content (h c) = c.kind.content c.kind.fresh := by
  have none_left : ∀ {invert counter : Bool} (store : ExcludeOffers invert counter),
      (∀ id, store.counts.get? id = none) → ownProperties store.counts = [] := by
    intro invert counter store none
    apply List.eq_nil_iff_forall_not_mem.mpr
    intro e member
    have found := mem_ownProperties.mp member
    rw [none e.1] at found
    cases found
  cases which with
  | exclude | excludeClick | retargetingAccount | retargetingClick =>
    obtain rfl := List.mem_singleton.mp named
    exact none_left _ empty
  | retargeting =>
    rcases List.mem_cons.mp named with rfl | later
    · exact none_left _ empty
    · obtain rfl := List.mem_singleton.mp later
      exact none_left _ empty

theorem contributesNothing_of_empty {which : CleanCall} {h : History} {c : Component} (named : c ∈ which.components)
    (empty : Empty h c) : ContributesNothing h c := by
  have same : SameContents (h.put c c.kind.fresh) h := by
    intro other
    by_cases here : other = c
    · subst here
      rw [put_self, content_of_empty named empty]
    · rw [put_ne h _ here]
  intro copy list viewed
  simp only [excludeGet, excludeKeys_congr same]

/-- Nothing is loaded of a component that is stored empty. -/
theorem reloaded_empty {session : Session} {c : Component}
    (stored : ∀ id, session.saved.storage.count c id = none) : Empty session.reloaded c := by
  intro id
  by_cases available : session.saved.storage.available = true
  · have loaded := load_count available History.fresh c id
    rw [loaded_eq_none.mpr (stored id), fresh_count] at loaded
    exact loaded
  · simp [Session.reloaded, Memory.load, UserHistory.load, available, Memory.fresh]

theorem agrees_count {session : Session} (agrees : Agrees session) (c : Component) (id : PropertyName) :
    session.saved.storage.count c id = (session.memory.stores.count c id).map Counter.stringify := by
  rw [LocalStorage.count, (agrees c).storedCount, Kind.storedCount_stringify, History.count]

/-! ## The operations -/

/-- An emptied component is cleaned. -/
theorem cleaned_of_emptied {which : CleanCall} {session : Session} {c : Component} (named : c ∈ which.components)
    (emptied : Emptied session c) :
    Emptied session c ∧ ContributesNothing session.memory.stores c ∧ ContributesNothing session.reloaded c :=
  ⟨emptied, contributesNothing_of_empty named emptied.1, contributesNothing_of_empty named (reloaded_empty emptied.2)⟩

/-- What a truthy flag leaves of the stored counters. -/
theorem save_renewed_count (session : Session) (which : CleanCall) (c : Component) (id : PropertyName) :
    ((session.memory.renew which).save session.saved).storage.count c id =
      if session.saved.storage.available then
        ((session.memory.renew which).stores.count c id).map Counter.stringify
      else session.saved.storage.count c id := by
  split
  · rename_i available
    exact save_count available _ c id
  · rename_i unavailable
    simp [Memory.save, save, unavailable]

theorem emptied_iff {before : Session} (agrees : Agrees before) {which : CleanCall} {c : Component}
    (named : c ∈ which.components) : Emptied (change before (.clean which true)) c ↔
      (which ≠ .retargetingClick ∧ before.saved.storage.available = true) ∨ Empty before.memory.stores c := by
  have stored : ∀ id, (change before (.clean which true)).saved.storage.count c id =
      if before.saved.storage.available then
        ((before.memory.renew which).stores.count c id).map Counter.stringify
      else (before.memory.stores.count c id).map Counter.stringify := by
    intro id
    rw [← agrees_count agrees]
    exact save_renewed_count before which c id
  by_cases renews : which = .retargetingClick
  · subst renews
    have kept : ∀ id, (before.memory.renew .retargetingClick).stores.count c id = before.memory.stores.count c id :=
      fun _ => rfl
    simp only [kept, ite_self] at stored
    simp only [Emptied, stored, ne_eq, not_true_eq_false, false_and, false_or]
    exact and_iff_left_of_imp fun empty id => Option.map_eq_none_iff.mpr (empty id)
  · have renewed : ∀ id, (before.memory.renew which).stores.count c id = none := by
      intro id
      rw [History.count, renew_named renews _ named]
      exact c.kind.count_fresh id
    simp only [renewed] at stored
    have memory : Empty (change before (.clean which true)).memory.stores c := renewed
    by_cases available : before.saved.storage.available = true
    · exact iff_of_true ⟨memory, fun id => by rw [stored, if_pos available, Option.map_none]⟩ (.inl ⟨renews, available⟩)
    · simp only [if_neg available] at stored
      rw [or_iff_right fun works => available works.2, Emptied, and_iff_right memory]
      exact forall_congr' fun id => by rw [stored, Option.map_eq_none_iff]

theorem unchanged_of_other {before : Session} (agrees : Agrees before) {which : CleanCall} {c : Component}
    (other : c ∉ which.components) : Unchanged c before (change before (.clean which true)) := by
  refine ⟨renew_other which before.memory other, ?_⟩
  show c.kind.Same (save (before.memory.renew which).stores before.saved.storage |>.item c) _
  by_cases available : before.saved.storage.available = true
  · rw [save, if_pos available]
    show c.kind.Same (some (c.kind.stringify ((before.memory.renew which).stores c))) _
    rw [renew_other which before.memory other]
    exact (agrees c).symm
  · rw [save, if_neg available]
    exact Kind.Same.refl _ _

/-- When the operation meets its name: the flag is falsy, or storage works and
the operation is not `retargeting_click_clean`, or there is nothing to clean. -/
def MeetsName (which : CleanCall) (cl : Bool) (before : Session) : Prop :=
  cl = true → (which ≠ .retargetingClick ∧ before.saved.storage.available = true) ∨
    ∀ c ∈ which.components, Empty before.memory.stores c

/-- **When a clean operation does what it is named for.** From every history that
agrees with what is stored: exactly unless it is called with a truthy flag to
clean something, and is `retargeting_click_clean` or cannot save. -/
theorem cleansNamed_iff (which : CleanCall) (cl : Bool) {before : Session} (agrees : Agrees before) :
    CleansNamed which cl before (change before (.clean which cl)) ↔ MeetsName which cl before := by
  cases cl with
  | false => exact iff_of_true rfl fun truthy => absurd truthy (by decide)
  | true =>
    have cleaned : CleansNamed which true before (change before (.clean which true)) ↔
        ∀ c ∈ which.components, Emptied (change before (.clean which true)) c := by
      constructor
      · exact fun cleans c named => (cleans.1 c named).1
      · exact fun emptied => ⟨fun c named => cleaned_of_emptied named (emptied c named),
          fun c other => unchanged_of_other agrees other⟩
    have each := forall₂_congr fun c (named : c ∈ which.components) => emptied_iff agrees named
    rw [cleaned, each, MeetsName]
    simp only [forall_const]
    constructor
    · intro all
      by_cases works : which ≠ .retargetingClick ∧ before.saved.storage.available = true
      · exact .inl works
      · exact .inr fun c named => (all c named).resolve_left works
    · rintro (works | nothing) c named
      · exact .inl works
      · exact .inr (nothing c named)

theorem agrees_saved (m : Memory) {saved : Saved} (available : saved.storage.available = true) :
    Agrees ⟨m, m.save saved⟩ := by
  intro c
  show c.kind.Same (save m.stores saved.storage |>.item c) _
  rw [save, if_pos available]
  exact Kind.Same.refl _ _

/-- A retargeting offer was clicked, and the history saved. -/
def retargetingClicked : Session :=
  let m : Memory := { Memory.fresh with
    stores := History.fresh.put .retargetingExcludeClick (ExcludeOffers.fresh.add Frames.offer17.id (some 1)) }
  ⟨m, m.save nothingSaved⟩

theorem exclude_clean_meets_name :
    CleansNamed .exclude true retargetingClicked (change retargetingClicked (.clean .exclude true)) :=
  (cleansNamed_iff .exclude true (agrees_saved _ rfl)).mpr fun _ => .inl ⟨nofun, rfl⟩

/-- `retargeting_click_clean(true)` leaves the click. -/
theorem retargeting_click_stays :
    Agrees retargetingClicked ∧ ¬ CleansNamed .retargetingClick true retargetingClicked
      (change retargetingClicked (.clean .retargetingClick true)) := by
  refine ⟨agrees_saved _ rfl, fun cleans => ?_⟩
  have emptied := (cleans.1 .retargetingExcludeClick (List.mem_singleton.mpr rfl)).1.1 Frames.offer17.id
  exact absurd emptied (by decide +kernel)

end WorkerInformer.UserHistory
