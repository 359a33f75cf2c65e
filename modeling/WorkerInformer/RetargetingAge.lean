import WorkerInformer.Calendar
import WorkerInformer.HistoryCalls

/-! `template/storage.js`: the days that `RetargetingOffers.get` names with an
offer. They are counted between the local days of the month of the offer's time
and of the present, so they grow with time only as long as the month lasts, and
over its end only from an offer of its second half to the first day of the next
month. -/
namespace WorkerInformer.UserHistory.RetargetingOffers
open Calendar Texts

/-- The clock of a zone that is always this many milliseconds ahead. -/
def fixedOffset (offset : ℤ) : Clock where
  day time := (time + offset) / 86400000
  forward time := by omega
  oneByOne time := by omega
  endless bound := ⟨bound * 86400000 - offset, by omega⟩

/-- What `new Date(time)` keeps of a number: whole milliseconds. -/
def milliseconds (time : ℚ) : ℤ := if 0 ≤ time then time.floor else time.ceil

/-- A browser in the zone of this clock at this moment. -/
def browserAt (browser : Browser) (zone : Clock) (now : ℤ) : Browser :=
  { browser with
    now := now
    getDate := fun time => some (gregorian.dayOfMonth (zone.day (milliseconds time))) }

/-- An offer that a store keeps under a key. -/
structure StoredOffer where
  store : RetargetingOffers
  key : PropertyName
  expiry : ℚ
  second : Scalar
  third : Scalar
  /-- Seconds. -/
  time : ℚ
  stored : store.offers.get? key = some (.num expiry, second, third, .num time)

namespace StoredOffer
variable (offer : StoredOffer)

/-- What `get` says of the offer when its days are these. -/
def line (age : ℚ) : String :=
  String.ofList (beforeDots offer.key.text.toList) ++ "~" ++ offer.third.toText ++ "~" ++ offer.second.toText ++ "~" ++
    Number.finiteText age

/-- `get` lists the offer with these days. -/
structure Emits (browser : Browser) (age : ℚ) : Prop where
  days : days browser (.num offer.time) = some age
  listed : ∃ lines, get browser offer.store = joinTexts ";" lines ∧ offer.line age ∈ lines

/-- At a later moment before it expires the offer does not look younger. -/
def NeverYounger (browser : Browser) (zone : Clock) : Prop :=
  ∀ now₁ now₂ : ℤ, offer.time * 1000 ≤ (now₁ : ℚ) → now₁ ≤ now₂ → (now₂ : ℚ) < offer.expiry →
    ∃ age₁ age₂, offer.Emits (browserAt browser zone now₁) age₁ ∧ offer.Emits (browserAt browser zone now₂) age₂ ∧
      age₁ ≤ age₂

/-- The local day of the offer's time. -/
def day (zone : Clock) : ℤ := zone.day (milliseconds (offer.time * 1000))

/-- The local day of the first moment that is not before the offer's time. -/
def firstDay (zone : Clock) : ℤ := zone.day (offer.time * 1000).ceil

/-- The local day of the last moment before the offer expires. -/
def lastDay (zone : Clock) : ℤ := zone.day (offer.expiry.ceil - 1)

/-- The offer expires within the month of its time, or on the first day of the next
month and its time is in the second half of its own. -/
def ExpiresInTime (zone : Clock) : Prop :=
  offer.lastDay zone < gregorian.firstDay (gregorian.monthOf (offer.day zone) + 1) ∨
    offer.lastDay zone = gregorian.firstDay (gregorian.monthOf (offer.day zone) + 1) ∧
      gregorian.daysIn (gregorian.monthOf (offer.day zone)) < 2 * gregorian.dayOfMonth (offer.day zone)

variable {offer} {browser : Browser} {zone : Clock}

/-- What `get` prints of an offer that has not expired. -/
theorem get_lists {age : ℚ} (fresh : isFresh browser (.num offer.expiry) = true)
    (aged : RetargetingOffers.days browser (.num offer.time) = some age) :
    ∃ lines, get browser offer.store = joinTexts ";" lines ∧ offer.line age ∈ lines := by
  refine ⟨_, rfl, ?_⟩
  simp only [List.mem_map, List.mem_insertionSort, List.mem_filter, exists_exists_and_eq_and]
  refine ⟨(offer.key, _), ⟨mem_ownProperties.mpr offer.stored, fresh⟩, ?_⟩
  simp only [aged, Option.map_some, Option.getD_some]
  rfl

theorem milliseconds_intCast (time : ℤ) : milliseconds time = time := by
  rw [milliseconds, Rat.floor_intCast, Rat.ceil_intCast, ite_self]

/-- The moment that is kept is less than a millisecond away from the number. -/
theorem milliseconds_ceil (time : ℚ) : milliseconds time ≤ time.ceil ∧ time.ceil ≤ milliseconds time + 1 := by
  have rounded : time.floor ≤ time.ceil ∧ time.ceil ≤ time.floor + 1 := by
    constructor
    · exact Rat.intCast_le_intCast.mp (le_trans (Rat.floor_le time) Rat.le_ceil)
    · exact Rat.ceil_le_iff.mpr (le_of_lt (Rat.lt_floor_add_one time))
  rw [milliseconds]
  split
  · exact rounded
  · omega

/-- The days are those between two days of the month. -/
theorem days_browserAt (time : ℚ) (now : ℤ) :
    RetargetingOffers.days (browserAt browser zone now) (.num time) =
      some ((gregorian.apart (zone.day (milliseconds (time * 1000))) (zone.day now) : ℤ) : ℚ) := by
  simp only [RetargetingOffers.days, browserAt, Scalar.toNumber, Rat.floor_intCast, milliseconds_intCast,
    Option.bind_eq_bind, Option.bind_some, Months.apart]
  rw [abs_eq_max_neg, neg_sub]
  push_cast
  rfl

theorem isFresh_browserAt {now : ℤ} (fresh : (now : ℚ) < offer.expiry) :
    isFresh (browserAt browser zone now) (.num offer.expiry) = true := by
  simpa only [isFresh, browserAt, Scalar.toNumber, Rat.floor_intCast, Number.lt, decide_eq_true_eq] using fresh

theorem emits_iff {now : ℤ} (fresh : (now : ℚ) < offer.expiry) (age : ℚ) :
    offer.Emits (browserAt browser zone now) age ↔
      age = ((gregorian.apart (offer.day zone) (zone.day now) : ℤ) : ℚ) := by
  constructor
  · rintro ⟨aged, -⟩
    rw [days_browserAt, Option.some.injEq] at aged
    exact aged.symm
  · rintro rfl
    have aged := @days_browserAt browser zone offer.time now
    exact ⟨aged, get_lists (isFresh_browserAt fresh) aged⟩

theorem before_expiry_iff {now : ℤ} : (now : ℚ) < offer.expiry ↔ now ≤ offer.expiry.ceil - 1 := by
  rw [← Rat.lt_ceil_iff]
  omega

/-- The first moment is on the day of the offer's time or on the next one. -/
theorem firstDay_near : offer.day zone ≤ offer.firstDay zone ∧ offer.firstDay zone ≤ offer.day zone + 1 := by
  obtain ⟨kept, near⟩ := milliseconds_ceil (offer.time * 1000)
  exact ⟨zone.day_mono kept, Int.le_trans (zone.day_mono near) (zone.oneByOne _)⟩

/-- The offer never looks younger when its days grow apart day by day. -/
theorem neverYounger_iff_days :
    offer.NeverYounger browser zone ↔
      ∀ earlier later, offer.firstDay zone ≤ earlier → earlier ≤ later → later ≤ offer.lastDay zone →
        gregorian.apart (offer.day zone) earlier ≤ gregorian.apart (offer.day zone) later := by
  constructor
  · intro never earlier later begun ordered notOver
    rcases Int.lt_or_eq_of_le ordered with before | rfl
    swap
    · exact Int.le_refl _
    obtain ⟨now₁, from_first, on_earlier, first₁⟩ := zone.exists_first begun
    obtain ⟨now₂, from_first₂, on_later, first₂⟩ := zone.exists_first (Int.le_trans begun ordered)
    have in_order : now₁ ≤ now₂ := first₁ now₂ from_first₂ (on_later ▸ ordered)
    have expires : (now₂ : ℚ) < offer.expiry := by
      apply before_expiry_iff.mpr
      apply first₂ _ _ notOver
      by_contra expired
      have earlier_last : offer.lastDay zone ≤ offer.firstDay zone :=
        zone.day_mono (Int.le_of_lt (Int.not_le.mp expired))
      omega
    obtain ⟨age₁, age₂, emits₁, emits₂, grown⟩ := never now₁ now₂ (Rat.ceil_le_iff.mp from_first) in_order expires
    rw [emits_iff expires] at emits₂
    rw [emits_iff (lt_of_le_of_lt (Int.cast_le.mpr in_order) expires)] at emits₁
    rwa [emits₁, emits₂, on_earlier, on_later, Int.cast_le] at grown
  · intro grows now₁ now₂ from_first in_order expires
    have expires₁ : (now₁ : ℚ) < offer.expiry := lt_of_le_of_lt (Int.cast_le.mpr in_order) expires
    refine ⟨_, _, (emits_iff expires₁ _).mpr rfl, (emits_iff expires _).mpr rfl, Int.cast_le.mpr ?_⟩
    apply grows
    · exact zone.day_mono (Rat.ceil_le_iff.mpr from_first)
    · exact zone.day_mono in_order
    · exact zone.day_mono (before_expiry_iff.mp expires)

/-- **An offer never looks younger exactly when it expires in time**, before the
month of its time is over or, from the second half of the month, with the first day
of the next one. -/
theorem neverYounger_iff : offer.NeverYounger browser zone ↔ offer.ExpiresInTime zone := by
  rw [neverYounger_iff_days]
  exact gregorian.apart_monotone_iff (offer.lastDay zone) firstDay_near.1 firstDay_near.2

end StoredOffer

theorem twelve_digits : ∀ c ∈ "12".toList, c.isDigit := List.all_eq_true.mp (by decide)

/-- An offer of the 20th of January 1970 that expires on the 2nd of March. -/
def januaryOffer : StoredOffer where
  store := ⟨KeyMap.empty.set (PropertyName.decimal "12" twelve_digits) (.num 5184000000, .null, .null, .num 1641600)⟩
  key := PropertyName.decimal "12" twelve_digits
  expiry := 5184000000
  second := .null
  third := .null
  time := 1641600
  stored := by
    rw [KeyMap.get?_set, if_pos rfl]
    rfl

/-- A browser that reads no text as a number. -/
def literalBrowser : Browser := ⟨0, fun _ => none, fun _ => .nan, fun _ => .nan⟩

theorem januaryOffer_day : januaryOffer.day (fixedOffset 0) = 19 := by
  have whole : januaryOffer.time * 1000 = ((1641600000 : ℤ) : ℚ) := by norm_num [januaryOffer]
  rw [StoredOffer.day, whole, StoredOffer.milliseconds_intCast]
  rfl

/-- Eleven days old at the end of January, and not a day on the 20th of February. -/
theorem januaryOffer_looks_younger : ¬ januaryOffer.NeverYounger literalBrowser (fixedOffset 0) := by
  intro never
  have expires : ((4320000000 : ℤ) : ℚ) < januaryOffer.expiry := by norm_num [januaryOffer]
  have since_first : januaryOffer.time * 1000 ≤ ((2592000000 : ℤ) : ℚ) := by norm_num [januaryOffer]
  have expires₁ : ((2592000000 : ℤ) : ℚ) < januaryOffer.expiry := by norm_num [januaryOffer]
  obtain ⟨age₁, age₂, emits₁, emits₂, grown⟩ := never 2592000000 4320000000 since_first (by decide) expires
  rw [StoredOffer.emits_iff expires₁] at emits₁
  rw [StoredOffer.emits_iff expires] at emits₂
  have eleven : gregorian.apart 19 ((fixedOffset 0).day 2592000000) = 11 := by decide
  have none_left : gregorian.apart 19 ((fixedOffset 0).day 4320000000) = 0 := by decide
  rw [emits₁, emits₂, januaryOffer_day, eleven, none_left] at grown
  norm_num at grown

end WorkerInformer.UserHistory.RetargetingOffers
