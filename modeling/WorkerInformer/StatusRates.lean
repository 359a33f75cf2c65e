import Mathlib.Data.Nat.ModEq

/-! The request rates of `BaseCore::Status` (`src/BaseCore.cpp`). The
milliseconds since the last access and since the start are narrowed to `int`,
tested for zero, converted to `unsigned long` for the division, and the quotient
is narrowed to `int` again. The page's other rows print values that nothing is
computed from. -/
namespace WorkerInformer.StatusRates

/-- A `ptime`, in microseconds; the years 1400 to 9999 that it spans have fewer
than 2^58 of them. -/
structure Moment where
  microseconds : Nat
  in_range : microseconds < 2 ^ 58

/-- `(now - earlier).total_milliseconds()`, cut toward zero. -/
def totalMilliseconds (now earlier : Moment) : Int :=
  ((now.microseconds : Int) - earlier.microseconds).tdiv 1000

/-- What `Status` keeps between two calls, and the counters it reads. -/
structure Counters where
  requestProcessed : UInt64
  lastTimeRequestProcessed : UInt64
  timeServiceStarted : Moment
  /-- Nothing before the first access: `not_a_date_time`. -/
  lastTimeAccessed : Option Moment

/-- The moment that the current rate counts from. -/
def Counters.lastAccess (counters : Counters) : Moment :=
  counters.lastTimeAccessed.getD counters.timeServiceStarted

/-- An unsigned division; nothing stands for the trap at zero. -/
def divide? (n d : UInt64) : Option UInt64 := if d = 0 then none else some (n / d)

/-- `requests * 1000 / millisecs`, narrowed, behind the test for zero. -/
def requestsPerSecond? (requests : UInt64) (millisecs : Int32) : Option Int32 :=
  if millisecs ≠ 0 then
    (divide? (requests * 1000) (UInt64.ofInt millisecs.toInt)).map fun quotient => Int32.ofInt quotient.toNat
  else some 0

/-- What a call of `Status` prints of the rates, and what it leaves behind. -/
structure Status where
  requestsPerSecondCurrent : Int32
  requestsPerSecondAverage : Int32
  counters : Counters

/-- `BaseCore::Status`. -/
def status? (counters : Counters) (now : Moment) : Option Status := do
  let millisecsSinceLastAccess := Int32.ofInt (totalMilliseconds now counters.lastAccess)
  let millisecsSinceStart := Int32.ofInt (totalMilliseconds now counters.timeServiceStarted)
  let requestsPerSecondCurrent ←
    requestsPerSecond? (counters.requestProcessed - counters.lastTimeRequestProcessed) millisecsSinceLastAccess
  let requestsPerSecondAverage ← requestsPerSecond? counters.requestProcessed millisecsSinceStart
  some ⟨requestsPerSecondCurrent, requestsPerSecondAverage,
    { counters with
      lastTimeAccessed := some now
      lastTimeRequestProcessed := counters.requestProcessed }⟩

/-- The milliseconds that have passed. -/
def elapsed (now earlier : Moment) : Nat := (now.microseconds - earlier.microseconds) / 1000

/-- The exact floor of the rate whenever it fits in an `int`, and 0 when no time
has passed. -/
def ExactRate (requests millisecs : Nat) (printed : Int32) : Prop :=
  if millisecs = 0 then printed = 0
  else requests * 1000 / millisecs < 2 ^ 31 → printed.toInt = (requests * 1000 / millisecs : Nat)

/-- When the conversions do no harm: less than 2^31 milliseconds have passed, or
the rate does not fit anyway; from there on the divisor has lost its high bits,
and the rate comes out only if it is 0, or if the wrong divisor gives the same
`int` by chance. -/
def ConversionsHarmless (requests millisecs : Nat) : Prop :=
  millisecs < 2 ^ 31 ∨ 2 ^ 31 ≤ requests * 1000 / millisecs ∨
    if millisecs % 2 ^ 32 = 0 ∨ 2 ^ 31 ≤ millisecs % 2 ^ 32 then requests * 1000 < millisecs
    else requests * 1000 / (millisecs % 2 ^ 32) ≡ requests * 1000 / millisecs [MOD 2 ^ 32]

instance (requests millisecs : Nat) : Decidable (ConversionsHarmless requests millisecs) :=
  inferInstanceAs (Decidable (_ ∨ _ ∨ if _ ∨ _ then _ else _ % _ = _ % _))

theorem totalMilliseconds_eq {now earlier : Moment} (ordered : earlier.microseconds ≤ now.microseconds) :
    totalMilliseconds now earlier = elapsed now earlier := by
  rw [totalMilliseconds, ← Int.ofNat_sub ordered, elapsed]
  rfl

theorem elapsed_lt (now earlier : Moment) : elapsed now earlier < 2 ^ 49 := by
  have := now.in_range
  rw [elapsed]
  omega

/-- The `int` that a count of milliseconds becomes. -/
theorem toInt_narrowed (n : Nat) :
    (Int32.ofInt n).toInt = if n % 2 ^ 32 < 2 ^ 31 then ((n % 2 ^ 32 : Nat) : Int) else (n % 2 ^ 32 : Nat) - 2 ^ 32 := by
  rw [Int32.toInt_ofInt, Int.bmod_def]
  simp only [Int32.size]
  split <;> split <;> omega

theorem toInt_narrowed_iff {n rate : Nat} (fits : rate < 2 ^ 31) :
    (Int32.ofInt n).toInt = rate ↔ n % 2 ^ 32 = rate := by
  rw [toInt_narrowed]
  split <;> omega

theorem narrowed_eq_zero_iff (n : Nat) : Int32.ofInt n = 0 ↔ n % 2 ^ 32 = 0 := by
  rw [← Int32.toInt_inj, toInt_narrowed, Int32.toInt_zero]
  split <;> omega

/-- The `unsigned long` that divides: the low 32 bits of the milliseconds, with
bit 31 extended as a sign. -/
def divisor (millisecs : Nat) : Nat :=
  if millisecs % 2 ^ 32 < 2 ^ 31 then millisecs % 2 ^ 32 else 2 ^ 64 - 2 ^ 32 + millisecs % 2 ^ 32

theorem toNat_divisor (millisecs : Nat) : (UInt64.ofInt (Int32.ofInt millisecs).toInt).toNat = divisor millisecs := by
  rw [UInt64.ofInt, UInt64.toNat_ofNat', toInt_narrowed, divisor]
  split <;> omega

/-- A rate as the source computes it; it never divides by zero. -/
theorem requestsPerSecond?_eq {requests : UInt64} (small : requests.toNat * 1000 < 2 ^ 64) (millisecs : Nat) :
    requestsPerSecond? requests (Int32.ofInt millisecs) =
      some (if millisecs % 2 ^ 32 = 0 then 0 else Int32.ofInt (requests.toNat * 1000 / divisor millisecs : Nat)) := by
  rw [requestsPerSecond?]
  by_cases zero : millisecs % 2 ^ 32 = 0
  · rw [if_neg (not_not.mpr ((narrowed_eq_zero_iff _).mpr zero)), if_pos zero]
  · have divides := toNat_divisor millisecs
    have nonzero : UInt64.ofInt (Int32.ofInt millisecs).toInt ≠ 0 := by
      intro is_zero
      rw [is_zero, UInt64.toNat_zero, divisor] at divides
      split at divides <;> omega
    have product : (requests * 1000).toNat = requests.toNat * 1000 := by
      rw [UInt64.toNat_mul]
      exact Nat.mod_eq_of_lt small
    rw [if_pos (mt (narrowed_eq_zero_iff _).mp zero), if_neg zero, divide?, if_neg nonzero, Option.map_some,
      UInt64.toNat_div, divides, product]

/-- Under a divisor with the sign extended the quotient is 0 or 1, and right only
if it should be 0: reaching the divisor takes more than one request a millisecond. -/
theorem quotient_of_sign {n millisecs : Nat} (small : n < 2 ^ 64) (short : millisecs < 2 ^ 49)
    (sign : 2 ^ 31 ≤ millisecs % 2 ^ 32) :
    n / divisor millisecs % 2 ^ 32 = n / millisecs ↔ n / millisecs = 0 := by
  have longer : 2 ^ 63 ≤ divisor millisecs := by
    rw [divisor, if_neg (Nat.not_lt.mpr sign)]
    omega
  have quotient_small : n / divisor millisecs < 2 := (Nat.div_lt_iff_lt_mul (by omega)).mpr (by omega)
  rw [Nat.mod_eq_of_lt (Nat.lt_trans quotient_small (by decide))]
  constructor
  · intro same
    by_contra nonzero
    have reached : divisor millisecs ≤ n := by
      by_contra below
      exact nonzero (same ▸ Nat.div_eq_of_lt (Nat.not_le.mp below))
    have two : 2 ≤ n / millisecs := (Nat.le_div_iff_mul_le (by omega)).mpr (by omega)
    exact absurd (same ▸ quotient_small) (Nat.not_lt.mpr two)
  · intro none_counted
    have below : n < millisecs := (Nat.div_eq_zero_iff_lt (by omega)).mp none_counted
    rw [none_counted]
    exact Nat.div_eq_of_lt (by omega)

/-- **A rate is right exactly when the conversions do no harm.** -/
theorem exactRate_iff {requests millisecs : Nat} (small : requests * 1000 < 2 ^ 64) (short : millisecs < 2 ^ 49) :
    ExactRate requests millisecs
        (if millisecs % 2 ^ 32 = 0 then 0 else Int32.ofInt (requests * 1000 / divisor millisecs : Nat)) ↔
      ConversionsHarmless requests millisecs := by
  rw [ExactRate, ConversionsHarmless]
  generalize requests * 1000 = n at *
  by_cases none_passed : millisecs = 0
  · simp [none_passed]
  rw [if_neg none_passed]
  have quotient_zero : n / millisecs = 0 ↔ n < millisecs := Nat.div_eq_zero_iff_lt (Nat.pos_of_ne_zero none_passed)
  rcases Nat.lt_or_ge (n / millisecs) (2 ^ 31) with fits | too_big
  swap
  · exact iff_of_true (fun fits => absurd fits (Nat.not_lt.mpr too_big)) (.inr (.inl too_big))
  rw [imp_iff_right fits, or_iff_right (Nat.not_le.mpr fits)]
  by_cases zero : millisecs % 2 ^ 32 = 0
  · -- the int is zero, and so is what is printed
    rw [if_pos zero, if_pos (.inl zero), or_iff_right (by omega), ← quotient_zero, Int32.toInt_zero]
    omega
  rw [if_neg zero, toInt_narrowed_iff fits]
  by_cases sign : 2 ^ 31 ≤ millisecs % 2 ^ 32
  · -- the int is negative, and the divisor greater than any time that passes
    rw [if_pos (.inr sign), or_iff_right (by omega), ← quotient_zero]
    exact quotient_of_sign small short sign
  · -- the int is the low half of the milliseconds
    rw [if_neg (by omega), divisor, if_pos (Nat.not_le.mp sign)]
    rcases Nat.lt_or_ge millisecs (2 ^ 31) with fast | slow
    · have whole : millisecs % 2 ^ 32 = millisecs := Nat.mod_eq_of_lt (by omega)
      rw [whole]
      exact iff_of_true (Nat.mod_eq_of_lt (by omega)) (.inl fast)
    · rw [or_iff_right (Nat.not_lt.mpr slow), Nat.ModEq, Nat.mod_eq_of_lt (show n / millisecs < 2 ^ 32 by omega)]

/-- A rate is always computed, and right exactly when the conversions do no harm. -/
theorem requestsPerSecond?_exact_iff {requests : UInt64} {millisecs : Nat} (small : requests.toNat * 1000 < 2 ^ 64)
    (short : millisecs < 2 ^ 49) :
    ∃ printed, requestsPerSecond? requests (Int32.ofInt millisecs) = some printed ∧
      (ExactRate requests.toNat millisecs printed ↔ ConversionsHarmless requests.toNat millisecs) := by
  rw [requestsPerSecond?_eq small]
  exact ⟨_, rfl, exactRate_iff small short⟩

/-- Nothing is wrong with any count before 2^31 milliseconds have passed, and
with some count from then on. -/
theorem harmless_for_all_iff {millisecs : Nat} (short : millisecs < 2 ^ 49) :
    (∀ requests, requests * 1000 < 2 ^ 64 → ConversionsHarmless requests millisecs) ↔ millisecs < 2 ^ 31 := by
  constructor
  swap
  · intro fast _ _
    exact .inl fast
  intro harmless
  by_contra slow
  by_cases lost : millisecs % 2 ^ 32 = 0 ∨ 2 ^ 31 ≤ millisecs % 2 ^ 32
  · -- a rate of one request a second is printed as none
    have enough : millisecs ≤ (millisecs + 999) / 1000 * 1000 ∧ (millisecs + 999) / 1000 * 1000 < 2 * millisecs := by
      omega
    rcases harmless ((millisecs + 999) / 1000) (by omega) with fast | too_big | none_counted
    · exact slow fast
    · have one : (millisecs + 999) / 1000 * 1000 / millisecs < 2 := (Nat.div_lt_iff_lt_mul (by omega)).mpr enough.2
      omega
    · rw [if_pos lost] at none_counted
      omega
  · -- a rate below one is printed as one or more
    generalize low_eq : millisecs % 2 ^ 32 = low at *
    have reached : low ≤ (low + 999) / 1000 * 1000 ∧ (low + 999) / 1000 * 1000 < millisecs := by omega
    have rate_zero : (low + 999) / 1000 * 1000 / millisecs = 0 := Nat.div_eq_of_lt reached.2
    rcases harmless ((low + 999) / 1000) (by omega) with fast | too_big | same
    · exact slow fast
    · omega
    · rw [low_eq, if_neg lost, rate_zero] at same
      have least : 1 ≤ (low + 999) / 1000 * 1000 / low := (Nat.one_le_div_iff (by omega)).mpr reached.1
      have most : (low + 999) / 1000 * 1000 / low < 1001 := (Nat.div_lt_iff_lt_mul (by omega)).mpr (by omega)
      rw [Nat.ModEq, Nat.mod_eq_of_lt (by omega), Nat.zero_mod] at same
      omega

/-- The requests since the last access. -/
def Counters.requestsSinceAccess (counters : Counters) : Nat :=
  counters.requestProcessed.toNat - counters.lastTimeRequestProcessed.toNat

/-- The page is printed, and both its rates are exact. -/
def RatesExact (counters : Counters) (now : Moment) : Prop :=
  ∃ status, status? counters now = some status ∧
    ExactRate counters.requestsSinceAccess (elapsed now counters.lastAccess) status.requestsPerSecondCurrent ∧
    ExactRate counters.requestProcessed.toNat (elapsed now counters.timeServiceStarted) status.requestsPerSecondAverage

/-- A call at a time and with counts as they occur: no count has fallen and no
clock was set back. -/
structure InOrder (counters : Counters) (now : Moment) : Prop where
  counted : counters.lastTimeRequestProcessed ≤ counters.requestProcessed
  small : counters.requestProcessed.toNat * 1000 < 2 ^ 64
  since_start : counters.timeServiceStarted.microseconds ≤ now.microseconds
  since_access : counters.lastAccess.microseconds ≤ now.microseconds

/-- Each rate by itself, and that the page is printed. -/
theorem status?_rates {counters : Counters} {now : Moment} (order : InOrder counters now) :
    ∃ status, status? counters now = some status ∧
      (ExactRate counters.requestsSinceAccess (elapsed now counters.lastAccess) status.requestsPerSecondCurrent ↔
        ConversionsHarmless counters.requestsSinceAccess (elapsed now counters.lastAccess)) ∧
      (ExactRate counters.requestProcessed.toNat (elapsed now counters.timeServiceStarted)
          status.requestsPerSecondAverage ↔
        ConversionsHarmless counters.requestProcessed.toNat (elapsed now counters.timeServiceStarted)) := by
  have difference := UInt64.toNat_sub_of_le _ _ order.counted
  have difference_small : (counters.requestProcessed - counters.lastTimeRequestProcessed).toNat * 1000 < 2 ^ 64 := by
    rw [difference]
    exact Nat.lt_of_le_of_lt (Nat.mul_le_mul_right _ (Nat.sub_le _ _)) order.small
  obtain ⟨current, current_eq, current_iff⟩ :=
    requestsPerSecond?_exact_iff difference_small (elapsed_lt now counters.lastAccess)
  obtain ⟨average, average_eq, average_iff⟩ :=
    requestsPerSecond?_exact_iff order.small (elapsed_lt now counters.timeServiceStarted)
  rw [difference] at current_iff
  rw [status?, totalMilliseconds_eq order.since_start, totalMilliseconds_eq order.since_access, current_eq,
    average_eq]
  exact ⟨_, rfl, current_iff, average_iff⟩

/-- The page is exact if and only if each rate's conversions do no harm. -/
theorem ratesExact_iff_harmless {counters : Counters} {now : Moment} (order : InOrder counters now) :
    RatesExact counters now ↔
      ConversionsHarmless counters.requestsSinceAccess (elapsed now counters.lastAccess) ∧
        ConversionsHarmless counters.requestProcessed.toNat (elapsed now counters.timeServiceStarted) := by
  obtain ⟨status, printed, current, average⟩ := status?_rates order
  rw [← current, ← average]
  constructor
  · rintro ⟨other, other_printed, exact_rates⟩
    rw [printed, Option.some.injEq] at other_printed
    exact other_printed ▸ exact_rates
  · exact fun exact_rates => ⟨status, printed, exact_rates⟩

/-- **The rates are exact exactly when the conversions do no harm**, for all
counts and times; the page is printed in any case, without a division by zero. -/
theorem rates_exact_iff {counters : Counters} {now : Moment} (order : InOrder counters now) :
    (status? counters now).isSome ∧
      (RatesExact counters now ↔
        ConversionsHarmless counters.requestsSinceAccess (elapsed now counters.lastAccess) ∧
          ConversionsHarmless counters.requestProcessed.toNat (elapsed now counters.timeServiceStarted)) := by
  constructor
  · obtain ⟨status, printed, -⟩ := status?_rates order
    rw [printed, Option.isSome_some]
  · exact ratesExact_iff_harmless order

/-- Ten million requests, none of them looked at yet. -/
def tenMillion : Counters := ⟨10000000, 0, ⟨0, by decide⟩, none⟩

/-- A minute after the start. -/
def afterAMinute : Moment := ⟨60000000, by decide⟩

/-- 2^31 milliseconds after the start, when the `int` turns negative. -/
def after25Days : Moment := ⟨2 ^ 31 * 1000, by decide⟩

theorem tenMillion_inOrder {now : Moment} : InOrder tenMillion now :=
  ⟨by decide, by decide, Nat.zero_le _, Nat.zero_le _⟩

theorem rates_afterAMinute :
    (status? tenMillion afterAMinute).isSome ∧ RatesExact tenMillion afterAMinute :=
  (rates_exact_iff tenMillion_inOrder).imp_right fun same => same.mpr (by decide)

/-- Four requests a second are printed as none. -/
theorem rates_after25Days :
    InOrder tenMillion after25Days ∧ ¬ RatesExact tenMillion after25Days ∧
      (status? tenMillion after25Days).map (fun status => status.requestsPerSecondAverage) = some 0 ∧
      tenMillion.requestProcessed.toNat * 1000 / elapsed after25Days tenMillion.timeServiceStarted = 4 := by
  refine ⟨tenMillion_inOrder, ?_, by decide +kernel, by decide⟩
  rw [ratesExact_iff_harmless tenMillion_inOrder]
  decide

/-- **The page can be trusted with every count exactly in the first 2^31
milliseconds**, not quite 25 days, after the start and after the last access. -/
theorem exact_for_all_counts_iff {started now : Moment} {accessed : Option Moment}
    (since_start : started.microseconds ≤ now.microseconds)
    (since_access : (accessed.getD started).microseconds ≤ now.microseconds) :
    (∀ counters : Counters, counters.timeServiceStarted = started → counters.lastTimeAccessed = accessed →
        InOrder counters now → RatesExact counters now) ↔
      elapsed now (accessed.getD started) < 2 ^ 31 ∧ elapsed now started < 2 ^ 31 := by
  rw [← harmless_for_all_iff (elapsed_lt _ _), ← harmless_for_all_iff (elapsed_lt _ _)]
  constructor
  · intro trusted
    have counted : ∀ requests, requests * 1000 < 2 ^ 64 →
        ConversionsHarmless requests (elapsed now (accessed.getD started)) ∧
          ConversionsHarmless requests (elapsed now started) := by
      intro requests small
      have whole : (UInt64.ofNat requests).toNat = requests := by
        rw [UInt64.toNat_ofNat']
        exact Nat.mod_eq_of_lt (by omega)
      have order : InOrder ⟨UInt64.ofNat requests, 0, started, accessed⟩ now :=
        ⟨UInt64.zero_le, by rw [whole]; exact small, since_start, since_access⟩
      have harmless := (ratesExact_iff_harmless order).mp (trusted _ rfl rfl order)
      rwa [Counters.requestsSinceAccess, UInt64.toNat_zero, Nat.sub_zero, whole] at harmless
    exact ⟨fun requests small => (counted requests small).1, fun requests small => (counted requests small).2⟩
  · rintro ⟨current, average⟩ counters rfl rfl order
    rw [ratesExact_iff_harmless order]
    have fewer : counters.requestsSinceAccess * 1000 ≤ counters.requestProcessed.toNat * 1000 :=
      Nat.mul_le_mul_right _ (Nat.sub_le _ _)
    exact ⟨current _ (Nat.lt_of_le_of_lt fewer order.small), average _ order.small⟩

end WorkerInformer.StatusRates
