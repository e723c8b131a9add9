import BookingApi.BookingService.TimeSlot
import Mathlib.Algebra.Order.Field.Rat
import Mathlib.Tactic.Linarith

/-!
# The documented time slots

The API documents that a booking starts and ends on the hour, within the session of one day, and
lasts between the minimum and the maximum number of hours.  `validate_time_slot` looks at the length
of the interval and at the hours and minutes of its ends, but neither at their dates nor at their
seconds, and comparing a naive datetime with an aware one raises a `TypeError`.
`validatesAsDocumented_iff` says for which pairs this makes no difference.
-/

namespace BookingApi

/-- The wall clock shows the full hour of the day. -/
def DateTime.OnTheHour (t : DateTime) (day : Date) (hour : ℤ) : Prop :=
  t.date = day ∧ (t.hour : ℤ) = hour ∧ t.minute.val = 0 ∧ t.second.val = 0 ∧ t.microsecond.val = 0

/-- There is nothing below the minute. -/
def DateTime.WholeMinute (t : DateTime) : Prop := t.second.val = 0 ∧ t.microsecond.val = 0

instance (t : DateTime) (day : Date) (hour : ℤ) : Decidable (t.OnTheHour day hour) :=
  inferInstanceAs (Decidable (_ ∧ _))

instance (t : DateTime) : Decidable t.WholeMinute := inferInstanceAs (Decidable (_ ∧ _))

end BookingApi

namespace BookingApi.BookingService

variable {settings : Settings} {startTime endTime : DateTime}

/-! ### The checks -/

/-- The interval is not empty, and neither too short nor too long. -/
def DurationInLimits (settings : Settings) (duration : ℤ) : Prop :=
  0 < duration ∧ settings.minBookingHours ≤ durationHours duration ∧
    durationHours duration ≤ settings.maxBookingHours

/-- The minutes are zero, and the hours lie in the session. -/
def FieldsInSession (settings : Settings) (startTime endTime : DateTime) : Prop :=
  startTime.minute.val = 0 ∧ endTime.minute.val = 0 ∧
    settings.sessionStartHour ≤ (startTime.hour : ℤ) ∧
    (endTime.hour : ℤ) ≤ settings.sessionEndHour

instance (settings : Settings) (duration : ℤ) : Decidable (DurationInLimits settings duration) :=
  inferInstanceAs (Decidable (_ ∧ _))

instance (settings : Settings) (startTime endTime : DateTime) :
    Decidable (FieldsInSession settings startTime endTime) :=
  inferInstanceAs (Decidable (_ ∧ _))

theorem validateTimeSlot_eq_ok_iff_checks : validateTimeSlot settings startTime endTime = .ok () ↔
    endTime.utcoffset.isSome = startTime.utcoffset.isSome ∧
      DurationInLimits settings (endTime.instant - startTime.instant) ∧
      FieldsInSession settings startTime endTime := by
  rw [validateTimeSlot_eq_ok_iff, DurationInLimits, FieldsInSession, sub_pos]
  simp only [and_assoc]

/-- **The exceptions** of the validator. -/
theorem validateTimeSlot_eq_error {e : Exc}
    (h : validateTimeSlot settings startTime endTime = .error e) :
    if endTime.utcoffset.isSome = startTime.utcoffset.isSome then
      ∃ detail, e = .invalidTimeSlotError detail
    else e = .typeError := by
  rw [validateTimeSlot] at h
  simp only [DateTime.le, DateTime.sub] at h
  by_cases haware : endTime.utcoffset.isSome = startTime.utcoffset.isSome
  · rw [if_pos haware]
    simp only [haware, if_true, bind, Except.bind, pure, Except.pure, throw, throwThe,
      MonadExceptOf.throw] at h
    split_ifs at h <;> exact ⟨_, (Except.error.inj h).symm⟩
  · rw [if_neg haware]
    simp only [haware, if_false, bind, Except.bind] at h
    exact (Except.error.inj h).symm

/-! ### What is documented -/

/-- The slot lasts from one full hour to another one of the same day, in the session. -/
def Documented (settings : Settings) (startTime endTime : DateTime) : Prop :=
  endTime.utcoffset.isSome = startTime.utcoffset.isSome ∧
    ∃ (day : Date) (a b : ℤ), a < b ∧ settings.sessionStartHour ≤ a ∧ b ≤ settings.sessionEndHour ∧
      settings.minBookingHours ≤ b - a ∧ b - a ≤ settings.maxBookingHours ∧
      startTime.OnTheHour day a ∧ endTime.OnTheHour day b

theorem durationHours_mul (n : ℤ) : durationHours (n * 3600000000) = n := by
  rw [durationHours]
  push_cast
  exact mul_div_cancel_right₀ _ (by norm_num)

/-- The time between two full hours of one day. -/
theorem instant_sub_instant {day : Date} {a b : ℤ}
    (hoffset : startTime.utcoffset = endTime.utcoffset) (ha : startTime.OnTheHour day a)
    (hb : endTime.OnTheHour day b) :
    endTime.instant - startTime.instant = (b - a) * 3600000000 := by
  obtain ⟨hdate, hhour, hmin, hsec, hmicro⟩ := ha
  obtain ⟨hdate', hhour', hmin', hsec', hmicro'⟩ := hb
  have hsame : endTime.offset = startTime.offset := by
    rw [DateTime.offset, DateTime.offset, hoffset]
  unfold DateTime.instant DateTime.wall DateTime.timeOfDay Instant
  rw [hsame, hdate, hdate', hmin, hmin', hsec, hsec', hmicro, hmicro', ← hhour, ← hhour']
  omega

/-- Every documented slot is accepted. -/
theorem Documented.validateTimeSlot_eq_ok (hoffset : startTime.utcoffset = endTime.utcoffset)
    (h : Documented settings startTime endTime) :
    validateTimeSlot settings startTime endTime = .ok () := by
  obtain ⟨haware, day, a, b, hlt, hstart, hend, hmin, hmax, ha, hb⟩ := h
  have hduration := instant_sub_instant hoffset ha hb
  rw [validateTimeSlot_eq_ok_iff_checks, hduration, DurationInLimits, durationHours_mul]
  refine ⟨haware, ⟨by omega, by exact_mod_cast hmin, by exact_mod_cast hmax⟩, ?_⟩
  have hhour : (startTime.hour : ℤ) = a := ha.2.1
  have hhour' : (endTime.hour : ℤ) = b := hb.2.1
  exact ⟨ha.2.2.1, hb.2.2.1, by omega, by omega⟩

/-- An accepted slot is documented exactly if its ends are whole minutes of one day. -/
theorem documented_iff_of_validateTimeSlot (hoffset : startTime.utcoffset = endTime.utcoffset)
    (h : validateTimeSlot settings startTime endTime = .ok ()) :
    Documented settings startTime endTime ↔
      startTime.date = endTime.date ∧ startTime.WholeMinute ∧ endTime.WholeMinute := by
  obtain ⟨haware, ⟨hpos, hmin, hmax⟩, hminute, hminute', hstart, hend⟩ :=
    validateTimeSlot_eq_ok_iff_checks.mp h
  constructor
  · rintro ⟨-, day, a, b, -, -, -, -, -, ha, hb⟩
    exact ⟨ha.1.trans hb.1.symm, ha.2.2.2, hb.2.2.2⟩
  · rintro ⟨hdate, hwhole, hwhole'⟩
    have ha : startTime.OnTheHour startTime.date startTime.hour := ⟨rfl, rfl, hminute, hwhole⟩
    have hb : endTime.OnTheHour startTime.date endTime.hour := ⟨hdate.symm, rfl, hminute', hwhole'⟩
    have hduration := instant_sub_instant hoffset ha hb
    rw [hduration, durationHours_mul] at hmin hmax
    rw [hduration] at hpos
    have hlt : (startTime.hour : ℤ) < endTime.hour := by omega
    exact ⟨haware, startTime.date, startTime.hour, endTime.hour, hlt, hstart, hend,
      by exact_mod_cast hmin, by exact_mod_cast hmax, ha, hb⟩

/-- The validator accepts the pair if it is documented, and raises its own exception if not. -/
def ValidatesAsDocumented (settings : Settings) (startTime endTime : DateTime) : Prop :=
  (validateTimeSlot settings startTime endTime = .ok () ↔ Documented settings startTime endTime) ∧
    ∀ e, validateTimeSlot settings startTime endTime = .error e →
      ∃ detail, e = .invalidTimeSlotError detail

/-- **When the validator is right.**  Of two datetimes with the same offset, or without one, or of
which one is naive, the validator decides as documented exactly if both are naive or both aware,
and if, where the length, the hours and the minutes are right, the dates are equal and nothing is
below the minutes. -/
theorem validatesAsDocumented_iff (h : startTime.utcoffset = endTime.utcoffset ∨
      startTime.utcoffset.isSome ≠ endTime.utcoffset.isSome) :
    ValidatesAsDocumented settings startTime endTime ↔
      startTime.utcoffset.isSome = endTime.utcoffset.isSome ∧
        (DurationInLimits settings (endTime.instant - startTime.instant) →
          FieldsInSession settings startTime endTime →
            startTime.date = endTime.date ∧ startTime.WholeMinute ∧ endTime.WholeMinute) := by
  rcases h with hoffset | hmixed
  · have haware : endTime.utcoffset.isSome = startTime.utcoffset.isSome := by rw [hoffset]
    constructor
    · rintro ⟨hiff, -⟩
      refine ⟨haware.symm, fun hduration hfields => ?_⟩
      have haccepted := validateTimeSlot_eq_ok_iff_checks.mpr ⟨haware, hduration, hfields⟩
      exact (documented_iff_of_validateTimeSlot hoffset haccepted).mp (hiff.mp haccepted)
    · rintro ⟨-, hregular⟩
      refine ⟨⟨fun haccepted => ?_, fun hdoc => hdoc.validateTimeSlot_eq_ok hoffset⟩,
        fun e he => ?_⟩
      · obtain ⟨-, hduration, hfields⟩ := validateTimeSlot_eq_ok_iff_checks.mp haccepted
        exact (documented_iff_of_validateTimeSlot hoffset haccepted).mpr
          (hregular hduration hfields)
      · have hexc := validateTimeSlot_eq_error he
        rwa [if_pos haware] at hexc
  · -- the comparison of the two raises a `TypeError`
    refine iff_of_false ?_ fun h => hmixed h.1
    rintro ⟨-, herror⟩
    cases hresult : validateTimeSlot settings startTime endTime with
    | ok u => exact hmixed (validateTimeSlot_eq_ok_iff_checks.mp hresult).1.symm
    | error e =>
      have hexc := validateTimeSlot_eq_error hresult
      rw [if_neg (Ne.symm hmixed)] at hexc
      obtain ⟨detail, hdetail⟩ := herror e hresult
      rw [hexc] at hdetail
      cases hdetail

namespace Scenario

def day : Date :=
  ⟨2031, 6, 17, by decide, by decide, by decide, by decide, by decide, by decide⟩

/-- A time of the day, two hours ahead of UTC. -/
def clock (hour : Fin 24) (second : Fin 60) : DateTime :=
  ⟨day, hour, ⟨0, by decide⟩, second, ⟨0, by decide⟩, some ⟨7200000000, by decide, by decide⟩⟩

def tenOClock : DateTime := clock ⟨10, by decide⟩ ⟨0, by decide⟩
def noon : DateTime := clock ⟨12, by decide⟩ ⟨0, by decide⟩

/-- Forty-five seconds past ten, and past eleven. -/
def pastTen : DateTime := clock ⟨10, by decide⟩ ⟨45, by decide⟩
def pastEleven : DateTime := clock ⟨11, by decide⟩ ⟨45, by decide⟩

end Scenario

open Scenario

theorem validatesAsDocumented_noon : ValidatesAsDocumented BookingApi.settings tenOClock noon :=
  (validatesAsDocumented_iff (.inl (by decide))).mpr ⟨by decide, fun _ _ => by decide⟩

/-- Seconds past the hour are accepted. -/
theorem not_validatesAsDocumented_seconds :
    ¬ ValidatesAsDocumented BookingApi.settings pastTen pastEleven := by
  rintro ⟨hiff, -⟩
  have haccepted : validateTimeSlot BookingApi.settings pastTen pastEleven = .ok () := by
    decide +kernel
  obtain ⟨-, day, a, b, -, -, -, -, -, ha, -⟩ := hiff.mp haccepted
  exact absurd ha.2.2.2.1 (by decide)

end BookingApi.BookingService
