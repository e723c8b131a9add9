import BookingApi.Config
import BookingApi.DateTime.Basic
import BookingApi.Decimal.Basic
import Mathlib.Data.Rat.Floor

/-!
# Time slots and prices

`validate_time_slot` and `calculate_price` of `app/services/booking_service.py`.  Durations in hours
are exact rationals.
-/

namespace BookingApi.BookingService

/-- `duration.total_seconds() / 3600` for a `timedelta` in microseconds. -/
def durationHours (duration : ℤ) : ℚ := duration / 3600000000

/-- `int(q)`, which rounds towards zero. -/
def truncate (q : ℚ) : ℤ := if 0 ≤ q then ⌊q⌋ else ⌈q⌉

def validateTimeSlot (settings : Settings) (startTime endTime : DateTime) : Except Exc Unit := do
  -- a naive and an aware time can be neither compared nor subtracted
  if ← endTime.le startTime then
    throw (.invalidTimeSlotError "End time must be after start time")
  let duration ← endTime.sub startTime
  let hours := durationHours duration
  if hours < settings.minBookingHours then
    throw (.invalidTimeSlotError
      s!"Minimum booking duration is {settings.minBookingHours} hour(s)")
  if hours > settings.maxBookingHours then
    throw (.invalidTimeSlotError
      s!"Maximum booking duration is {settings.maxBookingHours} hours")
  -- the seconds are not tested
  if startTime.minute.val ≠ 0 ∨ endTime.minute.val ≠ 0 then
    throw (.invalidTimeSlotError "Booking must start and end on the hour")
  -- only the hours are compared, not the days
  if (startTime.hour : ℤ) < settings.sessionStartHour then
    throw (.invalidTimeSlotError s!"Booking cannot start before {settings.sessionStartHour}:00")
  if (endTime.hour : ℤ) > settings.sessionEndHour then
    throw (.invalidTimeSlotError s!"Booking cannot end after {settings.sessionEndHour}:00")

/-- **The accepted time slots.** -/
theorem validateTimeSlot_eq_ok_iff {settings : Settings} {startTime endTime : DateTime} :
    validateTimeSlot settings startTime endTime = .ok () ↔
      endTime.utcoffset.isSome = startTime.utcoffset.isSome ∧
      startTime.instant < endTime.instant ∧
      settings.minBookingHours ≤ durationHours (endTime.instant - startTime.instant) ∧
      durationHours (endTime.instant - startTime.instant) ≤ settings.maxBookingHours ∧
      startTime.minute.val = 0 ∧ endTime.minute.val = 0 ∧
      settings.sessionStartHour ≤ (startTime.hour : ℤ) ∧
      (endTime.hour : ℤ) ≤ settings.sessionEndHour := by
  rw [validateTimeSlot]
  simp only [DateTime.le, DateTime.sub]
  by_cases haware : endTime.utcoffset.isSome = startTime.utcoffset.isSome
  · simp only [haware, if_true, bind, Except.bind, pure, Except.pure, throw, throwThe,
      MonadExceptOf.throw, true_and, decide_eq_true_eq, sub_nonpos]
    split_ifs <;> simp_all
    omega
  · simp [haware, bind, Except.bind]

def calculatePrice (hourlyRate : Decimal) (hours : ℤ) : Decimal := hourlyRate.mulInt hours

end BookingApi.BookingService
