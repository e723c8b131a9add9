import BookingApi.Serial.Occupancy

/-!
# What is charged

`create_booking` charges the whole hours of a slot: it truncates the duration.  The validator looks
at the minutes of the two clocks only, so that seconds, and offsets which differ by less than an
hour, leave a remainder.  `chargesExactly_iff` says that the stored price is the rate for the exact
time only if there is none.
-/

namespace BookingApi.BookingService

theorem durationHours_eq_iff {duration n : ℤ} :
    durationHours duration = n ↔ duration = n * 3600000000 := by
  rw [durationHours, div_eq_iff (by norm_num)]
  exact_mod_cast Iff.rfl

/-- The whole hours of a duration are all of it exactly if nothing is left over. -/
theorem truncate_durationHours_eq_iff {duration : ℤ} (h : 0 ≤ duration) :
    (truncate (durationHours duration) : ℚ) = durationHours duration ↔
      3600000000 ∣ duration := by
  have hnonneg : 0 ≤ durationHours duration := by
    rw [durationHours]
    positivity
  rw [truncate, if_pos hnonneg]
  constructor
  · intro heq
    have hmul : duration = ⌊durationHours duration⌋ * 3600000000 :=
      durationHours_eq_iff.mp heq.symm
    exact ⟨⌊durationHours duration⌋, hmul.trans (mul_comm _ _)⟩
  · rintro ⟨n, rfl⟩
    have hhours : durationHours (3600000000 * n) = n := durationHours_eq_iff.mpr (mul_comm _ _)
    rw [hhours, Int.floor_intCast]

end BookingApi.BookingService

namespace BookingApi.Serial

open Async BookingService Concurrent World

variable {settings : Settings} {args : CreateArgs} {w : World} {r : RequestId} {hall : Hall}
  {b : Booking}

/-- How long the request books the seats, in microseconds. -/
def duration (args : CreateArgs) : ℤ := args.endTime.instant - args.startTime.instant

/-- The price of the booking is the hourly rate of the hall for the exact time of the slot. -/
def ChargesExactly (hall : Hall) (args : CreateArgs) (b : Booking) : Prop :=
  (b.totalPrice : ℚ) = hall.hourlyRate * durationHours (duration args)

/-- A request adds no booking but its own. -/
theorem mem_bookings_createBooking (hidle : w.writesOf r = []) (hw : w.Sound)
    (hb : b ∈ (serve r (args.program settings) w).2.db.bookings.rows) :
    b ∈ w.db.bookings.rows ∨ ∃ hall user, Passes settings args w.db hall user ∧
      b = newBooking args hall w := by
  rcases hlock : w.redis args.lockKey with _ | entry
  · rcases serve_createBooking_cases settings args hidle hw hlock with
      ⟨-, -, hdb, -⟩ | ⟨hall, user, -, hpasses, -, -, hdb, -⟩
    · exact .inl (hdb ▸ hb)
    · rw [hdb, (applyAll_newWrites hw args hall).1, List.mem_append, List.mem_singleton] at hb
      exact hb.imp_right fun hb => ⟨hall, user, hpasses, hb⟩
  · -- the lock is taken
    have hfails : ∃ e, (args.program settings).run (World.exec r) w = (.error e, w) := by
      by_cases hpasses : ∃ hall user, Passes settings args w.db hall user
      · obtain ⟨hall, user, h⟩ := hpasses
        exact run_program_of_locked hidle hlock h
      · exact run_program_of_not_passes hidle fun hall user h => hpasses ⟨hall, user, h⟩
    obtain ⟨e, hrun⟩ := hfails
    rw [serve_eq, hrun] at hb
    exact .inl hb

theorem totalPrice_newBooking (args : CreateArgs) (hall : Hall) (w : World) :
    (newBooking args hall w).totalPrice
      = hall.hourlyRate * truncate (durationHours (duration args)) :=
  toHundredths_mulInt_ofHundredths _ _

/-- **When the exact time is charged.**  The booking that a request stores has the price of its
exact time exactly if the rate is zero or the slot is a whole number of hours. -/
theorem chargesExactly_iff (hidle : w.writesOf r = []) (hw : w.Sound)
    (hhall : w.db.halls.find? args.hallId = some hall)
    (hb : b ∈ (serve r (args.program settings) w).2.db.bookings.rows)
    (hnew : b ∉ w.db.bookings.rows) :
    ChargesExactly hall args b ↔ hall.hourlyRate = 0 ∨ 3600000000 ∣ duration args := by
  obtain ⟨hall', user, hpasses, rfl⟩ := (mem_bookings_createBooking hidle hw hb).resolve_left hnew
  obtain ⟨hmem, hid, -⟩ := selectActiveHall_eq_some hpasses.hall
  obtain rfl : hall = hall' :=
    Option.some.inj (hhall.symm.trans (Table.find?_eq_some_iff.mpr ⟨hmem, hid⟩))
  have hpos : 0 ≤ duration args := by
    have hlt := (validateTimeSlot_eq_ok_iff.mp hpasses.slot).2.1
    unfold duration Instant at *
    omega
  rw [← truncate_durationHours_eq_iff hpos, ChargesExactly, totalPrice_newBooking]
  push_cast
  rw [mul_eq_mul_left_iff, Int.cast_eq_zero, or_comm]

namespace Scenario

open Concurrent.Scenario (booking oclock)

/-- The hall of the installation. -/
def redHall : Hall := ⟨1, "Red", 10, 1000, true, 0⟩

/-- An hour and 59 seconds, from 10:00:00 to 11:00:59. -/
def overlong : CreateArgs :=
  { booking with startTime := oclock 10, endTime := { oclock 11 with second := ⟨59, by decide⟩ } }

/-- The booking that a request makes after the installation. -/
def bookingOf (args : CreateArgs) : Booking :=
  newBooking args redHall (run BookingApi.settings installation)

/-- The bookings after that. -/
def bookingsAfter (args : CreateArgs) : List Booking :=
  (serve installation.length (args.program BookingApi.settings)
    (run BookingApi.settings installation)).2.db.bookings.rows

end Scenario

open Scenario Concurrent.Scenario

/-- Two hours are charged as two. -/
theorem chargesExactly_booking : ChargesExactly redHall booking (bookingOf booking) := by
  have hidle : (run BookingApi.settings installation).writesOf installation.length = [] :=
    writesOf_run _ _
  have hw : (run BookingApi.settings installation).Sound := sound_run _
  have hstored : bookingOf booking ∈ bookingsAfter booking := by decide +kernel
  exact (chargesExactly_iff hidle hw (by decide +kernel) hstored (by decide +kernel)).mpr
    (.inr (by decide +kernel))

/-- The last 59 seconds are booked and not charged. -/
theorem not_chargesExactly_overlong : bookingOf overlong ∈ bookingsAfter overlong ∧
    bookingOf overlong ∉ (run BookingApi.settings installation).db.bookings.rows ∧
    ¬ ChargesExactly redHall overlong (bookingOf overlong) := by
  refine ⟨by decide +kernel, by decide +kernel, ?_⟩
  have hprice : (bookingOf overlong).totalPrice = 1000 := by decide +kernel
  have hduration : duration overlong = 3659000000 := by decide +kernel
  rw [ChargesExactly, hprice, hduration, durationHours]
  norm_num [redHall]

end BookingApi.Serial
