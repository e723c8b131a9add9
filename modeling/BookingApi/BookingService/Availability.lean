import BookingApi.BookingService.CreateBooking
import BookingApi.SetDict.Basic
import Mathlib.Data.Finset.Card
import Mathlib.Data.Int.Range

/-!
# Available slots

`_calculate_slots` of `app/services/booking_service.py`: for every hour of the session of a day, how
many seats of a hall are booked and how many are free.  `slots_eq` says what the loops over the
bookings of the day count.
-/

namespace BookingApi.BookingService

open Async

/-- One entry of the answer. -/
structure Slot where
  hour : ℤ
  available : Bool
  totalSeats : ℤ
  freeSeats : ℤ
  bookedSeats : ℤ
deriving DecidableEq

/-- `datetime.combine(target_date, datetime.min.time().replace(hour=hour))`. -/
def sessionBoundary (targetDate : Date) (hour : ℤ) : Except Exc Instant :=
  if 0 ≤ hour ∧ hour < 24 then .ok (Instant.combine targetDate hour)
  else .error (.valueError "hour must be in 0..23")

/-- The rows of `select(Seat).where(Seat.hall_id == hall_id, Seat.is_active)`. -/
def selectSeatsOfHall (hallId : ℤ) (db : Db) : List Seat :=
  db.seats.rows.filter fun s => s.hallId = hallId ∧ s.isActive

/-- The confirmed bookings of a hall that lie between two instants, each with its seats. -/
def selectBookingsBetween (hallId : ℤ) (startDatetime endDatetime : Instant) (db : Db) :
    List (Booking × List BookingSeat) :=
  (db.bookings.rows.filter fun b => b.hallId = hallId ∧ b.status = .confirmed
    ∧ b.startTime ≥ startDatetime ∧ b.endTime ≤ endDatetime).map fun b => (b, db.seatsOf b.id)

/-- The loops over the hours of a booking and over its seats. -/
def addBooking (bookedSeatsByHour : SetDict ℤ ℤ) (booking : Booking × List BookingSeat) :
    Except Exc (SetDict ℤ ℤ) :=
  let hours := Int.range booking.1.startTime.hour booking.1.endTime.hour
  hours.foldlM (fun dict hour =>
    booking.2.foldlM (fun dict bs => dict.add .keyError hour bs.seatId) dict) bookedSeatsByHour

def slot (totalSeats hour booked : ℤ) : Slot :=
  let free := totalSeats - booked
  ⟨hour, free > 0, totalSeats, free, booked⟩

def slotAt (totalSeats : ℤ) (bookedSeatsByHour : SetDict ℤ ℤ) (hour : ℤ) : Except Exc Slot :=
  match bookedSeatsByHour hour with
  | none => .error .keyError
  | some bookedSeats => .ok (slot totalSeats hour bookedSeats.card)

/-- The part of `_calculate_slots` after the queries. -/
def slots (settings : Settings) (totalSeats : ℤ) (bookings : List (Booking × List BookingSeat)) :
    Except Exc (List Slot) := do
  let hours := Int.range settings.sessionStartHour settings.sessionEndHour
  let bookedSeatsByHour ← bookings.foldlM addBooking fun h => if h ∈ hours then some ∅ else none
  hours.mapM (slotAt totalSeats bookedSeatsByHour)

def calculateSlots (settings : Settings) (hallId : ℤ) (targetDate : Date) : App (List Slot) := do
  match ← execute (selectActiveHall hallId) with
  | none => .raise .hallNotFound
  | some _ =>
    let seats ← execute (selectSeatsOfHall hallId)
    let totalSeats := seats.length
    -- the first and the last hour of the session, without a time zone
    let startDatetime ← .ofExcept (sessionBoundary targetDate settings.sessionStartHour)
    let endDatetime ← .ofExcept (sessionBoundary targetDate settings.sessionEndHour)
    let bookings ← execute (selectBookingsBetween hallId startDatetime endDatetime)
    .ofExcept (slots settings totalSeats bookings)

/-! ### What the loops count -/

variable {settings : Settings} {booking : Booking × List BookingSeat}

/-- A booking adds its seats to each of its hours. -/
theorem addBooking_extends {d : SetDict ℤ ℤ} {hours : Set ℤ}
    (hd : ∀ h ∈ hours, (d h).isSome)
    (hin : ∀ h, booking.1.startTime.hour ≤ h → h < booking.1.endTime.hour → h ∈ hours) :
    ∃ d', addBooking d booking = .ok d' ∧ SetDict.Extends d d' fun h seatId =>
      booking.1.startTime.hour ≤ h ∧ h < booking.1.endTime.hour ∧
        ∃ bs ∈ booking.2, bs.seatId = seatId := by
  obtain ⟨d', h, he⟩ := SetDict.foldlM_extends hours
    (P := fun hour k seatId => k = hour ∧ ∃ bs ∈ booking.2, bs.seatId = seatId)
    (l := Int.range booking.1.startTime.hour booking.1.endTime.hour)
    (fun hour hhour d hd => SetDict.foldlM_add (k := hour)
      (l := booking.2) (f := BookingSeat.seatId)
      (hd hour (hin hour (Int.mem_range_iff.mp hhour).1 (Int.mem_range_iff.mp hhour).2))) hd
  refine ⟨d', h, he.congr fun k seatId => ?_⟩
  simp only [Int.mem_range_iff]
  constructor
  · rintro ⟨hour, ⟨h1, h2⟩, rfl, hseat⟩
    exact ⟨h1, h2, hseat⟩
  · rintro ⟨h1, h2, hseat⟩
    exact ⟨k, ⟨h1, h2⟩, rfl, hseat⟩

theorem mapM_slotAt {totalSeats : ℤ} {d : SetDict ℤ ℤ} {hours : List ℤ}
    (hd : ∀ h ∈ hours, ∃ booked, d h = some booked) :
    hours.mapM (slotAt totalSeats d)
      = .ok (hours.map fun h => slot totalSeats h ((d h).getD ∅).card) := by
  induction hours with
  | nil => rfl
  | cons h hours ih =>
    obtain ⟨booked, hb⟩ := hd h (List.mem_cons_self ..)
    rw [List.mapM_cons, slotAt, hb, ih fun k hk => hd k (List.mem_cons_of_mem _ hk), List.map_cons,
      hb]
    rfl

/-- The dictionary `booked_seats_by_hour` after the loops. -/
def bookedSeatsByHour (settings : Settings) (bookings : List (Booking × List BookingSeat)) :
    Except Exc (SetDict ℤ ℤ) :=
  let hours := Int.range settings.sessionStartHour settings.sessionEndHour
  bookings.foldlM addBooking fun h => if h ∈ hours then some ∅ else none

/-- The loops come first, and then a slot is made for each hour. -/
theorem slots_eq_bind (settings : Settings) (totalSeats : ℤ)
    (bookings : List (Booking × List BookingSeat)) :
    slots settings totalSeats bookings = bookedSeatsByHour settings bookings >>= fun dict =>
      (Int.range settings.sessionStartHour settings.sessionEndHour).mapM
        (slotAt totalSeats dict) := rfl

/-- **The loops** raise no `KeyError` if the hours of all bookings lie in the session.  The keys are
the hours of the session, and in each one stand the seats of the bookings that span it. -/
theorem exists_bookedSeatsByHour {bookings : List (Booking × List BookingSeat)}
    (hin : ∀ p ∈ bookings, ∀ h, p.1.startTime.hour ≤ h → h < p.1.endTime.hour →
      settings.sessionStartHour ≤ h ∧ h < settings.sessionEndHour) :
    ∃ dict, bookedSeatsByHour settings bookings = .ok dict ∧
      (∀ h, (dict h).isSome ↔
        settings.sessionStartHour ≤ h ∧ h < settings.sessionEndHour) ∧
      ∀ h booked, dict h = some booked → ∀ seatId, seatId ∈ booked ↔
        ∃ p ∈ bookings, p.1.startTime.hour ≤ h ∧ h < p.1.endTime.hour ∧
          ∃ bs ∈ p.2, bs.seatId = seatId := by
  set hours := Int.range settings.sessionStartHour settings.sessionEndHour with hhours
  set d₀ : SetDict ℤ ℤ := fun h => if h ∈ hours then some ∅ else none with hd₀
  have hkeys (h : ℤ) : (d₀ h).isSome ↔ h ∈ hours := by
    rw [hd₀]
    by_cases hh : h ∈ hours <;> simp [hh]
  obtain ⟨dict, hloop, he⟩ := SetDict.foldlM_extends {h | h ∈ hours} (l := bookings)
    (f := addBooking) (d := d₀) (fun p hp d hd => addBooking_extends hd fun h h1 h2 =>
      Int.mem_range_iff.mpr (hin p hp h h1 h2)) fun h hh => (hkeys h).mpr hh
  refine ⟨dict, hloop, fun h => ?_, fun h booked hb seatId => ?_⟩
  · rw [he.keys, hkeys, hhours, Int.mem_range_iff]
  · have hh : h ∈ hours := (hkeys h).mp (by rw [← he.keys, hb]; rfl)
    rw [he.mem h ∅ booked (by rw [hd₀]; exact if_pos hh) hb seatId]
    exact or_iff_right (Finset.notMem_empty seatId)

/-- **The counts.**  In every hour of the session exactly the seats of the bookings that span it are
counted. -/
theorem slots_eq (totalSeats : ℤ) {bookings : List (Booking × List BookingSeat)}
    (hin : ∀ p ∈ bookings, ∀ h, p.1.startTime.hour ≤ h → h < p.1.endTime.hour →
      settings.sessionStartHour ≤ h ∧ h < settings.sessionEndHour) :
    ∃ booked : ℤ → Finset ℤ,
      slots settings totalSeats bookings
        = .ok ((Int.range settings.sessionStartHour settings.sessionEndHour).map fun h =>
          slot totalSeats h (booked h).card) ∧
      ∀ h, settings.sessionStartHour ≤ h → h < settings.sessionEndHour → ∀ seatId,
        seatId ∈ booked h ↔ ∃ p ∈ bookings, p.1.startTime.hour ≤ h ∧ h < p.1.endTime.hour ∧
          ∃ bs ∈ p.2, bs.seatId = seatId := by
  obtain ⟨dict, hloop, hkeys, hmem⟩ := exists_bookedSeatsByHour hin
  have hsome (h : ℤ) (h1 : settings.sessionStartHour ≤ h) (h2 : h < settings.sessionEndHour) :
      ∃ booked, dict h = some booked := Option.isSome_iff_exists.mp ((hkeys h).mpr ⟨h1, h2⟩)
  refine ⟨fun h => (dict h).getD ∅, ?_, fun h h1 h2 seatId => ?_⟩
  · rw [slots_eq_bind, hloop]
    refine mapM_slotAt fun h hh => ?_
    obtain ⟨h1, h2⟩ := Int.mem_range_iff.mp hh
    exact hsome h h1 h2
  · obtain ⟨booked, hb⟩ := hsome h h1 h2
    simp only [hb, Option.getD_some, hmem h booked hb]

end BookingApi.BookingService
