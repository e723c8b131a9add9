import BookingApi.Serial.HourlyCount

/-!
# The loop over the bookings of a day

`_calculate_slots` indexes `booked_seats_by_hour` by the hours of timestamps and drops their dates.
`slotLoop_safe`: in every state that a serial run reaches this never leaves the hours of the
session, and a seat that is counted in an hour is occupied within it.  The window of the query puts
both ends of a booking on the day, and every stored booking ends after it starts.
-/

namespace BookingApi.Serial

open Async BookingService Concurrent World

variable {settings : Settings} {w : World} {r : RequestId} {hallId : ℤ} {date : Date}

/-- A confirmed booking of the hall holds the seat at the instant. -/
def OccupiedAt (db : Db) (hallId seatId : ℤ) (t : Instant) : Prop :=
  Held db (OfHall hallId fun b => b.startTime ≤ t ∧ t < b.endTime) seatId

/-- The dictionary has the hours of the session as its keys, and in each hour stand the seats of the
bookings of the query that span it; they are occupied in the hour. -/
structure CountsOccupied (settings : Settings) (db : Db) (hallId : ℤ) (date : Date)
    (dict : SetDict ℤ ℤ) : Prop where
  keys : ∀ h, (dict h).isSome ↔ settings.sessionStartHour ≤ h ∧ h < settings.sessionEndHour
  mem_iff : ∀ h booked, dict h = some booked → ∀ seatId, seatId ∈ booked ↔
    ∃ p ∈ sessionBookings settings db hallId date, p.1.startTime.hour ≤ h ∧
      h < p.1.endTime.hour ∧ ∃ bs ∈ p.2, bs.seatId = seatId
  occupied : ∀ h booked, dict h = some booked → ∀ seatId ∈ booked,
    ∃ t, Instant.combine date h ≤ t ∧ t < Instant.combine date (h + 1) ∧
      OccupiedAt db hallId seatId t

/-- There is one slot for every hour of the session, in order, with the number of seats that stand
in the dictionary; the rest of the seats is free. -/
structure SlotsOf (settings : Settings) (totalSeats : ℤ) (dict : SetDict ℤ ℤ) (slots : List Slot) :
    Prop where
  hours : slots.map Slot.hour = Int.range settings.sessionStartHour settings.sessionEndHour
  counts : ∀ slot ∈ slots, ∃ booked, dict slot.hour = some booked ∧
    slot.bookedSeats = booked.card
  balanced : ∀ slot ∈ slots, slot.totalSeats = totalSeats ∧
    slot.freeSeats + slot.bookedSeats = slot.totalSeats

/-! ### The loops -/

/-- A booking that spans an hour in the session of the day holds its seats within it. -/
theorem exists_occupied {hour : ℤ} {b : Booking} (hspans : Spans settings date hour b) :
    ∃ t, Instant.combine date hour ≤ t ∧ t < Instant.combine date (hour + 1) ∧
      b.startTime ≤ t ∧ t < b.endTime := by
  obtain ⟨-, -, hstart, hend⟩ := hspans
  have hlt : Instant.combine date hour < Instant.combine date (hour + 1) := by
    rw [← not_le, Instant.combine_le_combine_iff]
    omega
  have hmax : max b.startTime (Instant.combine date hour) < Instant.combine date (hour + 1) :=
    max_lt hstart hlt
  exact ⟨max b.startTime (Instant.combine date hour), le_max_right _ _, hmax, le_max_left _ _,
    hmax.trans_le hend⟩

theorem exists_countsOccupied (ho : Orderly w) (h0 : 0 ≤ settings.sessionStartHour)
    (h23 : settings.sessionEndHour ≤ 23) (hallId : ℤ) (date : Date) :
    ∃ dict, bookedSeatsByHour settings (sessionBookings settings w.db hallId date) = .ok dict ∧
      CountsOccupied settings w.db hallId date dict := by
  have h24 : settings.sessionEndHour < 24 := Int.lt_add_one_of_le h23
  have hin (p : Booking × List BookingSeat) (hp : p ∈ sessionBookings settings w.db hallId date) :=
    hours_of_mem_sessionBookings ho h0 h24 hp
  obtain ⟨dict, hloop, hkeys, hmem⟩ := exists_bookedSeatsByHour hin
  refine ⟨dict, hloop, hkeys, hmem, fun h booked hb seatId hseat => ?_⟩
  obtain ⟨p, hp, h1, h2, bs, hbs, rfl⟩ := (hmem h booked hb seatId).mp hseat
  obtain ⟨b, hb, hhall, hs, hstart, hend, rfl⟩ := mem_sessionBookings.mp hp
  have hspans : Spans settings date h b :=
    (spans_iff_hours h h0 h24 (ho.lt_of_confirmed hb hs) hstart hend).2.mpr ⟨h1, h2⟩
  obtain ⟨t, ht1, ht2, ht3, ht4⟩ := exists_occupied hspans
  exact ⟨t, ht1, ht2, b, hb, hs, ⟨bs, hbs, rfl⟩, hhall, ht3, ht4⟩

/-- The slots are made from the dictionary. -/
theorem exists_slotsOf {db : Db} {dict : SetDict ℤ ℤ} {bookings : List (Booking × List BookingSeat)}
    (hloop : bookedSeatsByHour settings bookings = .ok dict)
    (hdict : CountsOccupied settings db hallId date dict) (totalSeats : ℤ) :
    ∃ answer, slots settings totalSeats bookings = .ok answer ∧
      SlotsOf settings totalSeats dict answer := by
  have hsome (h : ℤ) (hh : h ∈ Int.range settings.sessionStartHour settings.sessionEndHour) :
      ∃ booked, dict h = some booked :=
    Option.isSome_iff_exists.mp ((hdict.keys h).mpr (Int.mem_range_iff.mp hh))
  have hslots : slots settings totalSeats bookings
      = .ok ((Int.range settings.sessionStartHour settings.sessionEndHour).map fun h =>
        slot totalSeats h ((dict h).getD ∅).card) := by
    rw [slots_eq_bind, hloop]
    exact mapM_slotAt hsome
  refine ⟨_, hslots, ?_, fun s hs => ?_, fun s hs => ?_⟩
  · rw [List.map_map]
    exact List.map_id _
  · obtain ⟨h, hh, rfl⟩ := List.mem_map.mp hs
    obtain ⟨booked, hb⟩ := hsome h hh
    refine ⟨booked, hb, ?_⟩
    rw [hb]
    rfl
  · obtain ⟨h, -, rfl⟩ := List.mem_map.mp hs
    exact ⟨rfl, Int.sub_add_cancel _ _⟩

/-! ### Serial runs -/

/-- Only the hall can be missing. -/
theorem serve_calculateSlots_of_not_active (hidle : w.writesOf r = [])
    (h : ¬ w.db.HallActive hallId) :
    (serve r (calculateSlots settings hallId date) w).1 = .error .hallNotFound := by
  rw [serve_fst, calculateSlots, Program.bind_eq, run_bind_ok (run_execute _ _ _),
    view_of_writesOf_nil hidle]
  cases hhall : selectActiveHall hallId w.db with
  | none => rfl
  | some hall =>
    obtain ⟨hmem, hid, hactive⟩ := selectActiveHall_eq_some hhall
    exact absurd ⟨hall, hmem, hid, hactive⟩ h

/-- **The slot loop** never indexes outside its table and counts each seat once: in every state that
serial requests reach. -/
theorem slotLoop_safe (h0 : 0 ≤ settings.sessionStartHour)
    (hlt : settings.sessionStartHour < settings.sessionEndHour)
    (h23 : settings.sessionEndHour ≤ 23) (moves : List Move) (hallId : ℤ) (date : Date) :
    ∃ dict,
      bookedSeatsByHour settings (sessionBookings settings (run settings moves).db hallId date)
        = .ok dict ∧
      CountsOccupied settings (run settings moves).db hallId date dict ∧
      ((run settings moves).db.HallActive hallId →
        ∃ slots, answer settings moves (calculateSlots settings hallId date) = .ok slots ∧
          SlotsOf settings (selectSeatsOfHall hallId (run settings moves).db).length dict slots) ∧
      (¬ (run settings moves).db.HallActive hallId →
        answer settings moves (calculateSlots settings hallId date) = .error .hallNotFound) := by
  obtain ⟨dict, hloop, hdict⟩ := exists_countsOccupied (orderly_run moves) h0 h23 hallId date
  refine ⟨dict, hloop, hdict, fun hactive => ?_, fun hnot => ?_⟩
  · obtain ⟨slots, hslots, hof⟩ := exists_slotsOf hloop hdict
      (selectSeatsOfHall hallId (run settings moves).db).length
    refine ⟨slots, ?_, hof⟩
    rw [← hslots]
    exact serve_calculateSlots settings date (writesOf_run _ _) hactive ⟨h0, by omega⟩
      ⟨by omega, by omega⟩
  · exact serve_calculateSlots_of_not_active (writesOf_run _ _) hnot

open Scenario in
/-- A hall with one booking. -/
theorem slotLoop_safe_twoHours :
    ∃ dict,
      bookedSeatsByHour BookingApi.settings (sessionBookings BookingApi.settings
        (run BookingApi.settings twoHours).db 1 Concurrent.Scenario.date) = .ok dict ∧
      CountsOccupied BookingApi.settings (run BookingApi.settings twoHours).db 1
        Concurrent.Scenario.date dict ∧
      ((run BookingApi.settings twoHours).db.HallActive 1 →
        ∃ slots, answer BookingApi.settings twoHours
            (calculateSlots BookingApi.settings 1 Concurrent.Scenario.date) = .ok slots ∧
          SlotsOf BookingApi.settings
            (selectSeatsOfHall 1 (run BookingApi.settings twoHours).db).length dict slots) ∧
      (¬ (run BookingApi.settings twoHours).db.HallActive 1 →
        answer BookingApi.settings twoHours
          (calculateSlots BookingApi.settings 1 Concurrent.Scenario.date) = .error .hallNotFound) :=
  slotLoop_safe (by decide) (by decide) (by decide) twoHours 1 Concurrent.Scenario.date

end BookingApi.Serial
