import BookingApi.Serial.Availability
import Mathlib.Data.List.Dedup

/-!
# The hourly count

The availability says how many seats are booked in each hour of a session.  `countsExactly_iff` says
when this is the number of the seats that confirmed bookings hold in the hour: a seat is missed if
all its bookings that meet the hour end within it, or leave the session of the day.
-/

namespace BookingApi.Serial

open Async BookingService Concurrent World

variable {settings : Settings} {w : World} {hallId hour : ℤ} {date : Date} {moves : List Move}

/-- A booking of the hall with the property. -/
def OfHall (hallId : ℤ) (P : Booking → Prop) (b : Booking) : Prop := b.hallId = hallId ∧ P b

instance (P : Booking → Prop) [DecidablePred P] : DecidablePred (OfHall hallId P) :=
  fun _ => inferInstanceAs (Decidable (_ ∧ _))

/-- The seats of the confirmed bookings of a hall that meet an hour, each once. -/
def seatsInHour (db : Db) (hallId : ℤ) (date : Date) (hour : ℤ) : List ℤ :=
  ((db.bookings.rows.filter fun b => b.status = .confirmed ∧ OfHall hallId (Meets date hour) b)
    |>.flatMap fun b => (db.seatsOf b.id).map BookingSeat.seatId).dedup

/-- There is one slot for the hour, and it has the number of the seats that are booked in it. -/
def CountsExactly (settings : Settings) (moves : List Move) (hallId : ℤ) (date : Date) (hour : ℤ) :
    Prop :=
  ∃ slots slot, answer settings moves (calculateSlots settings hallId date) = .ok slots ∧
    slots.filter (fun slot => slot.hour = hour) = [slot] ∧
    slot.bookedSeats = (seatsInHour (run settings moves).db hallId date hour).length

theorem mem_seatsInHour {db : Db} {seatId : ℤ} :
    seatId ∈ seatsInHour db hallId date hour ↔
      Held db (OfHall hallId (Meets date hour)) seatId := by
  rw [seatsInHour, List.mem_dedup, List.mem_flatMap]
  simp only [List.mem_filter, decide_eq_true_eq, List.mem_map]
  constructor
  · rintro ⟨b, ⟨hb, hs, hmeets⟩, hseat⟩
    exact ⟨b, hb, hs, hseat, hmeets⟩
  · rintro ⟨b, hb, hs, hseat, hmeets⟩
    exact ⟨b, ⟨hb, hs, hmeets⟩, hseat⟩

theorem nodup_seatsInHour (db : Db) (hallId : ℤ) (date : Date) (hour : ℤ) :
    (seatsInHour db hallId date hour).Nodup :=
  List.nodup_dedup _

/-! ### The seats that are counted -/

/-- The seats of the hall which a booking holds that spans the hour. -/
def countedSeats (settings : Settings) (db : Db) (hallId : ℤ) (date : Date) (hour : ℤ) : List ℤ :=
  (db.seats.rows.filter fun s => s.hallId = hallId ∧ Held db (Spans settings date hour) s.id).map
    Seat.id

theorem nodup_countedSeats (settings : Settings) (db : Db) (hallId : ℤ) (date : Date) (hour : ℤ) :
    (countedSeats settings db hallId date hour).Nodup :=
  db.seats.nodup.sublist (List.filter_sublist.map _)

/-- The seats of a booking are seats of its hall. -/
theorem mem_countedSeats (hw : w.Sound) {seatId : ℤ} :
    seatId ∈ countedSeats settings w.db hallId date hour ↔
      Held w.db (OfHall hallId (Spans settings date hour)) seatId := by
  simp only [countedSeats, List.mem_map, List.mem_filter, decide_eq_true_eq]
  constructor
  · rintro ⟨s, ⟨hs, rfl, b, hb, hstatus, ⟨bs, hbs, hid⟩, hspans⟩, rfl⟩
    have hhall := hallId_of_mem_seatsOf hw hb hbs hs hid
    exact ⟨b, hb, hstatus, ⟨bs, hbs, hid⟩, hhall.symm, hspans⟩
  · rintro ⟨b, hb, hstatus, ⟨bs, hbs, rfl⟩, hhall, hspans⟩
    obtain ⟨s, hs, hid, hshall⟩ := exists_seat_of_mem_seatsOf hw hb hbs
    exact ⟨s, ⟨hs, hshall.trans hhall, b, hb, hstatus, ⟨bs, hbs, hid.symm⟩, hspans⟩, hid⟩

/-- Of two lists without repetitions, one of them in the other. -/
theorem length_eq_iff_of_subset {l l' : List ℤ} (hl : l.Nodup) (hl' : l'.Nodup) (h : l ⊆ l') :
    l.length = l'.length ↔ l' ⊆ l := by
  constructor
  · intro hlen
    exact ((hl.subperm h).perm_of_length_le hlen.ge).symm.subset
  · intro h'
    exact Nat.le_antisymm (hl.length_le_of_subset h) (hl'.length_le_of_subset h')

/-- The count is right if every seat that is held in the hour is held by a booking that spans it. -/
theorem length_countedSeats_eq_iff (hw : w.Sound) :
    (countedSeats settings w.db hallId date hour).length
        = (seatsInHour w.db hallId date hour).length ↔
      ∀ seatId, Held w.db (OfHall hallId (Meets date hour)) seatId →
        Held w.db (OfHall hallId (Spans settings date hour)) seatId := by
  have hsub : countedSeats settings w.db hallId date hour ⊆ seatsInHour w.db hallId date hour := by
    intro seatId hs
    have hheld := (mem_countedSeats hw).mp hs
    exact mem_seatsInHour.mpr (hheld.imp fun b hb => ⟨hb.1, hb.2.meets⟩)
  rw [length_eq_iff_of_subset (nodup_countedSeats ..) (nodup_seatsInHour ..) hsub]
  refine forall_congr' fun seatId => ?_
  rw [mem_seatsInHour, mem_countedSeats hw]

/-! ### The agreement -/

/-- **When the count is exact.**  The slot of an hour counts the seats that are booked in the hour
exactly if the session hours are hours of the day, and every seat of a confirmed booking of the hall
that meets the hour belongs to one that lies in the session of the day and lasts until the end of
the hour. -/
theorem countsExactly_iff (hactive : (run settings moves).db.HallActive hallId)
    (hhour : settings.sessionStartHour ≤ hour ∧ hour < settings.sessionEndHour) :
    CountsExactly settings moves hallId date hour ↔
      (0 ≤ settings.sessionStartHour ∧ settings.sessionEndHour < 24) ∧
        ∀ seatId, Held (run settings moves).db (OfHall hallId (Meets date hour)) seatId →
          Held (run settings moves).db (OfHall hallId (Spans settings date hour)) seatId := by
  have hw : (run settings moves).Sound := sound_run moves
  have hcount : (run settings moves).db.seats.rows.countP (fun s => s.hallId = hallId ∧
      Held (run settings moves).db (Spans settings date hour) s.id)
      = (countedSeats settings (run settings moves).db hallId date hour).length := by
    rw [countedSeats, List.length_map, List.countP_eq_length_filter]
  rw [← length_countedSeats_eq_iff hw]
  constructor
  · rintro ⟨slots, slot, hslots, hslot, hbooked⟩
    obtain ⟨⟨h0, -⟩, -, h24⟩ := hours_of_calculateSlots_eq_ok hslots
    obtain ⟨slots', hslots', hslot'⟩ := answer_calculateSlots date hactive hhour h0 h24
    obtain rfl := Except.ok.inj (hslots.symm.trans hslots')
    obtain rfl := List.singleton_inj.mp (hslot.symm.trans hslot')
    rw [hcount] at hbooked
    exact ⟨⟨h0, h24⟩, Int.ofNat_inj.mp hbooked⟩
  · rintro ⟨⟨h0, h24⟩, hlen⟩
    obtain ⟨slots, hslots, hslot⟩ := answer_calculateSlots date hactive hhour h0 h24
    refine ⟨slots, _, hslots, hslot, ?_⟩
    rw [hcount, hlen]
    rfl

namespace Scenario

open Concurrent.Scenario (booking oclock)

/-- One booking, from 10:00 to 12:00. -/
def twoHours : List Move := .serve (.createBooking booking) :: installation

/-- One booking, from 10:00:30 to 11:00:30. -/
def halfPast : CreateArgs :=
  { booking with
    startTime := { oclock 10 with second := ⟨30, by decide⟩ }
    endTime := { oclock 11 with second := ⟨30, by decide⟩ } }

def secondsPast : List Move := .serve (.createBooking halfPast) :: installation

end Scenario

open Scenario

/-- The last hour of a booking is counted. -/
theorem countsExactly_twoHours :
    CountsExactly BookingApi.settings twoHours 1 Concurrent.Scenario.date 11 := by
  refine (countsExactly_iff (show ∃ h ∈ _, _ by decide +kernel) (by decide)).mpr
    ⟨by decide, fun seatId hheld => ?_⟩
  have hspans : ∀ seatId ∈ seatsInHour (run BookingApi.settings twoHours).db 1
        Concurrent.Scenario.date 11,
      Held (run BookingApi.settings twoHours).db
        (OfHall 1 (Spans BookingApi.settings Concurrent.Scenario.date 11)) seatId := by
    decide +kernel
  exact hspans seatId (mem_seatsInHour.mpr hheld)

/-- The last half minute of a booking is not. -/
theorem not_countsExactly_secondsPast :
    ¬ CountsExactly BookingApi.settings secondsPast 1 Concurrent.Scenario.date 11 := by
  rintro ⟨slots, slot, hslots, hslot, hbooked⟩
  have hslot' : (answer BookingApi.settings secondsPast
      (calculateSlots BookingApi.settings 1 Concurrent.Scenario.date)).map
        (fun slots => slots.filter fun slot => slot.hour = 11)
      = .ok [⟨11, true, 2, 2, 0⟩] := by decide +kernel
  have hlength : (seatsInHour (run BookingApi.settings secondsPast).db 1
      Concurrent.Scenario.date 11).length = 1 := by decide +kernel
  rw [hslots, Except.map, hslot] at hslot'
  obtain rfl := List.singleton_inj.mp (Except.ok.inj hslot')
  rw [hlength] at hbooked
  exact absurd hbooked (by decide)

end BookingApi.Serial
