import BookingApi.BookingService.Availability
import BookingApi.Serial.Occupancy

/-!
# Availability and the conflict check

The availability of a hall counts, for every hour of a session, the seats of the bookings that lie
in the session and last until the end of the hour, whether the seats are active or not.  The
conflict check asks for any booking that meets the hour.  `slotAgrees_iff` says when the two agree:
the removed seats that are counted have to make up for the active seats that are missed.
-/

namespace BookingApi.Serial

open Async BookingService Concurrent World

variable {settings : Settings} {w : World} {r : RequestId} {hallId hour : ℤ} {date : Date}

/-! ### Seats that are held -/

/-- A confirmed booking with the property holds the seat. -/
def Held (db : Db) (P : Booking → Prop) (seatId : ℤ) : Prop :=
  ∃ b ∈ db.bookings.rows, b.status = .confirmed ∧ (∃ bs ∈ db.seatsOf b.id, bs.seatId = seatId) ∧ P b

/-- The booking meets the hour. -/
def Meets (date : Date) (hour : ℤ) (b : Booking) : Prop :=
  b.startTime < Instant.combine date (hour + 1) ∧ Instant.combine date hour < b.endTime

/-- The booking lies in the session of the day, meets the hour and lasts until its end. -/
def Spans (settings : Settings) (date : Date) (hour : ℤ) (b : Booking) : Prop :=
  Instant.combine date settings.sessionStartHour ≤ b.startTime ∧
    b.endTime ≤ Instant.combine date settings.sessionEndHour ∧
    b.startTime < Instant.combine date (hour + 1) ∧ Instant.combine date (hour + 1) ≤ b.endTime

instance (date : Date) (hour : ℤ) : DecidablePred (Meets date hour) :=
  fun _ => inferInstanceAs (Decidable (_ ∧ _))

instance (settings : Settings) (date : Date) (hour : ℤ) :
    DecidablePred (Spans settings date hour) :=
  fun _ => inferInstanceAs (Decidable (_ ∧ _ ∧ _ ∧ _))

instance (db : Db) (P : Booking → Prop) [DecidablePred P] : DecidablePred (Held db P) :=
  fun _ => inferInstanceAs (Decidable (∃ b ∈ db.bookings.rows, _ ∧ (∃ bs ∈ _, _) ∧ _))

theorem Spans.meets {b : Booking} (h : Spans settings date hour b) : Meets date hour b :=
  ⟨h.2.2.1, (lt_of_lt_of_le (by rw [← not_le, Instant.combine_le_combine_iff]; omega) h.2.2.2)⟩

theorem Held.imp {db : Db} {P Q : Booking → Prop} {seatId : ℤ} (hPQ : ∀ b, P b → Q b)
    (h : Held db P seatId) : Held db Q seatId := by
  obtain ⟨b, hb, hs, hseat, hP⟩ := h
  exact ⟨b, hb, hs, hseat, hPQ b hP⟩

/-- As many removed seats of the hall are held by bookings that span the hour as active ones are
held in the hour by other bookings only. -/
def Balanced (settings : Settings) (db : Db) (hallId : ℤ) (date : Date) (hour : ℤ) : Prop :=
  (db.seats.rows.countP fun s => (s.hallId = hallId ∧ Held db (Spans settings date hour) s.id) ∧
      ¬ s.isActive) =
    db.seats.rows.countP fun s => ((s.hallId = hallId ∧ s.isActive) ∧
      Held db (Meets date hour) s.id) ∧ ¬ Held db (Spans settings date hour) s.id

instance (settings : Settings) (db : Db) (hallId : ℤ) (date : Date) (hour : ℤ) :
    Decidable (Balanced settings db hallId date hour) :=
  inferInstanceAs (Decidable (_ = _))

/-! ### The count -/

/-- In the session of a day, the hours of a booking are those that it spans. -/
theorem spans_iff_hours (hour : ℤ) {b : Booking} (h0 : 0 ≤ settings.sessionStartHour)
    (h24 : settings.sessionEndHour < 24) (hlt : b.startTime < b.endTime)
    (hstart : Instant.combine date settings.sessionStartHour ≤ b.startTime)
    (hend : b.endTime ≤ Instant.combine date settings.sessionEndHour) :
    (settings.sessionStartHour ≤ b.startTime.hour ∧
      (∀ h, h < b.endTime.hour → h < settings.sessionEndHour)) ∧
    (Spans settings date hour b ↔ b.startTime.hour ≤ hour ∧ hour < b.endTime.hour) := by
  have hstart0 : Instant.combine date 0 ≤ b.startTime :=
    (Instant.combine_le_combine_iff.mpr h0).trans hstart
  have hend24 : b.endTime < Instant.combine date 24 :=
    hend.trans_lt (not_le.mp fun h => (Instant.combine_le_combine_iff.mp h).not_gt h24)
  have hs (k : ℤ) := Instant.hour_lt_iff (k := k) hstart0 (hlt.trans hend24)
  have he (k : ℤ) := Instant.hour_lt_iff (k := k) (hstart0.trans hlt.le) hend24
  have hspan (k : ℤ) : k < b.endTime.hour ↔ Instant.combine date (k + 1) ≤ b.endTime := by
    rw [← not_lt, ← he (k + 1), not_lt, Int.add_one_le_iff]
  refine ⟨⟨?_, fun h hh => ?_⟩, ?_⟩
  · rw [← not_lt, hs, not_lt]
    exact hstart
  · exact Instant.combine_le_combine_iff.mp (((hspan h).mp hh).trans hend)
  · rw [hspan, ← Int.lt_add_one_iff, hs]
    exact ⟨fun h => h.2.2, fun h => ⟨hstart, hend, h⟩⟩

/-- A seat of a booking belongs to its hall. -/
theorem hallId_of_mem_seatsOf (hw : w.Sound) {b : Booking} (hb : b ∈ w.db.bookings.rows)
    {bs : BookingSeat} (hbs : bs ∈ w.db.seatsOf b.id) {s : Seat} (hs : s ∈ w.db.seats.rows)
    (hid : bs.seatId = s.id) : s.hallId = b.hallId := by
  obtain ⟨s', hs', hid', hhall⟩ := exists_seat_of_mem_seatsOf hw hb hbs
  obtain rfl : s = s' := Table.eq_of_key_eq hs hs' (hid.symm.trans hid'.symm)
  exact hhall

theorem Orderly.lt_of_confirmed (h : Orderly w) {b : Booking} (hb : b ∈ w.db.bookings.rows)
    (hs : b.status = .confirmed) : b.startTime < b.endTime :=
  h.proper b.id _ (Db.ledger_eq_some_iff.mpr ⟨b, hb, rfl, hs, rfl⟩)

/-- The confirmed bookings of a hall in the session of a day, each with its seats. -/
def sessionBookings (settings : Settings) (db : Db) (hallId : ℤ) (date : Date) :
    List (Booking × List BookingSeat) :=
  selectBookingsBetween hallId (Instant.combine date settings.sessionStartHour)
    (Instant.combine date settings.sessionEndHour) db

theorem mem_sessionBookings {db : Db} {p : Booking × List BookingSeat} :
    p ∈ sessionBookings settings db hallId date ↔ ∃ b ∈ db.bookings.rows,
      b.hallId = hallId ∧ b.status = .confirmed ∧
      Instant.combine date settings.sessionStartHour ≤ b.startTime ∧
      b.endTime ≤ Instant.combine date settings.sessionEndHour ∧ p = (b, db.seatsOf b.id) := by
  simp only [sessionBookings, selectBookingsBetween, List.mem_map, List.mem_filter,
    decide_eq_true_eq, ge_iff_le]
  constructor
  · rintro ⟨b, ⟨hb, h1, h2, h3, h4⟩, rfl⟩
    exact ⟨b, hb, h1, h2, h3, h4, rfl⟩
  · rintro ⟨b, hb, h1, h2, h3, h4, rfl⟩
    exact ⟨b, ⟨hb, h1, h2, h3, h4⟩, rfl⟩

section

variable (hw : w.Sound) (ho : Orderly w) (h0 : 0 ≤ settings.sessionStartHour)
  (h24 : settings.sessionEndHour < 24)

include ho h0 h24

/-- The hours of the bookings lie in the session. -/
theorem hours_of_mem_sessionBookings {p : Booking × List BookingSeat}
    (hp : p ∈ sessionBookings settings w.db hallId date) (h : ℤ)
    (h1 : p.1.startTime.hour ≤ h) (h2 : h < p.1.endTime.hour) :
    settings.sessionStartHour ≤ h ∧ h < settings.sessionEndHour := by
  obtain ⟨b, hb, -, hs, hstart, hend, rfl⟩ := mem_sessionBookings.mp hp
  obtain ⟨h3, h4⟩ := (spans_iff_hours h h0 h24 (ho.lt_of_confirmed hb hs) hstart hend).1
  exact ⟨h3.trans h1, h4 h h2⟩

include hw in
/-- The seats that are counted in an hour are those of the hall which a booking holds that spans the
hour. -/
theorem exists_mem_sessionBookings_iff {seatId : ℤ} :
    (∃ p ∈ sessionBookings settings w.db hallId date, p.1.startTime.hour ≤ hour ∧
        hour < p.1.endTime.hour ∧ ∃ bs ∈ p.2, bs.seatId = seatId) ↔
      ∃ s ∈ w.db.seats.rows,
        (s.hallId = hallId ∧ Held w.db (Spans settings date hour) s.id) ∧ s.id = seatId := by
  constructor
  · rintro ⟨p, hp, h1, h2, bs, hbs, rfl⟩
    obtain ⟨b, hb, hhall, hs, hstart, hend, rfl⟩ := mem_sessionBookings.mp hp
    obtain ⟨s, hseat, hid, hhall'⟩ := exists_seat_of_mem_seatsOf hw hb hbs
    refine ⟨s, hseat, ⟨hhall'.trans hhall, b, hb, hs, ⟨bs, hbs, hid.symm⟩, ?_⟩, hid⟩
    exact (spans_iff_hours hour h0 h24 (ho.lt_of_confirmed hb hs) hstart hend).2.mpr ⟨h1, h2⟩
  · rintro ⟨s, hseat, ⟨hhall, b, hb, hs, ⟨bs, hbs, hid⟩, hspans⟩, rfl⟩
    have hbhall : b.hallId = hallId := (hallId_of_mem_seatsOf hw hb hbs hseat hid).symm.trans hhall
    obtain ⟨h1, h2⟩ :=
      (spans_iff_hours hour h0 h24 (ho.lt_of_confirmed hb hs) hspans.1 hspans.2.1).2.mp hspans
    exact ⟨(b, w.db.seatsOf b.id), mem_sessionBookings.mpr
      ⟨b, hb, hbhall, hs, hspans.1, hspans.2.1, rfl⟩, h1, h2, bs, hbs, hid⟩

include hw in
/-- **The count** of an hour: the seats of the hall which a booking holds that spans the hour. -/
theorem slots_sessionBookings (hallId totalSeats : ℤ) (date : Date) :
    slots settings totalSeats (sessionBookings settings w.db hallId date)
      = .ok ((Int.range settings.sessionStartHour settings.sessionEndHour).map fun h =>
        slot totalSeats h (w.db.seats.rows.countP fun s =>
          s.hallId = hallId ∧ Held w.db (Spans settings date h) s.id)) := by
  have hin (p : Booking × List BookingSeat) (hp : p ∈ sessionBookings settings w.db hallId date) :=
    hours_of_mem_sessionBookings ho h0 h24 hp
  obtain ⟨booked, hslots, hmem⟩ := slots_eq totalSeats hin
  rw [hslots]
  refine congrArg Except.ok (List.map_congr_left fun h hh => ?_)
  obtain ⟨h1, h2⟩ := Int.mem_range_iff.mp hh
  have hnodup : ((w.db.seats.rows.filter fun s =>
      s.hallId = hallId ∧ Held w.db (Spans settings date h) s.id).map Seat.id).Nodup :=
    w.db.seats.nodup.sublist (List.filter_sublist.map _)
  have hbooked : booked h = ((w.db.seats.rows.filter fun s =>
      s.hallId = hallId ∧ Held w.db (Spans settings date h) s.id).map Seat.id).toFinset := by
    ext seatId
    rw [hmem h h1 h2, exists_mem_sessionBookings_iff hw ho h0 h24]
    simp [and_assoc]
  rw [hbooked, List.toFinset_card_of_nodup hnodup, List.length_map, ← List.countP_eq_length_filter]

end

/-! ### The answers -/

/-- Serving a request does not change its result. -/
theorem sessionBoundary_eq_ok {h : ℤ} (h0 : 0 ≤ h) (h24 : h < 24) :
    sessionBoundary date h = .ok (Instant.combine date h) := if_pos ⟨h0, h24⟩

/-- The availability of an active hall. -/
theorem serve_calculateSlots (settings : Settings) (date : Date) (hidle : w.writesOf r = [])
    (hactive : w.db.HallActive hallId)
    (hS : 0 ≤ settings.sessionStartHour ∧ settings.sessionStartHour < 24)
    (hE : 0 ≤ settings.sessionEndHour ∧ settings.sessionEndHour < 24) :
    (serve r (calculateSlots settings hallId date) w).1
      = slots settings (selectSeatsOfHall hallId w.db).length
        (sessionBookings settings w.db hallId date) := by
  obtain ⟨hall, hhall⟩ := exists_selectActiveHall hactive
  rw [serve_fst, calculateSlots, Program.bind_eq, run_bind_ok (run_execute _ _ _),
    view_of_writesOf_nil hidle, hhall]
  simp only
  rw [Program.bind_eq, run_bind_ok (run_execute _ _ _), sessionBoundary_eq_ok hS.1 hS.2,
    sessionBoundary_eq_ok hE.1 hE.2, Program.ofExcept_ok, Program.ofExcept_ok, Program.bind_eq,
    Program.ret_bind, Program.bind_eq, Program.ret_bind, Program.bind_eq,
    run_bind_ok (run_execute _ _ _), view_of_writesOf_nil hidle, sessionBookings]
  cases slots settings _ _ <;> rfl

/-- Only a setting with hours of the day has an answer. -/
theorem hours_of_calculateSlots_eq_ok {answer : List Slot}
    (h : (serve r (calculateSlots settings hallId date) w).1 = .ok answer) :
    (0 ≤ settings.sessionStartHour ∧ settings.sessionStartHour < 24) ∧
      0 ≤ settings.sessionEndHour ∧ settings.sessionEndHour < 24 := by
  rw [serve_fst, calculateSlots, Program.bind_eq, run_bind_ok (run_execute _ _ _)] at h
  rcases hhall : selectActiveHall hallId (w.view r) with _ | hall <;> rw [hhall] at h
  · cases h
  · simp only at h
    rw [Program.bind_eq, run_bind_ok (run_execute _ _ _), sessionBoundary, sessionBoundary] at h
    by_cases hS : 0 ≤ settings.sessionStartHour ∧ settings.sessionStartHour < 24
    · by_cases hE : 0 ≤ settings.sessionEndHour ∧ settings.sessionEndHour < 24
      · exact ⟨hS, hE⟩
      · rw [if_pos hS, if_neg hE] at h
        cases h
    · rw [if_neg hS] at h
      cases h

/-- The conflict check of one seat passes exactly if no booking holds it at the time. -/
theorem isOk_checkSeatConflicts_iff (hidle : w.writesOf r = []) (hw : w.Sound) {s : Seat}
    (hs : s ∈ w.db.seats.rows) {start stop : DateTime}
    (hstart : start.instant = Instant.combine date hour)
    (hstop : stop.instant = Instant.combine date (hour + 1)) :
    (serve r (checkSeatConflicts s.hallId [s.id] start stop none) w).1.isOk ↔
      ¬ Held w.db (Meets date hour) s.id := by
  have hconflicts : selectConflictingSeats s.hallId [s.id] (Instant.combine date hour)
      (Instant.combine date (hour + 1)) none w.db = [] ↔ ¬ Held w.db (Meets date hour) s.id := by
    rw [selectConflictingSeats_eq_nil_iff]
    constructor
    · rintro h ⟨b, hb, hconfirmed, ⟨bs, hbs, hid⟩, hmeets⟩
      have hhall := hallId_of_mem_seatsOf hw hb hbs hs hid
      rw [Db.seatsOf, List.mem_filter, decide_eq_true_eq] at hbs
      exact h s hs (List.mem_singleton_self _) bs hbs.1 hid b hb hbs.2.symm hhall.symm hconfirmed
        hmeets
    · intro h s' hs' hid' bs hbs hid b hb hbid _ hconfirmed hmeets
      refine h ⟨b, hb, hconfirmed, ⟨bs, ?_, hid.trans (List.mem_singleton.mp hid')⟩, hmeets⟩
      rw [Db.seatsOf, List.mem_filter, decide_eq_true_eq]
      exact ⟨hbs, hbid.symm⟩
  rw [serve_fst, run_checkSeatConflicts, view_of_writesOf_nil hidle, hstart, hstop, ← hconflicts]
  split_ifs with h
  · exact iff_of_true rfl h
  · exact iff_of_false Bool.false_ne_true h

/-! ### The agreement -/

/-- The active seats of the hall for which the conflict check of the time passes. -/
def bookableSeats (settings : Settings) (moves : List Move) (hallId : ℤ) (start stop : DateTime) :
    List Seat :=
  (selectSeatsOfHall hallId (run settings moves).db).filter fun s =>
    (answer settings moves (checkSeatConflicts hallId [s.id] start stop none)).isOk

/-- There is one slot for the hour, and it says how many seats can be booked. -/
def SlotAgrees (settings : Settings) (moves : List Move) (hallId : ℤ) (date : Date) (hour : ℤ)
    (start stop : DateTime) : Prop :=
  ∃ slots slot, answer settings moves (calculateSlots settings hallId date) = .ok slots ∧
    slots.filter (fun slot => slot.hour = hour) = [slot] ∧
    slot.freeSeats = (bookableSeats settings moves hallId start stop).length ∧
    (slot.available = true ↔ ∃ s, s ∈ bookableSeats settings moves hallId start stop) ∧
    0 ≤ slot.freeSeats ∧ slot.freeSeats ≤ slot.totalSeats

theorem length_bookableSeats (settings : Settings) (moves : List Move) (hallId : ℤ)
    {start stop : DateTime}
    (hstart : start.instant = Instant.combine date hour)
    (hstop : stop.instant = Instant.combine date (hour + 1)) :
    (bookableSeats settings moves hallId start stop).length
      = (run settings moves).db.seats.rows.countP fun s => (s.hallId = hallId ∧ s.isActive) ∧
        ¬ Held (run settings moves).db (Meets date hour) s.id := by
  rw [bookableSeats, selectSeatsOfHall, List.filter_filter, ← List.countP_eq_length_filter]
  refine List.countP_congr fun s hs => ?_
  have hidle : (run settings moves).writesOf moves.length = [] := writesOf_run _ _
  have hiff := isOk_checkSeatConflicts_iff hidle (sound_run moves) hs hstart hstop
  rw [Bool.and_eq_true, decide_eq_true_eq, decide_eq_true_eq, and_comm]
  refine and_congr_right fun ⟨hhall, _⟩ => ?_
  rw [answer, ← hhall]
  exact hiff

/-- A list is split by a test. -/
theorem countP_split {α : Type*} (l : List α) (p q : α → Prop) [DecidablePred p]
    [DecidablePred q] :
    l.countP (fun a => p a) = l.countP (fun a => p a ∧ q a) + l.countP fun a => p a ∧ ¬ q a := by
  induction l with
  | nil => rfl
  | cons a l ih =>
    have hhead : (if decide (p a) then 1 else 0) = (if decide (p a ∧ q a) then 1 else 0)
        + if decide (p a ∧ ¬ q a) then 1 else 0 := by
      by_cases hp : p a <;> by_cases hq : q a <;> simp [hp, hq]
    rw [List.countP_cons, List.countP_cons, List.countP_cons, ih, hhead]
    omega

/-- Counting the seats of a hall that are held by bookings which span the hour, and the active seats
that no booking holds in the hour. -/
theorem count_seats (settings : Settings) (db : Db) (hallId : ℤ) (date : Date) (hour : ℤ) :
    db.seats.rows.countP (fun s => s.hallId = hallId ∧ s.isActive)
        + db.seats.rows.countP (fun s => (s.hallId = hallId ∧
          Held db (Spans settings date hour) s.id) ∧ ¬ s.isActive)
      = db.seats.rows.countP (fun s => (s.hallId = hallId ∧ s.isActive) ∧
          ¬ Held db (Meets date hour) s.id)
        + db.seats.rows.countP (fun s => ((s.hallId = hallId ∧ s.isActive) ∧
          Held db (Meets date hour) s.id) ∧ ¬ Held db (Spans settings date hour) s.id)
        + db.seats.rows.countP (fun s => s.hallId = hallId ∧
          Held db (Spans settings date hour) s.id) := by
  have h1 := countP_split db.seats.rows (fun s => s.hallId = hallId ∧ s.isActive)
    (fun s => Held db (Meets date hour) s.id)
  have h2 := countP_split db.seats.rows
    (fun s => (s.hallId = hallId ∧ s.isActive) ∧ Held db (Meets date hour) s.id)
    (fun s => Held db (Spans settings date hour) s.id)
  have h3 := countP_split db.seats.rows
    (fun s => s.hallId = hallId ∧ Held db (Spans settings date hour) s.id) (fun s => s.isActive)
  -- a booking that spans the hour meets it
  have h4 : db.seats.rows.countP (fun s => ((s.hallId = hallId ∧ s.isActive) ∧
        Held db (Meets date hour) s.id) ∧ Held db (Spans settings date hour) s.id)
      = db.seats.rows.countP fun s => (s.hallId = hallId ∧
        Held db (Spans settings date hour) s.id) ∧ s.isActive := by
    refine List.countP_congr fun s _ => ?_
    rw [decide_eq_true_eq, decide_eq_true_eq]
    exact ⟨fun ⟨⟨⟨hh, ha⟩, _⟩, hs⟩ => ⟨⟨hh, hs⟩, ha⟩,
      fun ⟨⟨hh, hs⟩, ha⟩ => ⟨⟨⟨hh, ha⟩, hs.imp fun _ => Spans.meets⟩, hs⟩⟩
  omega

/-- There is one slot for each hour of the session. -/
theorem filter_slots {totalSeats : ℤ} {booked : ℤ → ℤ} {first last : ℤ}
    (hhour : first ≤ hour ∧ hour < last) :
    ((Int.range first last).map fun h => slot totalSeats h (booked h)).filter
      (fun slot => slot.hour = hour) = [slot totalSeats hour (booked hour)] := by
  have hnodup : (Int.range first last).Nodup :=
    List.nodup_range.map fun m n h => Int.ofNat_inj.mp (add_left_cancel h)
  have hfilter : (Int.range first last).filter (fun h => h = hour) = [hour] := by
    rw [List.filter_eq, List.count_eq_one_of_mem hnodup (Int.mem_range_iff.mpr hhour)]
    rfl
  rw [List.filter_map]
  exact congrArg (List.map _) hfilter

/-- The slot of an hour, if the session hours are hours of the day. -/
theorem answer_calculateSlots (date : Date) {moves : List Move}
    (hactive : (run settings moves).db.HallActive hallId)
    (hhour : settings.sessionStartHour ≤ hour ∧ hour < settings.sessionEndHour)
    (h0 : 0 ≤ settings.sessionStartHour) (h24 : settings.sessionEndHour < 24) :
    ∃ slots, answer settings moves (calculateSlots settings hallId date) = .ok slots ∧
      slots.filter (fun slot => slot.hour = hour)
        = [slot ((run settings moves).db.seats.rows.countP fun s => s.hallId = hallId ∧ s.isActive)
          hour ((run settings moves).db.seats.rows.countP fun s => s.hallId = hallId ∧
            Held (run settings moves).db (Spans settings date hour) s.id)] := by
  have hidle : (run settings moves).writesOf moves.length = [] := writesOf_run _ _
  have hanswer := serve_calculateSlots settings date hidle hactive ⟨h0, by omega⟩
    ⟨by omega, h24⟩
  rw [slots_sessionBookings (sound_run moves) (orderly_run moves) h0 h24, selectSeatsOfHall,
    ← List.countP_eq_length_filter] at hanswer
  exact ⟨_, hanswer, filter_slots hhour⟩

/-- **When the availability is right.**  The slot of an hour agrees with the conflict check exactly
if the session hours are hours of the day and the counts are balanced. -/
theorem slotAgrees_iff {moves : List Move} {start stop : DateTime}
    (hactive : (run settings moves).db.HallActive hallId)
    (hhour : settings.sessionStartHour ≤ hour ∧ hour < settings.sessionEndHour)
    (hstart : start.instant = Instant.combine date hour)
    (hstop : stop.instant = Instant.combine date (hour + 1)) :
    SlotAgrees settings moves hallId date hour start stop ↔
      (0 ≤ settings.sessionStartHour ∧ settings.sessionEndHour < 24) ∧
        Balanced settings (run settings moves).db hallId date hour := by
  have hbookable := length_bookableSeats settings moves hallId hstart hstop
  have hcount := count_seats settings (run settings moves).db hallId date hour
  rw [Balanced]
  constructor
  · rintro ⟨slots, slot, hslots, hslot, hfree, -⟩
    obtain ⟨⟨h0, -⟩, -, h24⟩ := hours_of_calculateSlots_eq_ok hslots
    obtain ⟨slots', hslots', hslot'⟩ := answer_calculateSlots date hactive hhour h0 h24
    obtain rfl := Except.ok.inj (hslots.symm.trans hslots')
    obtain rfl := List.singleton_inj.mp (hslot.symm.trans hslot')
    refine ⟨⟨h0, h24⟩, ?_⟩
    simp only [BookingService.slot, hbookable] at hfree
    omega
  · rintro ⟨⟨h0, h24⟩, hbalanced⟩
    obtain ⟨slots, hslots, hslot⟩ := answer_calculateSlots date hactive hhour h0 h24
    refine ⟨slots, _, hslots, hslot, ?_, ?_, ?_, ?_⟩
    · simp only [BookingService.slot, hbookable]
      omega
    · rw [← List.length_pos_iff_exists_mem, hbookable]
      simp only [BookingService.slot, decide_eq_true_eq]
      omega
    · simp only [BookingService.slot]
      omega
    · simp only [BookingService.slot]
      omega

open Concurrent.Scenario (booking oclock)

/-- With one seat of two booked, one can be booked. -/
theorem slotAgrees_booking :
    SlotAgrees BookingApi.settings (.serve (.createBooking booking) :: installation) 1
      Concurrent.Scenario.date 10 (oclock 10) (oclock 11) :=
  (slotAgrees_iff (show ∃ h ∈ _, _ by decide +kernel) (by decide) (by decide) (by decide)).mpr
    ⟨by decide, by decide +kernel⟩

/-- A booked seat that is deleted afterwards is still subtracted from the active seats, so the slot
has no free seat although the other seat can be booked. -/
theorem not_slotAgrees_deletedSeat :
    ¬ SlotAgrees BookingApi.settings
      (.serve (.deleteSeat 1 1) :: .serve (.createBooking booking) :: installation) 1
      Concurrent.Scenario.date 10 (oclock 10) (oclock 11) := by
  rintro ⟨slots, slot, hslots, hslot, hfree, -⟩
  have hslot' : (answer BookingApi.settings
      (.serve (.deleteSeat 1 1) :: .serve (.createBooking booking) :: installation)
      (calculateSlots BookingApi.settings 1 Concurrent.Scenario.date)).map
        (fun slots => slots.filter fun slot => slot.hour = 10)
      = .ok [⟨10, false, 1, 0, 1⟩] := by decide +kernel
  have hbookable : (bookableSeats BookingApi.settings
      (.serve (.deleteSeat 1 1) :: .serve (.createBooking booking) :: installation) 1 (oclock 10)
      (oclock 11)).length = 1 := by decide +kernel
  rw [hslots, Except.map, hslot] at hslot'
  obtain rfl := List.singleton_inj.mp (Except.ok.inj hslot')
  rw [hbookable] at hfree
  exact absurd hfree (by decide)

end BookingApi.Serial
