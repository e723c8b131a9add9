import BookingApi.BookingService.Response
import BookingApi.Serial.Occupancy

/-!
# Bookings are durable records

Every move keeps the row of a booking but for its status, its seats, and the places of all seats
(`find?_bookings_cons`, `seatsOf_cons`, `grows_cons`).  So `GET /bookings/:id` of the owner always
succeeds and reports the booking as it was created, and only the cancellation by the owner changes
its status (`booking_durable`).
-/

namespace BookingApi.Serial

open Async BookingService Concurrent World

variable {settings : Settings} {w : World} {r : RequestId} {moves : List Move}

/-! ### What a move keeps -/

theorem grows_serve {α : Type} (p : App α) (w : World) : w.db.Grows (serve r p w).2.db := by
  have huses : (getDb p).Uses fun _ _ => True := Program.uses_of_forall (fun _ _ => trivial) _
  exact huses.run_rel _ (R := fun w w' => w.db.Grows w'.db) (fun w => .refl w.db) .trans
    (fun op w _ => (untouched_exec (Nat.succ_ne_self r)).grows) w

theorem grows_cons (move : Move) :
    (run settings moves).db.Grows (run settings (move :: moves)).db := by
  cases move with
  | serve op => exact grows_serve _ _
  | env e => cases e <;> exact .refl _

/-- No row is ever lost. -/
theorem grows_append (later : List Move) :
    (run settings moves).db.Grows (run settings (later ++ moves)).db := by
  induction later with
  | nil => exact .refl _
  | cons move later ih => exact ih.trans (grows_cons move)

/-- A booking keeps its seats. -/
theorem seatsOf_cons (move : Move) {b : Booking} (hb : b ∈ (run settings moves).db.bookings.rows) :
    (run settings (move :: moves)).db.seatsOf b.id = (run settings moves).db.seatsOf b.id := by
  cases moveStep moves move with
  | created _ _ _ hdb => rw [hdb, seatsOf_newWrites (sound_run moves) _ _ hb]
  | cancelled _ _ hdb =>
    rw [hdb]
    rfl
  | kept _ _ hs => rw [Db.seatsOf, hs, Db.seatsOf]

/-- A booking keeps its row, or its owner cancels it. -/
theorem find?_bookings_cons (move : Move) {id : ℤ} {b : Booking}
    (hb : (run settings moves).db.bookings.find? id = some b) :
    (run settings (move :: moves)).db.bookings.find? id = some b ∨
      b.status = .confirmed ∧ move = .serve (.cancelBooking ⟨id, b.userId⟩) ∧
        (run settings (move :: moves)).db.bookings.find? id
          = some { b with status := .cancelled } := by
  obtain ⟨hmem, hid⟩ := Table.find?_eq_some_iff.mp hb
  cases moveStep moves move with
  | @created args hall user a _ _ _ hdb =>
    refine .inl (hdb ▸ Table.find?_eq_some_iff.mpr ⟨?_, hid⟩)
    rw [(applyAll_newWrites (sound_run moves) args hall).1]
    exact List.mem_append_left _ hmem
  | @cancelled args hc _ hdb =>
    obtain ⟨b', hb', hid', huser, hs⟩ := hc
    have hfind : (run settings (.serve (.cancelBooking args) :: moves)).db.bookings.find? id
        = some (if Keyed.key b = args.bookingId then { b with status := .cancelled } else b) := by
      rw [hdb, Write.apply, Table.find?_modify, hb, Option.map_some]
    by_cases hne : id = args.bookingId
    · -- the request names this booking, and has found it confirmed and its user's
      obtain rfl : b = b' := Table.eq_of_key_eq hmem hb' (hid.trans (hne.trans hid'.symm))
      rw [if_pos (hid.trans hne)] at hfind
      exact .inr ⟨hs, by rw [huser, hne], hfind⟩
    · rw [if_neg fun h => hne (hid.symm.trans h)] at hfind
      exact .inl hfind
  | kept _ hb' _ => exact .inl (hb' ▸ hb)

/-- The record of a booking in the tables: its terms and its seats. -/
theorem record_append (later : List Move) {id : ℤ} {b : Booking}
    (hb : (run settings moves).db.bookings.find? id = some b) :
    ∃ b', (run settings (later ++ moves)).db.bookings.find? id = some b' ∧ b'.terms = b.terms ∧
      (run settings (later ++ moves)).db.seatsOf id = (run settings moves).db.seatsOf id := by
  induction later with
  | nil => exact ⟨b, hb, rfl, rfl⟩
  | cons move later ih =>
    obtain ⟨b', hb', hterms, hseats⟩ := ih
    obtain ⟨hmem, hid⟩ := Table.find?_eq_some_iff.mp hb'
    obtain rfl : b'.id = id := hid
    have hseats' := (seatsOf_cons move hmem).trans hseats
    rcases find?_bookings_cons move hb' with h | ⟨-, -, h⟩
    · exact ⟨b', h, hterms, hseats'⟩
    · exact ⟨_, h, hterms, hseats'⟩

/-! ### Reading a booking -/

/-- The answer to the owner. -/
theorem serve_showBooking (hidle : w.writesOf r = []) {b : Booking}
    (hb : w.db.bookings.find? b.id = some b) {a : BookingResponse}
    (ha : bookingResponse ⟨b, w.db.halls.find? b.hallId, w.db.seatsOf b.id⟩
      (selectSeatsOf ⟨b, w.db.halls.find? b.hallId, w.db.seatsOf b.id⟩ w.db) = .ok a) :
    (serve r (showBooking b.id b.userId) w).1 = .ok a := by
  have hmem := (Table.find?_eq_some_iff.mp hb).1
  have hfind : (w.db.bookings.rows.find? fun b' =>
      b'.id = b.id ∧ (some b.userId = none ∨ some b.userId = some b'.userId)) = some b := by
    obtain ⟨b', hb'⟩ := Option.isSome_iff_exists.mp (List.find?_isSome.mpr
      ⟨b, hmem, decide_eq_true ⟨rfl, .inr rfl⟩⟩ :
        (w.db.bookings.rows.find? fun b' =>
          b'.id = b.id ∧ (some b.userId = none ∨ some b.userId = some b'.userId)).isSome)
    have hp : b'.id = b.id ∧ b.userId = b'.userId := by simpa using List.find?_some hb'
    rw [hb', Table.eq_of_key_eq (List.mem_of_find?_eq_some hb') hmem hp.1]
  have hget : (getBookingById (.load b.userId w.db) b.id (some b.userId)).run (World.exec r) w
      = (.ok ⟨b, w.db.halls.find? b.hallId, w.db.seatsOf b.id⟩, w) := by
    rw [getBookingById, Program.bind_eq, run_bind_ok (run_execute _ _ _),
      view_of_writesOf_nil hidle, hfind]
    simp only [Option.map_some, Session.booking_load hmem]
    rfl
  rw [showBooking, serve_withSession hidle, serve_eq, getBookingRoute, Program.bind_eq,
    run_bind_ok hget, buildBookingResponse, Program.bind_eq, run_bind_ok (run_execute _ _ _),
    view_of_writesOf_nil hidle, ha]
  rfl

/-- The booking is in the tables, and the answer for some hall row says what they say. -/
def Recorded (db : Db) (b : Booking) (a : BookingResponse) : Prop :=
  db.bookings.find? a.id = some b ∧ ∃ hall,
    bookingResponse ⟨b, hall, db.seatsOf a.id⟩ (selectSeatsOf ⟨b, hall, db.seatsOf a.id⟩ db) = .ok a

/-- The answer to a request that creates a booking is recorded. -/
theorem recorded_of_created {args : CreateArgs} {a : BookingResponse}
    (ha : answer settings moves (args.program settings) = .ok a) :
    ∃ b, Recorded (run settings (.serve (.createBooking args) :: moves)).db b a ∧
      b.userId = args.userId ∧ b.status = .confirmed := by
  cases moveStep moves (.serve (.createBooking args)) with
  | @created _ hall user a' hp hres ha' hdb =>
    obtain rfl : a' = a := Except.ok.inj (hres.symm.trans ha)
    obtain ⟨hrows, hseats⟩ := applyAll_newWrites (sound_run moves) args hall
    refine ⟨newBooking args hall (run settings moves), ⟨?_, some hall, ?_⟩, rfl, rfl⟩
    · rw [hdb, id_of_bookingResponse ha', Table.find?_eq_some_iff, loaded, hrows]
      exact ⟨List.mem_append_right _ (List.mem_singleton_self _), rfl⟩
    · rw [hdb] at ha' ⊢
      rw [id_of_bookingResponse ha', loaded, hseats]
      exact ha'
  | kept hnot => exact absurd ⟨a, ha⟩ hnot

/-- It repeats the request, and gives the places of the seats. -/
theorem created_spec {args : CreateArgs} {a : BookingResponse}
    (ha : answer settings moves (args.program settings) = .ok a) :
    a.userId = args.userId ∧ a.hallId = args.hallId ∧ a.startTime = args.startTime.instant ∧
      a.endTime = args.endTime.instant ∧ a.status = .confirmed ∧
      a.seats.map BookingSeatResponse.id = args.seatIds ∧
      ∀ item ∈ a.seats, ∃ s ∈ (run settings moves).db.seats.rows,
        s.id = item.id ∧ s.row = item.row ∧ s.number = item.number := by
  cases moveStep moves (.serve (.createBooking args)) with
  | @created _ hall user a' hp hres ha' hdb =>
    obtain rfl : a' = a := Except.ok.inj (hres.symm.trans ha)
    rw [hdb] at ha'
    obtain ⟨items, hitems, rfl⟩ := bookingResponse_eq_ok ha'
    obtain ⟨hids, hplaces⟩ := seatResponses_spec hitems
    refine ⟨rfl, rfl, rfl, rfl, rfl, hids.trans (map_seatId_bookingSeatRows ..), ?_⟩
    intro item hitem
    obtain ⟨s, hs, hplace⟩ := hplaces item hitem
    rw [selectSeatsOf, Db.seats_applyAll _ (by simp [newWrites, Write.table])] at hs
    exact ⟨s, List.mem_of_mem_filter hs, hplace⟩
  | kept hnot => exact absurd ⟨a, ha⟩ hnot

/-- A recorded answer is reported to the owner in every later state, up to the name of the hall and
the status. -/
theorem read_of_recorded (later : List Move) {b : Booking} {a : BookingResponse}
    (h : Recorded (run settings moves).db b a) :
    ∃ b' hallName, (run settings (later ++ moves)).db.bookings.find? a.id = some b' ∧
      b'.userId = b.userId ∧
      answer settings (later ++ moves) (showBooking a.id b.userId)
        = .ok { a with hallName, status := b'.status } := by
  obtain ⟨hb, hall, ha⟩ := h
  obtain ⟨b', hb', hterms, hseats⟩ := record_append later hb
  have hid : b'.id = a.id := (Table.find?_eq_some_iff.mp hb').2
  have huser : b'.userId = b.userId := congrArg (·.2.1) hterms
  have ha' := bookingResponse_of_grows ⟨b',
    (run settings (later ++ moves)).db.halls.find? b'.hallId,
    (run settings (later ++ moves)).db.seatsOf b'.id⟩ (grows_append later)
    ((congrArg _ hid).trans hseats) hterms ha
  have hread := serve_showBooking (writesOf_run (later ++ moves) (later ++ moves).length)
    (hid.symm ▸ hb') ha'
  rw [hid, huser] at hread
  exact ⟨b', _, hb', huser, hread⟩

/-- **Bookings are durable records.**  The answer to a request that creates a booking repeats the
request and gives the places of the seats.  After every later serial run the owner can read the
booking and sees the same answer, up to the name of the hall and the status.  The status is
confirmed at first, and a move that changes it is the cancellation by the owner. -/
theorem booking_durable (later earlier : List Move) {args : CreateArgs} {a : BookingResponse}
    (ha : answer settings earlier (args.program settings) = .ok a) :
    (a.userId = args.userId ∧ a.hallId = args.hallId ∧ a.startTime = args.startTime.instant ∧
      a.endTime = args.endTime.instant ∧ a.status = .confirmed ∧
      a.seats.map BookingSeatResponse.id = args.seatIds ∧
      ∀ item ∈ a.seats, ∃ s ∈ (run settings earlier).db.seats.rows,
        s.id = item.id ∧ s.row = item.row ∧ s.number = item.number) ∧
    ∃ a', answer settings (later ++ .serve (.createBooking args) :: earlier)
        (showBooking a.id args.userId) = .ok a' ∧
      a' = { a with hallName := a'.hallName, status := a'.status } ∧
      (later = [] → a'.status = .confirmed) ∧
      ∀ move, ∃ a'', answer settings (move :: (later ++ .serve (.createBooking args) :: earlier))
          (showBooking a.id args.userId) = .ok a'' ∧
        (a''.status = a'.status ∨ a'.status = .confirmed ∧ a''.status = .cancelled ∧
          move = .serve (.cancelBooking ⟨a.id, args.userId⟩)) := by
  obtain ⟨b, hrec, huser, hstatus⟩ := recorded_of_created ha
  refine ⟨created_spec ha, ?_⟩
  obtain ⟨b', hallName, hb', huser', hread⟩ := read_of_recorded later hrec
  refine ⟨_, huser ▸ hread, rfl, ?_, fun move => ?_⟩
  · rintro rfl
    obtain rfl : b = b' := Option.some.inj (hrec.1.symm.trans hb')
    exact hstatus
  · obtain ⟨b'', hallName', hb'', -, hread'⟩ := read_of_recorded (move :: later) hrec
    refine ⟨_, huser ▸ hread', ?_⟩
    rcases find?_bookings_cons move hb' with h | ⟨hs, hmove, h⟩
    · obtain rfl : b'' = b' := Option.some.inj (hb''.symm.trans h)
      exact .inl rfl
    · obtain rfl := Option.some.inj (hb''.symm.trans h)
      exact .inr ⟨hs, rfl, by rw [hmove, huser', huser]⟩

open Concurrent.Scenario (booking)

/-- Deleting the seat and the hall does not touch the record. -/
theorem booking_durable_deleted :
    ∃ a', answer BookingApi.settings (.serve (.deleteHall 1) :: .serve (.deleteSeat 1 1)
        :: .serve (.createBooking booking) :: installation) (showBooking 1 1) = .ok a' ∧
      a'.seats = [⟨1, 1, 1⟩] ∧ a'.totalPrice = 2000 := by
  obtain ⟨-, a', hread, hsame, -⟩ := booking_durable
    [.serve (.deleteHall 1), .serve (.deleteSeat 1 1)] installation answer_booking
  exact ⟨a', hread, by rw [hsame]; rfl, by rw [hsame]; rfl⟩

end BookingApi.Serial
