import BookingApi.BookingService.UserBookings
import BookingApi.Serial.Operations

/-!
# The bookings of other users

Two states of the tables agree for a user if they differ in the bookings of other users only
(`AgreeFor`).  The queries behind reading a booking and listing the bookings give the same rows in
both (`Sees`).  Cancelling looks its booking up among all of them, but refuses one of another user
as it refuses one that does not exist (`run_cancelBookingRoute`).  Hence `responses_eq`: what a user
is told does not depend on the bookings of the others, which a cancellation leaves as they are.
-/

namespace BookingApi.Api

open Async BookingService

/-- The states agree on halls, seats and users, and on the bookings of a user with their seats. -/
structure AgreeFor (userId : ℤ) (db db' : Db) : Prop where
  users : db.users = db'.users
  halls : db.halls = db'.halls
  seats : db.seats = db'.seats
  bookings : selectBookingsOf userId db = selectBookingsOf userId db'
  bookingSeats : ∀ b ∈ selectBookingsOf userId db, db.seatsOf b.id = db'.seatsOf b.id

variable {userId bookingId : ℤ} {db db' : Db} {r : RequestId} {w w' : World}

/-! ### Reading -/

/-- Queries that do not tell states apart that agree for the user. -/
def Sees (userId : ℤ) : ∀ β : Type, Op β → Prop
  | _, .execute query => ∀ db db', AgreeFor userId db db' → query db = query db'
  | _, _ => False

theorem sees_execute {β : Type} {query : Db → β}
    (h : ∀ db db', AgreeFor userId db db' → query db = query db') :
    (execute query).Uses (Sees userId) :=
  Program.uses_perform h

/-- A handler that reads what the user may see answers alike. -/
theorem serve_eq_of_sees {α : Type} {p : App α} (hp : p.Uses (Sees userId))
    (hidle : w.writesOf r = []) (hidle' : w'.writesOf r = []) (h : AgreeFor userId w.db w'.db) :
    (serve r p w).1 = (serve r p w').1 := by
  rw [serve_fst, serve_fst]
  have hR : AgreeFor userId (w.view r) (w'.view r) := by
    rwa [World.view_of_writesOf_nil hidle, World.view_of_writesOf_nil hidle']
  refine (hp.run_eq _ (R := fun w w' => AgreeFor userId (w.view r) (w'.view r)) ?_ hR).1
  intro β op s t hop h
  cases op with
  | execute query => exact ⟨congrArg Except.ok (hop _ _ h), h⟩
  | _ => exact hop.elim

/-- The owner's bookings with an id. -/
theorem find?_owned (db : Db) (bookingId userId : ℤ) :
    (db.bookings.rows.find? fun b => b.id = bookingId ∧ b.userId = userId)
      = (selectBookingsOf userId db).find? fun b => b.id = bookingId := by
  rw [selectBookingsOf, List.find?_filter]
  congr 1
  funext b
  by_cases hid : b.id = bookingId <;> by_cases hu : b.userId = userId <;> simp [hid, hu]

theorem sees_buildBookingResponse (b : LoadedBooking) :
    (buildBookingResponse b).Uses (Sees userId) := by
  refine .bind (sees_execute fun db db' h => ?_) fun _ => Program.uses_ofExcept _
  rw [selectSeatsOf, selectSeatsOf, h.seats]

/-- The objects of the session are the user's own. -/
theorem sees_withSession {α : Type} {service : Session → App α}
    (h : ∀ session, (service session).Uses (Sees userId)) :
    (withSession userId service).Uses (Sees userId) := by
  refine .bind (sees_execute fun db db' hagree => ?_) h
  have hbookings : (db.bookings.rows.filter fun b => b.userId = userId)
      = db'.bookings.rows.filter fun b => b.userId = userId := hagree.bookings
  rw [Session.load, Session.load, hagree.users, hbookings]

theorem sees_getBookingRoute (session : Session) (bookingId userId : ℤ) :
    (getBookingRoute session bookingId userId).Uses (Sees userId) := by
  refine .bind (.bind (sees_execute fun db db' h => ?_) fun row => by cases row <;> trivial)
    sees_buildBookingResponse
  have hquery (db : Db) : (db.bookings.rows.find? fun b =>
      b.id = bookingId ∧ (some userId = none ∨ some userId = some b.userId))
        = (selectBookingsOf userId db).find? fun b => b.id = bookingId := by
    rw [← find?_owned]
    congr 1
    funext b
    simp [eq_comm]
  rw [hquery, hquery, ← h.bookings]
  cases hfind : (selectBookingsOf userId db).find? fun b => b.id = bookingId with
  | none => rfl
  | some b =>
    simp only [Option.map_some, h.halls, h.bookingSeats b (List.mem_of_find?_eq_some hfind)]

theorem selectUserBookings_congr (h : AgreeFor userId db db') (session : Session)
    (offset limit : ℤ) : selectUserBookings session userId offset limit db
      = selectUserBookings session userId offset limit db' := by
  unfold selectUserBookings limitOffset
  rw [← h.bookings, ← h.halls]
  split_ifs
  · rfl
  · refine congrArg Except.ok (List.map_congr_left fun b hb => ?_)
    have hmem : b ∈ selectBookingsOf userId db :=
      List.mem_mergeSort.mp (List.mem_of_mem_drop (List.mem_of_mem_take hb))
    rw [h.bookingSeats b hmem]

theorem sees_listBookingsRoute (session : Session) (userId : ℤ) (pagination : PaginationParams) :
    (listBookingsRoute session userId pagination).Uses (Sees userId) := by
  have hitems (bookings : List LoadedBooking) :
      (buildBookingResponses bookings).Uses (Sees userId) := by
    induction bookings with
    | nil => trivial
    | cons b bookings ih =>
      exact .bind (sees_buildBookingResponse b) fun _ => .bind ih fun _ => trivial
  refine .bind (.bind (sees_execute fun db db' h => ?_) fun _ =>
    .bind (sees_execute fun db db' h => selectUserBookings_congr h _ _ _) fun _ =>
      .bind (Program.uses_ofExcept _) fun _ => trivial) fun p => .bind (hitems p.1) fun _ => trivial
  rw [h.bookings]

/-! ### Cancelling -/

/-- **The answer to a cancellation** depends on the owner's bookings only. -/
theorem run_cancelBookingRoute (hidle : w.writesOf r = []) :
    ((cancelBookingRoute (.load userId w.db) bookingId userId).run (World.exec r) w).1
      = match (selectBookingsOf userId w.db).find? fun b => b.id = bookingId with
        | none => .error .bookingNotFound
        | some b =>
          if b.status = .cancelled then .error (.bookingConflictError "Booking already cancelled")
          else .ok () := by
  cases hfind : (selectBookingsOf userId w.db).find? fun b => b.id = bookingId with
  | none =>
    have hnone : ∀ b ∈ w.db.bookings.rows, b.id = bookingId → b.userId ≠ userId := by
      intro b hb hid hu
      have hmem : b ∈ selectBookingsOf userId w.db := List.mem_filter.mpr ⟨hb, decide_eq_true hu⟩
      exact List.find?_eq_none.mp hfind b hmem (decide_eq_true hid)
    rw [cancelBookingRoute, Program.bind_eq, Program.run_bind, cancelBooking, Program.bind_eq,
      Program.run_bind, run_execute, World.view_of_writesOf_nil hidle, selectBookingWithOwner]
    rcases hb : w.db.bookings.find? bookingId with _ | b
    · rfl
    · obtain ⟨hmem, hid⟩ := Table.find?_eq_some_iff.mp hb
      simp only [Option.map_some, Session.booking_load hmem, if_pos (hnone b hmem hid)]
      rfl
  | some b =>
    have hmem := List.mem_of_find?_eq_some hfind
    obtain ⟨hrow, hu⟩ := List.mem_filter.mp hmem
    have hid : b.id = bookingId := by simpa using List.find?_some hfind
    obtain rfl : b.userId = userId := of_decide_eq_true hu
    by_cases hstatus : b.status = .cancelled
    · have hb : w.db.bookings.find? bookingId = some b :=
        Table.find?_eq_some_iff.mpr ⟨hrow, hid⟩
      rw [cancelBookingRoute, Program.bind_eq, Program.run_bind, cancelBooking, Program.bind_eq,
        Program.run_bind, run_execute, World.view_of_writesOf_nil hidle, selectBookingWithOwner, hb]
      simp [hstatus, Session.booking_load hrow]
    · have hconfirmed : b.status = .confirmed := by
        cases hs : b.status with
        | confirmed => rfl
        | cancelled => exact absurd hs hstatus
      have hcancel : Serial.Cancellable ⟨bookingId, b.userId⟩ w.db :=
        ⟨b, hrow, hid, rfl, hconfirmed⟩
      obtain ⟨b', event, hrun⟩ := Serial.run_cancelBooking hidle hcancel
      rw [cancelBookingRoute, Program.bind_eq, Program.run_bind, hrun]
      simp only [if_neg hstatus]
      rfl

/-- A cancellation leaves everything alone but the owner's booking. -/
theorem db_cancelBookingRoute (hidle : w.writesOf r = []) (bookingId userId : ℤ) :
    (serve r (CancelArgs.mk bookingId userId).program w).2.db = w.db ∨
      (∃ b ∈ selectBookingsOf userId w.db, b.id = bookingId) ∧
        (serve r (CancelArgs.mk bookingId userId).program w).2.db
          = (Write.updateBooking bookingId .cancelled).apply w.db := by
  rcases Serial.serve_cancelBooking_cases ⟨bookingId, userId⟩ hidle with
    ⟨e, -, hdb, -⟩ | ⟨⟨b, hb, hid, hu, -⟩, -, hdb, -⟩
  · exact .inl hdb
  · exact .inr ⟨⟨b, List.mem_filter.mpr ⟨hb, decide_eq_true hu⟩, hid⟩, hdb⟩

/-- The bookings of the other users stay as they are. -/
theorem mem_bookings_cancelBookingRoute (hidle : w.writesOf r = []) {b : Booking}
    (hb : b.userId ≠ userId) :
    b ∈ (serve r (CancelArgs.mk bookingId userId).program w).2.db.bookings.rows ↔
      b ∈ w.db.bookings.rows := by
  rcases db_cancelBookingRoute hidle bookingId userId with hdb | ⟨⟨own, hown, hid⟩, hdb⟩ <;>
    rw [hdb]
  obtain ⟨hmem, hu⟩ := List.mem_filter.mp hown
  have hu' : own.userId = userId := of_decide_eq_true hu
  have hother {a : Booking} (ha : a ∈ w.db.bookings.rows) (hne : a.userId ≠ userId) :
      ¬ Keyed.key a = bookingId := by
    intro hkey
    obtain rfl := Table.eq_of_key_eq ha hmem (hkey.trans hid.symm)
    exact hne hu'
  simp only [Write.apply]
  rw [Table.mem_modify]
  constructor
  · rintro ⟨a, ha, rfl⟩
    have hne : a.userId ≠ userId := by
      split_ifs at hb <;> exact hb
    rwa [if_neg (hother ha hne)]
  · exact fun h => ⟨b, h, (if_neg (hother h hb)).symm⟩

/-- **Non-interference.**  In two worlds that agree for a user the user gets the same answers,
errors included, about a booking, the list of bookings and a cancellation; and a cancellation
changes nothing but a booking of the user. -/
theorem responses_eq (hidle : w.writesOf r = []) (hidle' : w'.writesOf r = [])
    (h : AgreeFor userId w.db w'.db) :
    (∀ bookingId, (serve r (showBooking bookingId userId) w).1
      = (serve r (showBooking bookingId userId) w').1) ∧
    (∀ pagination, (serve r (showBookings userId pagination) w).1
      = (serve r (showBookings userId pagination) w').1) ∧
    (∀ bookingId, (serve r (CancelArgs.mk bookingId userId).program w).1
      = (serve r (CancelArgs.mk bookingId userId).program w').1) ∧
    ∀ bookingId,
      (∀ b : Booking, b.userId ≠ userId →
        (b ∈ (serve r (CancelArgs.mk bookingId userId).program w).2.db.bookings.rows ↔
          b ∈ w.db.bookings.rows)) ∧
      (serve r (CancelArgs.mk bookingId userId).program w).2.db
        = { w.db with
            bookings := (serve r (CancelArgs.mk bookingId userId).program w).2.db.bookings } := by
  refine ⟨fun bookingId => ?_, fun pagination => ?_, fun bookingId => ?_, fun bookingId => ⟨?_, ?_⟩⟩
  · exact serve_eq_of_sees (sees_withSession fun session =>
      sees_getBookingRoute session bookingId userId) hidle hidle' h
  · exact serve_eq_of_sees (sees_withSession fun session =>
      sees_listBookingsRoute session userId pagination) hidle hidle' h
  · rw [CancelArgs.program, serve_withSession hidle, serve_withSession hidle', serve_fst, serve_fst,
      run_cancelBookingRoute hidle, run_cancelBookingRoute hidle', h.bookings]
  · exact fun b hb => mem_bookings_cancelBookingRoute hidle hb
  · rcases db_cancelBookingRoute hidle bookingId userId with hdb | ⟨-, hdb⟩ <;> rw [hdb]
    rfl

namespace Scenario

/-- A booking of the second user. -/
def othersBooking : Booking := ⟨5, 2, 1, 0, 3600000000, 1000, .confirmed, 0⟩

/-- A world with nothing but that booking. -/
def othersWorld : World :=
  { World.initial with db := Db.empty.applyAll [.insertBooking othersBooking] }

end Scenario

open Scenario in
/-- The first user cannot tell the booking of the second from none. -/
theorem responses_eq_othersBooking :
    (serve 0 (CancelArgs.mk 5 1).program othersWorld).1
        = (serve 0 (CancelArgs.mk 5 1).program .initial).1 ∧
      othersBooking ∈ (serve 0 (CancelArgs.mk 5 1).program othersWorld).2.db.bookings.rows := by
  have hagree : AgreeFor 1 othersWorld.db World.initial.db :=
    ⟨rfl, rfl, rfl, by decide +kernel, fun b hb => absurd hb (by
      rw [show selectBookingsOf 1 othersWorld.db = [] by decide +kernel]
      exact List.not_mem_nil)⟩
  obtain ⟨-, -, hcancel, hkept⟩ := responses_eq (r := 0) rfl rfl hagree
  refine ⟨hcancel 5, ((hkept 5).1 othersBooking ?_).mpr ?_⟩
  · decide
  · decide +kernel

end BookingApi.Api
