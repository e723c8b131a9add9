import BookingApi.Api.Effects
import BookingApi.Serial.Operations

/-!
# What an operation may change

The tables that each operation may change (`Operation.tables`), and that it leaves the others as
they are: `halls_serve_handler` and `seats_serve_handler`.
-/

namespace BookingApi.Serial

open Api Async BookingService Concurrent HallService SeatService UserService World

variable {settings : Settings} {w : World} {r : RequestId} {op : Operation}

def Operation.tables : Operation → List TableName
  | .signup .. | .updateUser .. => [.users]
  | .createHall .. | .updateHall .. | .deleteHall .. => [.halls]
  | .createSeat .. | .bulkCreateSeats .. | .deleteSeat .. => [.seats]
  | .createBooking .. | .cancelBooking .. => [.bookings, .bookingSeats]
  | .getBooking .. => []

/-- The change is one of a table of the operation. -/
def Operation.Writes (op : Operation) (x : Write) : Prop := x.table ∈ op.tables

/-- The flushes are confined to some tables. -/
def FlushesIn (tables : List TableName) : ∀ β : Type, Op β → Prop
  | _, .flush statement => Concerns tables statement
  | _, _ => True

/-- **The flushes of an operation** are confined to its tables. -/
theorem flushesIn_handler (settings : Settings) (op : Operation) :
    (op.handler settings).Uses (FlushesIn op.tables) := by
  have hquery : AllowsQueries (FlushesIn op.tables) := fun _ => trivial
  -- the statements of a booking change one of its two tables each
  have widen {β : Type} {table : TableName} {statement : Statement β}
      (h : Concerns [table] statement) (htable : table ∈ [.bookings, .bookingSeats]) :
      Concerns [.bookings, .bookingSeats] statement :=
    h.mono fun t ht => List.mem_singleton.mp ht ▸ htable
  cases op with
  | signup => exact uses_discard (uses_signup hquery (concerns_insertUser ..))
  | updateUser => exact uses_discard (uses_updateUser hquery fun _ => concerns_updateLoadedUser ..)
  | createHall => exact uses_discard (uses_createHall hquery (concerns_insertHall ..))
  | updateHall => exact uses_discard (uses_updateHall hquery fun _ => concerns_updateLoadedHall ..)
  | deleteHall => exact uses_discard (uses_deleteHall hquery fun _ => concerns_deactivateHall ..)
  | createSeat => exact uses_discard (uses_createSeat hquery trivial (concerns_insertSeats ..))
  | bulkCreateSeats =>
    exact uses_discard (uses_bulkCreateSeats hquery trivial (concerns_insertSeats ..))
  | deleteSeat => exact uses_discard (uses_deleteSeat hquery fun _ => concerns_deactivateSeat _)
  | createBooking args =>
    refine uses_discard (uses_withSession hquery fun _ => uses_createBookingRoute hquery
      (fun _ => ?_) (fun _ => ?_) (fun _ => trivial) trivial trivial)
    · exact widen (concerns_insertBooking ..) (List.mem_cons_self ..)
    · exact widen (concerns_insertBookingSeats ..) (by decide)
  | cancelBooking args =>
    refine uses_discard (uses_withSession hquery fun _ =>
      uses_cancelBookingRoute hquery (fun _ => ?_) fun _ => trivial)
    exact widen (concerns_updateBookingStatus ..) (List.mem_cons_self ..)
  | getBooking =>
    exact uses_discard (uses_withSession hquery fun _ => uses_getBookingRoute hquery ..)

/-- **What an operation may change.** -/
theorem touches_handler (settings : Settings) (op : Operation) :
    (op.handler settings).Uses (Touches op.Writes fun _ => True) := by
  refine (flushesIn_handler settings op).mono fun β o ho => ?_
  cases o with
  | flush statement => exact ho.writes
  | redis command => exact fun _ _ => trivial
  | _ => trivial

/-- The changes of an operation. -/
theorem exists_applyAll_serve_handler (settings : Settings) (op : Operation)
    (hidle : w.writesOf r = []) :
    ∃ ws, (∀ x ∈ ws, op.Writes x) ∧
      (serve r (op.handler settings) w).2.db = w.db.applyAll ws :=
  exists_applyAll_serve (touches_handler settings op) hidle

theorem halls_serve_handler (hidle : w.writesOf r = []) (h : .halls ∉ op.tables) :
    (serve r (op.handler settings) w).2.db.halls = w.db.halls := by
  obtain ⟨ws, hws, hdb⟩ := exists_applyAll_serve_handler settings op hidle
  rw [hdb]
  exact Db.halls_applyAll _ fun x hx hx' => h (hx' ▸ hws x hx)

theorem seats_serve_handler (hidle : w.writesOf r = []) (h : .seats ∉ op.tables) :
    (serve r (op.handler settings) w).2.db.seats = w.db.seats := by
  obtain ⟨ws, hws, hdb⟩ := exists_applyAll_serve_handler settings op hidle
  rw [hdb]
  exact Db.seats_applyAll _ fun x hx hx' => h (hx' ▸ hws x hx)

end BookingApi.Serial
