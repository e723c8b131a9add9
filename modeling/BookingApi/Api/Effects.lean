import BookingApi.Api.Basic

/-!
# What a route may change

For each route the row changes that it may make (`Endpoint.writes`) and the keys in Redis that it
may change (`Endpoint.keys`), whoever calls it: `touches_handler`.  It is an instance of
`uses_handler`, which says for any predicate what it has to hold of.
-/

namespace BookingApi.Api

open Async AuthService BookingService HallService SeatService UserService

/-! ### The operations of a route -/

section

variable {security : Security} {settings : Settings} {now : Instant}
  {P : ∀ β : Type, Op β → Prop}

/-- The predicate holds of the operations of a route that are not queries. -/
def Endpoint.Allows (security : Security) (settings : Settings) (P : ∀ β : Type, Op β → Prop) :
    Endpoint → Prop
  | .signup salt data =>
    P _ (.flush (insertUser data.email (security.hash salt data.password) .user))
  | .updateUser userId data => ∀ user, P _ (.flush (updateLoadedUser userId data user))
  | .createHall data => P _ (.flush (insertHall data.name data.capacity data.hourlyRate))
  | .updateHall hallId data => ∀ hall, P _ (.flush (updateLoadedHall hallId data hall))
  | .deleteHall hallId => ∀ hall, P _ (.flush (deactivateHall hallId hall))
  | .createSeat hallId data =>
    P _ .rollback ∧ P _ (.flush (insertSeats hallId [(data.row, data.number)]))
  | .bulkCreateSeats hallId data =>
    P _ .rollback ∧ P _ (.flush (insertSeats hallId (seatGrid data.rows data.seatsPerRow)))
  | .deleteSeat .. => ∀ seat, P _ (.flush (deactivateSeat seat))
  | .createBooking data token =>
    (∀ userId price, P _ (.flush (insertBooking userId data.hallId data.startTime.instant
      data.endTime.instant price .confirmed))) ∧
    (∀ bookingId, P _ (.flush (insertBookingSeats bookingId data.seatIds))) ∧
    (∀ event, P _ (.send event)) ∧
    P _ (.redis (.setNx (lockKey data.hallId data.startTime) token.text
      settings.redisLockTimeout)) ∧
    P _ (.redis (.evalRelease (lockKey data.hallId data.startTime) token.text))
  | .cancelBooking _ =>
    (∀ id, P _ (.flush (updateBookingStatus id .cancelled))) ∧ ∀ event, P _ (.send event)
  | .getAvailability hallId date => P _ (.redis (.get (cacheKey hallId date))) ∧
    ∀ items, P _ (.redis (.setex (cacheKey hallId date) cacheTtl (Json.dumps (.arr items))))
  | _ => True

/-- **The operations of a route** are its queries and those of `Endpoint.Allows`. -/
theorem uses_handler (hP : AllowsQueries P) {request : Request}
    (h : request.endpoint.Allows security settings P) :
    (request.handler security settings now).Uses P := by
  obtain ⟨auth, endpoint⟩ := request
  cases endpoint with rw [Request.handler]
  | signup => exact uses_asAnyone _ (uses_signup hP h)
  | login => exact uses_asAnyone _ (uses_login hP ..)
  | getCurrentUserProfile => exact uses_asUser hP fun _ _ => by trivial
  | listUsers => exact uses_asAdmin hP (uses_listUsersRoute hP _)
  | getUser => exact uses_asAdmin hP (uses_getUserRoute hP _)
  | updateUser => exact uses_asAdmin hP (uses_updateUser hP h)
  | listHalls => exact uses_asUser hP fun _ _ => uses_execute hP _
  | getHall => exact uses_asUser hP fun _ _ => uses_getHall hP _
  | createHall => exact uses_asAdmin hP (uses_createHall hP h)
  | updateHall => exact uses_asAdmin hP (uses_updateHall hP h)
  | deleteHall => exact uses_asAdmin hP (uses_deleteHall hP h)
  | listSeats => exact uses_asUser hP fun _ _ => uses_listSeats hP _
  | createSeat => exact uses_asAdmin hP (uses_createSeat hP h.1 h.2)
  | bulkCreateSeats => exact uses_asAdmin hP (uses_bulkCreateSeats hP h.1 h.2)
  | deleteSeat => exact uses_asAdmin hP (uses_deleteSeat hP h)
  | listBookings => exact uses_asUser hP fun _ _ => uses_listBookingsRoute hP ..
  | getBooking => exact uses_asUser hP fun _ _ => uses_getBookingRoute hP ..
  | createBooking =>
    obtain ⟨hbooking, hseats, hsend, hacquire, hrelease⟩ := h
    exact uses_asUser hP fun user _ =>
      uses_createBookingRoute hP (hbooking user.id) hseats hsend hacquire hrelease
  | cancelBooking => exact uses_asUser hP fun _ _ => uses_cancelBookingRoute hP h.1 h.2
  | getAvailability => exact uses_asUser hP fun _ _ => uses_getAvailabilityRoute hP h.1 h.2

end

/-! ### Statements -/

section

variable {writes : Write → Prop} {keys : String → Prop} {β : Type}

/-- A statement that is confined to tables whose changes are allowed. -/
theorem touches_of_concerns {tables : List TableName} {statement : Statement β}
    (h : Concerns tables statement) (hwrites : ∀ x : Write, x.table ∈ tables → writes x) :
    Touches writes keys _ (.flush statement) :=
  fun now seqs db b ws hs x hx => hwrites x (h.writes now seqs db b ws hs x hx)

/-- The insertion of a new active user. -/
def NewUser (role : UserRole) (hashedPassword : String) (x : Write) : Prop :=
  ∃ u, x = .insertUser u ∧ u.role = role ∧ u.hashedPassword = hashedPassword

def UpdatesUser (x : Write) : Prop := ∃ id p, x = .updateUser id p

theorem touches_insertUser (email hashedPassword : String) (role : UserRole) :
    Touches (NewUser role hashedPassword) keys _ (.flush (insertUser email hashedPassword role)) :=
  fun _ _ _ _ _ h _ hx => mem_insertUser h hx

theorem touches_updateLoadedUser (userId : ℤ) (data : UserUpdate) (user : User) :
    Touches UpdatesUser keys _ (.flush (updateLoadedUser userId data user)) :=
  fun _ _ _ _ _ h _ hx => mem_updateLoadedUser h hx

/-- A change of halls. -/
def OfHalls (x : Write) : Prop := x.table = .halls

/-- A change of seats. -/
def OfSeats (x : Write) : Prop := x.table = .seats

/-- A change of bookings or of their seats. -/
def OfBookings (x : Write) : Prop := x.table = .bookings ∨ x.table = .bookingSeats

theorem touches_createHall (data : HallCreate)
    (hwrites : ∀ hall, storeNumeric data.hourlyRate = .ok hall.hourlyRate →
      writes (.insertHall hall)) :
    (HallService.createHall data).Uses (Touches writes keys) := by
  refine uses_createHall (fun _ => trivial) fun now seqs db b ws h x hx => ?_
  obtain ⟨hall, rfl, hrate⟩ := mem_insertHall h hx
  exact hwrites hall hrate

theorem touches_updateHall (hallId : ℤ) (data : HallUpdate)
    (hwrites : ∀ hall patch, hallPatch hall data = .ok patch → writes (.updateHall hallId patch)) :
    (HallService.updateHall hallId data).Uses (Touches writes keys) := by
  refine uses_updateHall (fun _ => trivial) fun hall now seqs db b ws h x hx => ?_
  obtain ⟨patch, hpatch, rfl⟩ := mem_updateLoadedHall h hx
  exact hwrites hall patch hpatch

theorem touches_deleteHall (hallId : ℤ)
    (hwrites : writes (.updateHall hallId ⟨none, none, none, some false⟩)) :
    (HallService.deleteHall hallId).Uses (Touches writes keys) := by
  refine uses_deleteHall (fun _ => trivial) fun hall now seqs db b ws h x hx => ?_
  rw [mem_deactivateHall h hx]
  exact hwrites

theorem touches_deleteSeat (hallId seatId : ℤ) (hwrites : ∀ id, writes (.updateSeat id false)) :
    (SeatService.deleteSeat hallId seatId).Uses (Touches writes keys) := by
  refine uses_deleteSeat (fun _ => trivial) fun seat now seqs db b ws h x hx => ?_
  rw [mem_deactivateSeat h hx]
  exact hwrites _

/-- The keys that a request for a booking may change: its lock. -/
def LockOf (hallId : ℤ) (startTime : DateTime) (key : String) : Prop :=
  key = lockKey hallId startTime

/-- The keys that a request for slots may change. -/
def SlotsOf (hallId : ℤ) (date : Date) (key : String) : Prop := key = cacheKey hallId date

end

/-! ### Routes -/

/-- The row changes that a route may make. -/
def Endpoint.writes (security : Security) : Endpoint → Write → Prop
  | .signup salt data => NewUser .user (security.hash salt data.password)
  | .updateUser .. => UpdatesUser
  | .createHall _ | .updateHall .. | .deleteHall _ => OfHalls
  | .createSeat .. | .bulkCreateSeats .. | .deleteSeat .. => OfSeats
  | .createBooking .. | .cancelBooking _ => OfBookings
  | _ => fun _ => False

/-- The keys that a route may change. -/
def Endpoint.keys : Endpoint → String → Prop
  | .createBooking data _ => LockOf data.hallId data.startTime
  | .getAvailability hallId date => SlotsOf hallId date
  | _ => fun _ => False

/-- **What a route may change.** -/
theorem touches_handler (security : Security) (settings : Settings) (now : Instant)
    (request : Request) : (request.handler security settings now).Uses
      (Touches (request.endpoint.writes security) request.endpoint.keys) := by
  refine uses_handler (fun _ => trivial) ?_
  obtain ⟨auth, endpoint⟩ := request
  cases endpoint with
  | signup =>
    rw [Endpoint.Allows]
    exact touches_insertUser ..
  | updateUser => exact touches_updateLoadedUser _ _
  | createHall =>
    rw [Endpoint.Allows]
    exact touches_of_concerns (concerns_insertHall ..) fun _ => List.mem_singleton.mp
  | updateHall =>
    exact fun _ => touches_of_concerns (concerns_updateLoadedHall ..) fun _ => List.mem_singleton.mp
  | deleteHall =>
    exact fun _ => touches_of_concerns (concerns_deactivateHall ..) fun _ => List.mem_singleton.mp
  | createSeat | bulkCreateSeats =>
    exact ⟨trivial, touches_of_concerns (concerns_insertSeats ..) fun _ => List.mem_singleton.mp⟩
  | deleteSeat =>
    exact fun _ => touches_of_concerns (concerns_deactivateSeat _) fun _ => List.mem_singleton.mp
  | createBooking data =>
    exact ⟨fun _ _ => touches_of_concerns (concerns_insertBooking ..) fun _ hx =>
        .inl (List.mem_singleton.mp hx),
      fun _ => touches_of_concerns (concerns_insertBookingSeats ..) fun _ hx =>
        .inr (List.mem_singleton.mp hx),
      fun _ => trivial, fun _ hkey => (Option.some.inj hkey).symm,
      fun _ hkey => (Option.some.inj hkey).symm⟩
  | cancelBooking =>
    exact ⟨fun _ => touches_of_concerns (concerns_updateBookingStatus ..) fun _ hx =>
      .inl (List.mem_singleton.mp hx), fun _ => trivial⟩
  | getAvailability =>
    exact ⟨fun _ hkey => absurd hkey (by simp [RedisCommand.target]),
      fun _ _ hkey => (Option.some.inj hkey).symm⟩
  | _ => trivial

/-- What the script may change. -/
theorem touches_createAdmin (hashPassword : String → String) (email password : String) :
    (createAdmin hashPassword email password).Uses
      (Touches (fun x => NewUser .admin (hashPassword password) x ∨ UpdatesUser x)
        fun _ => False) := by
  refine uses_createAdmin (fun _ => trivial) trivial trivial
    (fun user now seqs db b ws h x hx => .inr ?_)
    fun now seqs db b ws h x hx => .inl (mem_insertUser h hx)
  obtain ⟨-, rfl⟩ := Prod.mk.inj (Except.ok.inj h)
  exact mem_updateUserRow hx

end BookingApi.Api
