import BookingApi.DateTime.Basic
import BookingApi.Table.Basic

/-!
# The database

The five tables of `app/models` with the columns that the services read, and the row changes that
an `INSERT` or an `UPDATE` makes.  A timestamp is an instant, and a `NUMERIC(10, 2)` column is its
number of hundredths.  No row is ever deleted: the API only clears `is_active` and sets `status`.
-/

namespace BookingApi

inductive UserRole
  | user
  | admin
deriving DecidableEq

inductive BookingStatus
  | confirmed
  | cancelled
deriving DecidableEq

structure User where
  id : ℤ
  email : String
  hashedPassword : String
  role : UserRole
  isActive : Bool
  createdAt : Instant
deriving DecidableEq

structure Hall where
  id : ℤ
  name : String
  capacity : ℤ
  /-- In hundredths. -/
  hourlyRate : ℤ
  isActive : Bool
  createdAt : Instant
deriving DecidableEq

structure Seat where
  id : ℤ
  hallId : ℤ
  row : ℤ
  number : ℤ
  isActive : Bool
deriving DecidableEq

structure Booking where
  id : ℤ
  userId : ℤ
  hallId : ℤ
  startTime : Instant
  endTime : Instant
  /-- In hundredths. -/
  totalPrice : ℤ
  status : BookingStatus
  createdAt : Instant
deriving DecidableEq

structure BookingSeat where
  id : ℤ
  bookingId : ℤ
  seatId : ℤ
deriving DecidableEq

/-- What identifies a seat; the rest of the row is its activity. -/
def Seat.place (s : Seat) : ℤ × ℤ × ℤ × ℤ := (s.id, s.hallId, s.row, s.number)

/-- A booking without its status. -/
def Booking.terms (b : Booking) : ℤ × ℤ × ℤ × Instant × Instant × ℤ × Instant :=
  (b.id, b.userId, b.hallId, b.startTime, b.endTime, b.totalPrice, b.createdAt)

theorem Seat.id_eq_of_place {s s' : Seat} (h : s.place = s'.place) : s.id = s'.id :=
  congrArg Prod.fst h

theorem Seat.hallId_eq_of_place {s s' : Seat} (h : s.place = s'.place) : s.hallId = s'.hallId :=
  congrArg (·.2.1) h

theorem Booking.id_eq_of_terms {b b' : Booking} (h : b.terms = b'.terms) : b.id = b'.id :=
  congrArg Prod.fst h

theorem Booking.hallId_eq_of_terms {b b' : Booking} (h : b.terms = b'.terms) :
    b.hallId = b'.hallId :=
  congrArg (·.2.2.1) h

instance : Keyed User ℤ := ⟨User.id⟩
instance : Keyed Hall ℤ := ⟨Hall.id⟩
instance : Keyed Seat ℤ := ⟨Seat.id⟩
instance : Keyed Booking ℤ := ⟨Booking.id⟩
instance : Keyed BookingSeat ℤ := ⟨BookingSeat.id⟩

@[simp] theorem key_user (u : User) : Keyed.key u = u.id := rfl
@[simp] theorem key_hall (h : Hall) : Keyed.key h = h.id := rfl
@[simp] theorem key_seat (s : Seat) : Keyed.key s = s.id := rfl
@[simp] theorem key_booking (b : Booking) : Keyed.key b = b.id := rfl
@[simp] theorem key_bookingSeat (bs : BookingSeat) : Keyed.key bs = bs.id := rfl

structure Db where
  users : Table User
  halls : Table Hall
  seats : Table Seat
  bookings : Table Booking
  bookingSeats : Table BookingSeat

namespace Db

def empty : Db := ⟨.empty, .empty, .empty, .empty, .empty⟩

/-- The seats attached to a booking. -/
def seatsOf (db : Db) (bookingId : ℤ) : List BookingSeat :=
  db.bookingSeats.rows.filter fun bs => bs.bookingId = bookingId

end Db

/-! ### Row changes -/

/-- The columns that an `UPDATE users` sets. -/
structure UserPatch where
  email : Option String
  role : Option UserRole
  isActive : Option Bool
deriving DecidableEq

/-- The columns that an `UPDATE halls` sets; the rate is in hundredths. -/
structure HallPatch where
  name : Option String
  capacity : Option ℤ
  hourlyRate : Option ℤ
  isActive : Option Bool
deriving DecidableEq

def User.patch (u : User) (p : UserPatch) : User :=
  { u with email := p.email.getD u.email, role := p.role.getD u.role,
           isActive := p.isActive.getD u.isActive }

def Hall.patch (h : Hall) (p : HallPatch) : Hall :=
  { h with name := p.name.getD h.name, capacity := p.capacity.getD h.capacity,
           hourlyRate := p.hourlyRate.getD h.hourlyRate, isActive := p.isActive.getD h.isActive }

/-- One row inserted or updated. -/
inductive Write
  | insertUser (u : User)
  | insertHall (h : Hall)
  | insertSeat (s : Seat)
  | insertBooking (b : Booking)
  | insertBookingSeat (bs : BookingSeat)
  | updateUser (id : ℤ) (p : UserPatch)
  | updateHall (id : ℤ) (p : HallPatch)
  | updateSeat (id : ℤ) (isActive : Bool)
  | updateBooking (id : ℤ) (status : BookingStatus)
deriving DecidableEq

namespace Write

/-- The tables after the change. -/
def apply (db : Db) : Write → Db
  | insertUser u => { db with users := db.users.insert u }
  | insertHall h => { db with halls := db.halls.insert h }
  | insertSeat s => { db with seats := db.seats.insert s }
  | insertBooking b => { db with bookings := db.bookings.insert b }
  | insertBookingSeat bs => { db with bookingSeats := db.bookingSeats.insert bs }
  | updateUser id p => { db with users := db.users.modify id (·.patch p) fun _ => rfl }
  | updateHall id p => { db with halls := db.halls.modify id (·.patch p) fun _ => rfl }
  | updateSeat id isActive =>
    { db with seats := db.seats.modify id (fun s => { s with isActive }) fun _ => rfl }
  | updateBooking id status =>
    { db with bookings := db.bookings.modify id (fun b => { b with status }) fun _ => rfl }

/-- The second change has to wait for the transaction of the first one: both update one row, or both
want one value of a unique column. -/
def conflicts : Write → Write → Bool
  | insertUser u, insertUser u' => u.email = u'.email
  | insertUser u, updateUser _ p => p.email = some u.email
  | updateUser _ p, insertUser u => p.email = some u.email
  | updateUser id p, updateUser id' p' => id = id' ∨ (p.email.isSome ∧ p.email = p'.email)
  | insertSeat s, insertSeat s' => s.hallId = s'.hallId ∧ s.row = s'.row ∧ s.number = s'.number
  | updateHall id _, updateHall id' _ => id = id'
  | updateSeat id _, updateSeat id' _ => id = id'
  | updateBooking id _, updateBooking id' _ => id = id'
  | _, _ => false

end Write

/-- The tables after a list of changes. -/
def Db.applyAll (db : Db) (ws : List Write) : Db := ws.foldl Write.apply db

@[simp] theorem Db.applyAll_nil (db : Db) : db.applyAll [] = db := rfl

@[simp] theorem Db.applyAll_cons (db : Db) (w : Write) (ws : List Write) :
    db.applyAll (w :: ws) = (w.apply db).applyAll ws := rfl

theorem Db.applyAll_append (db : Db) (ws ws' : List Write) :
    db.applyAll (ws ++ ws') = (db.applyAll ws).applyAll ws' := List.foldl_append ..

/-! ### Sequences -/

/-- The next id of each table.  A sequence is not rolled back, so an id is handed out once. -/
structure Sequences where
  users : ℤ
  halls : ℤ
  seats : ℤ
  bookings : ℤ
  bookingSeats : ℤ
deriving DecidableEq

def Sequences.initial : Sequences := ⟨1, 1, 1, 1, 1⟩

end BookingApi
