import BookingApi.Models.Writes
import BookingApi.Transaction.Isolation

/-!
# The tables as rows

The five tables as one store of rows, with the constraints that `app/models` declares: the unique
column `users.email`, the unique position of a seat (`uq_seat_position`), and the foreign keys.
`Db.row_applyAll` says that changes act on the tables as they do on the store.
-/

namespace BookingApi

/-- A row of one of the tables. -/
inductive Row
  | user (u : User)
  | hall (h : Hall)
  | seat (s : Seat)
  | booking (b : Booking)
  | bookingSeat (bs : BookingSeat)
deriving DecidableEq

/-- A table and an id. -/
abbrev RowKey := TableName × ℤ

/-- The value of a unique column. -/
inductive Unique
  | email (email : String)
  | position (hallId row number : ℤ)
deriving DecidableEq

namespace Row

/-- The unique value of a row, if its table has one. -/
def claim : Row → Option Unique
  | user u => some (.email u.email)
  | seat s => some (.position s.hallId s.row s.number)
  | _ => none

/-- The foreign keys of a row. -/
def refs : Row → List RowKey
  | seat s => [(.halls, s.hallId)]
  | booking b => [(.users, b.userId), (.halls, b.hallId)]
  | bookingSeat bs => [(.bookings, bs.bookingId), (.seats, bs.seatId)]
  | _ => []

end Row

namespace Db

/-- The row with an id. -/
def row (db : Db) : RowKey → Option Row
  | (.users, id) => (db.users.find? id).map .user
  | (.halls, id) => (db.halls.find? id).map .hall
  | (.seats, id) => (db.seats.find? id).map .seat
  | (.bookings, id) => (db.bookings.find? id).map .booking
  | (.bookingSeats, id) => (db.bookingSeats.find? id).map .bookingSeat

end Db

namespace Write

/-- The row that a change concerns. -/
def target : Write → RowKey
  | insertUser u => (.users, u.id)
  | insertHall h => (.halls, h.id)
  | insertSeat s => (.seats, s.id)
  | insertBooking b => (.bookings, b.id)
  | insertBookingSeat bs => (.bookingSeats, bs.id)
  | updateUser id _ => (.users, id)
  | updateHall id _ => (.halls, id)
  | updateSeat id _ => (.seats, id)
  | updateBooking id _ => (.bookings, id)

/-- What a change makes of the row that it concerns. -/
def act : Write → Option Row → Option Row
  | insertUser u, none => some (.user u)
  | insertHall h, none => some (.hall h)
  | insertSeat s, none => some (.seat s)
  | insertBooking b, none => some (.booking b)
  | insertBookingSeat bs, none => some (.bookingSeat bs)
  | updateUser _ p, some (.user u) => some (.user (u.patch p))
  | updateHall _ p, some (.hall h) => some (.hall (h.patch p))
  | updateSeat _ isActive, some (.seat s) => some (.seat { s with isActive })
  | updateBooking _ status, some (.booking b) => some (.booking { b with status })
  | _, r => r

def inserts : Write → Bool
  | insertUser _ | insertHall _ | insertSeat _ | insertBooking _ | insertBookingSeat _ => true
  | _ => false

/-- The unique value that a change gives to its row. -/
def claims : Write → Option Unique
  | insertUser u => some (.email u.email)
  | insertSeat s => some (.position s.hallId s.row s.number)
  | updateUser _ p => p.email.map .email
  | _ => none

end Write

/-- The rows with their constraints. -/
def schema : Transaction.Schema RowKey Row Write Unique where
  target := Write.target
  act := Write.act
  inserts := Write.inserts
  claim := Row.claim
  claims := Write.claims
  refs row key := key ∈ row.refs
  act_ne_none w row := by cases w <;> cases row <;> simp [Write.act]
  act_none w h := by cases w <;> first | rfl | cases h
  claims_of_act {w r row v} h hv := by
    rcases r with _ | row₀
    · cases w <;> cases h <;> exact .inl hv
    · cases w <;> cases row₀ <;> cases h
      case some.updateUser.user id p u =>
        rcases hp : p.email with _ | email
        · refine .inr ⟨_, rfl, ?_⟩
          simpa [Row.claim, User.patch, hp] using hv
        · refine .inl ?_
          simpa [Row.claim, User.patch, hp, Write.claims] using hv
      all_goals exact .inr ⟨_, rfl, hv⟩
  refs_of_act {w row₀ row k} h hk := by
    cases w <;> cases row₀ <;> cases h <;> exact hk

namespace Db

variable {db : Db} {w : Write} {id : ℤ}

section

variable {α : Type} [Keyed α ℤ] (t : Table α) (f : α → Row) {g : α → α}
  (hg : ∀ a, Keyed.key (g a) = Keyed.key a)

/-- A row after an insertion under its id. -/
private theorem map_find?_insert (a : α) :
    ((t.insert a).find? (Keyed.key a)).map f
      = ((t.find? (Keyed.key a)).map f).or (some (f a)) := by
  rw [Table.find?_insert, if_pos rfl]
  cases t.find? (Keyed.key a) <;> rfl

/-- A row after an update under its id. -/
private theorem map_find?_modify (id : ℤ) :
    ((t.modify id g hg).find? id).map f = (t.find? id).map (f ∘ g) := by
  rw [Table.find?_modify]
  cases h : t.find? id with
  | none => rfl
  | some a => simp [(Table.find?_eq_some_iff.mp h).2]

private theorem map_find?_insert_of_ne {a : α} {id : ℤ} (h : Keyed.key a ≠ id) :
    ((t.insert a).find? id).map f = (t.find? id).map f := by
  rw [Table.find?_insert, if_neg h]

private theorem map_find?_modify_of_ne {id id' : ℤ} (h : id ≠ id') :
    ((t.modify id g hg).find? id').map f = (t.find? id').map f := by
  rw [Table.find?_modify]
  cases hfind : t.find? id' with
  | none => rfl
  | some b =>
    have hb : Keyed.key b ≠ id := (Table.find?_eq_some_iff.mp hfind).2 ▸ h.symm
    simp [hb]

end

/-- The row that a change concerns. -/
theorem row_apply_target (db : Db) (w : Write) :
    (w.apply db).row w.target = w.act (db.row w.target) := by
  cases w with
  | insertUser u =>
    refine (map_find?_insert db.users .user u).trans ?_
    cases h : db.users.find? u.id <;> simp [row, Write.target, Write.act, h]
  | insertHall r =>
    refine (map_find?_insert db.halls .hall r).trans ?_
    cases h : db.halls.find? r.id <;> simp [row, Write.target, Write.act, h]
  | insertSeat s =>
    refine (map_find?_insert db.seats .seat s).trans ?_
    cases h : db.seats.find? s.id <;> simp [row, Write.target, Write.act, h]
  | insertBooking b =>
    refine (map_find?_insert db.bookings .booking b).trans ?_
    cases h : db.bookings.find? b.id <;> simp [row, Write.target, Write.act, h]
  | insertBookingSeat bs =>
    refine (map_find?_insert db.bookingSeats .bookingSeat bs).trans ?_
    cases h : db.bookingSeats.find? bs.id <;> simp [row, Write.target, Write.act, h]
  | updateUser id p =>
    refine (map_find?_modify db.users .user (g := (·.patch p)) (fun _ => rfl) id).trans ?_
    cases h : db.users.find? id <;> simp [row, Write.target, Write.act, h]
  | updateHall id p =>
    refine (map_find?_modify db.halls .hall (g := (·.patch p)) (fun _ => rfl) id).trans ?_
    cases h : db.halls.find? id <;> simp [row, Write.target, Write.act, h]
  | updateSeat id isActive =>
    have hfind := map_find?_modify db.seats .seat (g := ({ · with isActive })) (fun _ => rfl) id
    refine hfind.trans ?_
    cases h : db.seats.find? id <;> simp [row, Write.target, Write.act, h]
  | updateBooking id status =>
    have hfind := map_find?_modify db.bookings .booking (g := ({ · with status })) (fun _ => rfl) id
    refine hfind.trans ?_
    cases h : db.bookings.find? id <;> simp [row, Write.target, Write.act, h]

/-- The other rows stay as they are. -/
theorem row_apply_of_ne {key : RowKey} (h : w.target ≠ key) :
    (w.apply db).row key = db.row key := by
  obtain ⟨name, id⟩ := key
  have hne (id' : ℤ) (htarget : w.target = (name, id')) : id' ≠ id :=
    fun he => h (he ▸ htarget)
  cases w with
  | insertUser u =>
    cases name with
    | users => exact map_find?_insert_of_ne db.users .user (hne _ rfl)
    | _ => rfl
  | insertHall r =>
    cases name with
    | halls => exact map_find?_insert_of_ne db.halls .hall (hne _ rfl)
    | _ => rfl
  | insertSeat s =>
    cases name with
    | seats => exact map_find?_insert_of_ne db.seats .seat (hne _ rfl)
    | _ => rfl
  | insertBooking b =>
    cases name with
    | bookings => exact map_find?_insert_of_ne db.bookings .booking (hne _ rfl)
    | _ => rfl
  | insertBookingSeat bs =>
    cases name with
    | bookingSeats => exact map_find?_insert_of_ne db.bookingSeats .bookingSeat (hne _ rfl)
    | _ => rfl
  | updateUser id' p =>
    cases name with
    | users =>
      exact map_find?_modify_of_ne db.users .user (g := (·.patch p)) (fun _ => rfl) (hne _ rfl)
    | _ => rfl
  | updateHall id' p =>
    cases name with
    | halls =>
      exact map_find?_modify_of_ne db.halls .hall (g := (·.patch p)) (fun _ => rfl) (hne _ rfl)
    | _ => rfl
  | updateSeat id' isActive =>
    cases name with
    | seats =>
      exact map_find?_modify_of_ne db.seats .seat (g := ({ · with isActive })) (fun _ => rfl)
        (hne _ rfl)
    | _ => rfl
  | updateBooking id' status =>
    cases name with
    | bookings =>
      exact map_find?_modify_of_ne db.bookings .booking (g := ({ · with status })) (fun _ => rfl)
        (hne _ rfl)
    | _ => rfl

theorem row_apply (db : Db) (w : Write) : (w.apply db).row = schema.apply db.row w := by
  funext key
  by_cases h : w.target = key
  · subst h
    exact (row_apply_target db w).trans (Transaction.Schema.apply_target (S := schema)).symm
  · exact (row_apply_of_ne h).trans (Transaction.Schema.apply_of_ne (S := schema) h).symm

/-- Only a user has an email. -/
theorem exists_user_of_claim {key : RowKey} {row : Row} {email : String}
    (h : db.row key = some row) (hc : row.claim = some (.email email)) :
    ∃ u ∈ db.users.rows, key = (.users, u.id) ∧ u.email = email := by
  obtain ⟨name, id⟩ := key
  cases name
  case users =>
    obtain ⟨u, hu, rfl⟩ := Option.map_eq_some_iff.mp h
    obtain ⟨hmem, hid⟩ := Table.find?_eq_some_iff.mp hu
    exact ⟨u, hmem, congrArg _ hid.symm, by simpa [Row.claim] using hc⟩
  all_goals
    obtain ⟨x, -, rfl⟩ := Option.map_eq_some_iff.mp h
    simp [Row.claim] at hc

/-- Only a seat has a position. -/
theorem exists_seat_of_claim {key : RowKey} {row : Row} {hallId i j : ℤ}
    (h : db.row key = some row) (hc : row.claim = some (.position hallId i j)) :
    ∃ s ∈ db.seats.rows, key = (.seats, s.id) ∧ s.hallId = hallId ∧ s.row = i ∧ s.number = j := by
  obtain ⟨name, id⟩ := key
  cases name
  case seats =>
    obtain ⟨s, hs, rfl⟩ := Option.map_eq_some_iff.mp h
    obtain ⟨hmem, hid⟩ := Table.find?_eq_some_iff.mp hs
    exact ⟨s, hmem, congrArg _ hid.symm, by simpa [Row.claim] using hc⟩
  all_goals
    obtain ⟨x, -, rfl⟩ := Option.map_eq_some_iff.mp h
    simp [Row.claim] at hc

/-- **Changes** act on the tables as they do on the store. -/
theorem row_applyAll (db : Db) (ws : List Write) :
    (db.applyAll ws).row = schema.applyAll db.row ws := by
  induction ws generalizing db with
  | nil => rfl
  | cons w ws ih => rw [applyAll_cons, ih, row_apply, Transaction.Schema.applyAll_cons]

end Db

end BookingApi
