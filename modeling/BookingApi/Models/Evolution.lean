import BookingApi.Models.Rows

/-!
# What a row keeps

No row is ever removed, and the routes update few columns.  `Row.Later` says what a later state of
a row keeps of an earlier one: of a user the id, the password and the time of the signup, of a seat
its place, of a booking everything but its status, and the status too once it is cancelled.  A
change keeps this unless it confirms a booking again (`Write.Legal`).
-/

namespace BookingApi

/-- The second row is a later state of the first one. -/
def Row.Later : Row → Row → Prop
  | user u, user u' =>
    u'.id = u.id ∧ u'.hashedPassword = u.hashedPassword ∧ u'.createdAt = u.createdAt
  | hall h, hall h' => h'.id = h.id ∧ h'.createdAt = h.createdAt
  | seat s, seat s' => s'.place = s.place
  | booking b, booking b' =>
    b'.terms = b.terms ∧ (b.status = .cancelled → b'.status = .cancelled)
  | bookingSeat bs, bookingSeat bs' => bs' = bs
  | _, _ => False

theorem Row.Later.refl (row : Row) : row.Later row := by
  cases row <;> simp [Row.Later]

theorem Row.Later.trans {row₁ row₂ row₃ : Row} (h : row₁.Later row₂) (h' : row₂.Later row₃) :
    row₁.Later row₃ := by
  cases row₁ <;> cases row₂ <;> cases row₃ <;> simp_all [Row.Later]

/-- The change confirms no booking again. -/
def Write.Legal (w : Write) : Prop := ∀ id, w ≠ .updateBooking id .confirmed

theorem Write.Legal.later {w : Write} (hw : w.Legal) {row row' : Row}
    (h : w.act (some row) = some row') : row.Later row' := by
  cases w <;> cases row <;> cases h <;>
    first
      | exact .refl _
      | simp [Row.Later, User.patch, Hall.patch, Seat.place, Booking.terms]
  case updateBooking.booking.refl id status b =>
    cases status with
    | confirmed => exact absurd rfl (hw id)
    | cancelled => exact fun _ => rfl

namespace Db

variable {db db' db'' : Db} {ws : List Write} {key : RowKey}

/-- Every row is still there, in a later state. -/
def Later (db db' : Db) : Prop :=
  ∀ key row, db.row key = some row → ∃ row', db'.row key = some row' ∧ row.Later row'

theorem Later.refl (db : Db) : db.Later db := fun _ row h => ⟨row, h, .refl row⟩

theorem Later.trans (h : db.Later db') (h' : db'.Later db'') : db.Later db'' := by
  intro key row hrow
  obtain ⟨row', hrow', hlater⟩ := h key row hrow
  obtain ⟨row'', hrow'', hlater'⟩ := h' key row' hrow'
  exact ⟨row'', hrow'', hlater.trans hlater'⟩

theorem later_applyAll (db : Db) (hws : ∀ w ∈ ws, w.Legal) : db.Later (db.applyAll ws) := by
  intro key row hrow
  rw [row_applyAll]
  exact Transaction.Schema.applyAll_rel (S := schema) Row.Later.refl Row.Later.trans
    (fun w hw row row' h => (hws w hw).later h) hrow

theorem Later.row_ne_none (h : db.Later db') (hrow : db.row key ≠ none) : db'.row key ≠ none := by
  obtain ⟨row, hrow⟩ := Option.ne_none_iff_exists'.mp hrow
  obtain ⟨row', hrow', -⟩ := h key row hrow
  simp [hrow']

/-! ### Table by table -/

section

variable {id : ℤ}

theorem row_users_eq_some {u : User} :
    db.row (.users, id) = some (.user u) ↔ db.users.find? id = some u := by
  simp [row]

theorem row_halls_eq_some {h : Hall} :
    db.row (.halls, id) = some (.hall h) ↔ db.halls.find? id = some h := by
  simp [row]

theorem row_seats_eq_some {s : Seat} :
    db.row (.seats, id) = some (.seat s) ↔ db.seats.find? id = some s := by
  simp [row]

theorem row_bookings_eq_some {b : Booking} :
    db.row (.bookings, id) = some (.booking b) ↔ db.bookings.find? id = some b := by
  simp [row]

theorem row_bookingSeats_eq_some {bs : BookingSeat} :
    db.row (.bookingSeats, id) = some (.bookingSeat bs) ↔ db.bookingSeats.find? id = some bs := by
  simp [row]

theorem row_users_ne_none : db.row (.users, id) ≠ none ↔ ∃ u, db.users.find? id = some u := by
  simp [row, Option.ne_none_iff_exists']

theorem row_halls_ne_none : db.row (.halls, id) ≠ none ↔ ∃ h, db.halls.find? id = some h := by
  simp [row, Option.ne_none_iff_exists']

theorem row_seats_ne_none : db.row (.seats, id) ≠ none ↔ ∃ s, db.seats.find? id = some s := by
  simp [row, Option.ne_none_iff_exists']

theorem row_bookings_ne_none :
    db.row (.bookings, id) ≠ none ↔ ∃ b, db.bookings.find? id = some b := by
  simp [row, Option.ne_none_iff_exists']

end

end Db

end BookingApi
