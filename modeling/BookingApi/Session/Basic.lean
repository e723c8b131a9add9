import BookingApi.World.Handler

/-!
# The session of a request

A request has one session, and the session has an identity map: a query that returns a row whose
object the session holds gives that object, with the columns as they were when it was loaded.  The
first query of a request is the one of `get_current_user`, which loads the bookings of the user as
well (`lazy="selectin"`), so that what a service reads of these bookings and of the user may be
older than the rows.  A service takes the objects loaded there as a `Session`.

For a request that is served alone the objects are as the rows are (`user_load`, `booking_load`).
-/

namespace BookingApi

open Async

open Keyed (key)

/-! ### The identity map -/

section

variable {α κ : Type*} [Keyed α κ] [DecidableEq κ]

/-- The object for a row that a query returns: the one with its key, if there is one. -/
def identityMap (objects : List α) (row : α) : α :=
  (objects.find? fun object => key object = key row).getD row

/-- The object is the row itself if none with its key was loaded before, and one of those if there
is one. -/
theorem identityMap_cases (objects : List α) (row : α) :
    (∀ object ∈ objects, key object ≠ key row) ∧ identityMap objects row = row ∨
      identityMap objects row ∈ objects ∧ key (identityMap objects row) = key row := by
  rw [identityMap]
  cases hfind : objects.find? fun object => key object = key row with
  | none => exact .inl ⟨by simpa using hfind, rfl⟩
  | some object =>
    exact .inr ⟨List.mem_of_find?_eq_some hfind, by simpa using List.find?_some hfind⟩

theorem key_identityMap (objects : List α) (row : α) : key (identityMap objects row) = key row := by
  rcases identityMap_cases objects row with ⟨-, heq⟩ | ⟨-, hkey⟩
  · rw [heq]
  · exact hkey

/-- Objects that are rows of the table are as the table has them. -/
theorem identityMap_eq_self {t : Table α} {objects : List α} (h : objects ⊆ t.rows) {row : α}
    (hrow : row ∈ t.rows) : identityMap objects row = row := by
  rcases identityMap_cases objects row with ⟨-, heq⟩ | ⟨hmem, hkey⟩
  · exact heq
  · exact Table.eq_of_key_eq (h hmem) hrow hkey

end

/-! ### The session -/

/-- The objects that were loaded with the authenticated user. -/
structure Session where
  users : List User
  bookings : List Booking
deriving DecidableEq

namespace Session

/-- The objects that the query of `get_current_user` loads. -/
def load (userId : ℤ) (db : Db) : Session :=
  ⟨db.users.rows.filter fun u => u.id = userId,
    db.bookings.rows.filter fun b => b.userId = userId⟩

/-- The object for a row of `users`. -/
def user (session : Session) (row : User) : User := identityMap session.users row

/-- The object for a row of `bookings`. -/
def booking (session : Session) (row : Booking) : Booking := identityMap session.bookings row

variable {session : Session} {userId : ℤ} {db : Db}

theorem id_booking (session : Session) (row : Booking) : (session.booking row).id = row.id :=
  key_identityMap session.bookings row

theorem users_load_subset (userId : ℤ) (db : Db) : (load userId db).users ⊆ db.users.rows :=
  List.filter_subset_self _

theorem bookings_load_subset (userId : ℤ) (db : Db) :
    (load userId db).bookings ⊆ db.bookings.rows :=
  List.filter_subset_self _

theorem user_load {row : User} (h : row ∈ db.users.rows) : (load userId db).user row = row :=
  identityMap_eq_self (users_load_subset userId db) h

theorem booking_load {row : Booking} (h : row ∈ db.bookings.rows) :
    (load userId db).booking row = row :=
  identityMap_eq_self (bookings_load_subset userId db) h

/-- The bookings of the session are rows, but for their status. -/
def Kept (session : Session) (db : Db) : Prop :=
  ∀ b ∈ session.bookings, ∃ row ∈ db.bookings.rows, row.terms = b.terms

theorem kept_load (userId : ℤ) (db : Db) : (load userId db).Kept db :=
  fun b hb => ⟨b, bookings_load_subset userId db hb, rfl⟩

/-- No booking is ever removed. -/
theorem Kept.mono {db' : Db} (hgrows : db.Grows db') (h : session.Kept db) : session.Kept db' := by
  intro b hb
  obtain ⟨row, hrow, hterms⟩ := h b hb
  obtain ⟨row', hrow', hterms'⟩ := Table.exists_of_map_subset hgrows.bookings hrow
  exact ⟨row', hrow', hterms'.trans hterms⟩

/-- An object differs from its row in the status at most. -/
theorem Kept.terms_booking (h : session.Kept db) {row : Booking} (hrow : row ∈ db.bookings.rows) :
    (session.booking row).terms = row.terms := by
  rcases identityMap_cases session.bookings row with ⟨-, heq⟩ | ⟨hmem, hkey⟩
  · exact congrArg Booking.terms heq
  · obtain ⟨row', hrow', hterms⟩ := h _ hmem
    obtain rfl := Table.eq_of_key_eq hrow' hrow ((Booking.id_eq_of_terms hterms).trans hkey)
    exact hterms.symm

end Session

/-! ### A service with its session -/

variable {α : Type}

/-- A service after the query of `get_current_user`. -/
def withSession (userId : ℤ) (service : Session → App α) : App α := do
  let session ← execute (Session.load userId)
  service session

theorem uses_withSession {P : ∀ β : Type, Op β → Prop} (hP : AllowsQueries P) {userId : ℤ}
    {service : Session → App α} (h : ∀ session, (service session).Uses P) :
    (withSession userId service).Uses P :=
  .bind (uses_execute hP _) h

variable {userId : ℤ} {service : Session → App α} {r : RequestId} {w : World}

theorem run_withSession (hidle : w.writesOf r = []) :
    (withSession userId service).run (World.exec r) w
      = (service (Session.load userId w.db)).run (World.exec r) w := by
  rw [withSession, Program.bind_eq, Program.run_bind, run_execute,
    World.view_of_writesOf_nil hidle]

theorem serve_withSession (hidle : w.writesOf r = []) :
    serve r (withSession userId service) w
      = serve r (service (Session.load userId w.db)) w := by
  rw [serve_eq, serve_eq, run_withSession hidle]

end BookingApi
