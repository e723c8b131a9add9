import BookingApi.Models.Basic

/-!
# What changes do to the tables

A list of changes leaves alone the tables it does not concern, loses no row
(`Db.grows_applyAll`), and adds or rewrites only what it says (`Db.mem_bookings_applyAll` and its
siblings).  `Db.applyAll_newBooking` is the effect of the changes that a new booking makes.
-/

namespace BookingApi

/-! ### The tables that a change concerns -/

inductive TableName
  | users
  | halls
  | seats
  | bookings
  | bookingSeats
deriving DecidableEq

/-- The table that a change is made in. -/
def Write.table : Write → TableName
  | .insertUser _ | .updateUser _ _ => .users
  | .insertHall _ | .updateHall _ _ => .halls
  | .insertSeat _ | .updateSeat _ _ => .seats
  | .insertBooking _ | .updateBooking _ _ => .bookings
  | .insertBookingSeat _ => .bookingSeats

/-- The next id of a table. -/
def Sequences.next (seqs : Sequences) : TableName → ℤ
  | .users => seqs.users
  | .halls => seqs.halls
  | .seats => seqs.seats
  | .bookings => seqs.bookings
  | .bookingSeats => seqs.bookingSeats

namespace Db

/-- What no change in other tables alters is not altered by a list of them. -/
private theorem applyAll_congr {γ : Type*} {f : Db → γ} {name : TableName}
    (hf : ∀ db w, Write.table w ≠ name → f (w.apply db) = f db) (db : Db) {ws : List Write}
    (h : ∀ w ∈ ws, w.table ≠ name) : f (db.applyAll ws) = f db := by
  induction ws generalizing db with
  | nil => rfl
  | cons w ws ih =>
    rw [applyAll_cons, ih _ fun x hx => h x (List.mem_cons_of_mem _ hx)]
    exact hf db w (h w (List.mem_cons_self ..))

theorem users_applyAll (db : Db) {ws : List Write} (h : ∀ w ∈ ws, w.table ≠ .users) :
    (db.applyAll ws).users = db.users :=
  applyAll_congr (fun _ w hw => by cases w <;> first | rfl | exact absurd rfl hw) db h

theorem halls_applyAll (db : Db) {ws : List Write} (h : ∀ w ∈ ws, w.table ≠ .halls) :
    (db.applyAll ws).halls = db.halls :=
  applyAll_congr (fun _ w hw => by cases w <;> first | rfl | exact absurd rfl hw) db h

theorem seats_applyAll (db : Db) {ws : List Write} (h : ∀ w ∈ ws, w.table ≠ .seats) :
    (db.applyAll ws).seats = db.seats :=
  applyAll_congr (fun _ w hw => by cases w <;> first | rfl | exact absurd rfl hw) db h

theorem bookings_applyAll (db : Db) {ws : List Write} (h : ∀ w ∈ ws, w.table ≠ .bookings) :
    (db.applyAll ws).bookings = db.bookings :=
  applyAll_congr (fun _ w hw => by cases w <;> first | rfl | exact absurd rfl hw) db h

theorem bookingSeats_applyAll (db : Db) {ws : List Write}
    (h : ∀ w ∈ ws, w.table ≠ .bookingSeats) : (db.applyAll ws).bookingSeats = db.bookingSeats :=
  applyAll_congr (fun _ w hw => by cases w <;> first | rfl | exact absurd rfl hw) db h

/-- Changes of seats change nothing else. -/
theorem applyAll_of_seats (db : Db) {ws : List Write} (h : ∀ w ∈ ws, w.table = .seats) :
    db.applyAll ws = { db with seats := (db.applyAll ws).seats } := by
  have hne {name : TableName} (hname : .seats ≠ name) : ∀ w ∈ ws, w.table ≠ name :=
    fun w hw => h w hw ▸ hname
  calc db.applyAll ws = ⟨(db.applyAll ws).users, (db.applyAll ws).halls, (db.applyAll ws).seats,
        (db.applyAll ws).bookings, (db.applyAll ws).bookingSeats⟩ := rfl
    _ = { db with seats := (db.applyAll ws).seats } := by
      rw [users_applyAll db (hne (by decide)), halls_applyAll db (hne (by decide)),
        bookings_applyAll db (hne (by decide)), bookingSeats_applyAll db (hne (by decide))]

/-- What a later state of the tables keeps of the rows of an earlier one: of a user and a hall the
id, of a seat everything but its activity, of a booking everything but its status, and the seats of
bookings altogether. -/
structure Grows (db db' : Db) : Prop where
  users : db.users.rows.map User.id ⊆ db'.users.rows.map User.id
  halls : db.halls.rows.map Hall.id ⊆ db'.halls.rows.map Hall.id
  seats : db.seats.rows.map Seat.place ⊆ db'.seats.rows.map Seat.place
  bookings : db.bookings.rows.map Booking.terms ⊆ db'.bookings.rows.map Booking.terms
  bookingSeats : db.bookingSeats.rows ⊆ db'.bookingSeats.rows

theorem Grows.refl (db : Db) : db.Grows db :=
  ⟨List.Subset.refl _, List.Subset.refl _, List.Subset.refl _, List.Subset.refl _,
    List.Subset.refl _⟩

theorem Grows.trans {db db' db'' : Db} (h : db.Grows db') (h' : db'.Grows db'') : db.Grows db'' :=
  ⟨List.Subset.trans h.users h'.users, List.Subset.trans h.halls h'.halls,
    List.Subset.trans h.seats h'.seats, List.Subset.trans h.bookings h'.bookings,
    List.Subset.trans h.bookingSeats h'.bookingSeats⟩

theorem grows_apply (db : Db) (w : Write) : db.Grows (w.apply db) := by
  have h := Grows.refl db
  cases w with
  | insertUser u => exact { h with users := Table.map_subset_insert _ _ _ }
  | insertHall r => exact { h with halls := Table.map_subset_insert _ _ _ }
  | insertSeat s => exact { h with seats := Table.map_subset_insert _ _ _ }
  | insertBooking b => exact { h with bookings := Table.map_subset_insert _ _ _ }
  | insertBookingSeat bs => exact { h with bookingSeats := Table.subset_insert _ _ }
  | updateUser id p =>
    refine { h with users := ?_ }
    exact Table.map_subset_modify db.users id (·.patch p) (fun _ => rfl) fun _ => rfl
  | updateHall id p =>
    refine { h with halls := ?_ }
    exact Table.map_subset_modify db.halls id (·.patch p) (fun _ => rfl) fun _ => rfl
  | updateSeat id isActive =>
    refine { h with seats := ?_ }
    exact Table.map_subset_modify db.seats id ({ · with isActive }) (fun _ => rfl) fun _ => rfl
  | updateBooking id status =>
    refine { h with bookings := ?_ }
    exact Table.map_subset_modify db.bookings id ({ · with status }) (fun _ => rfl) fun _ => rfl

/-- No change removes a row. -/
theorem grows_applyAll (db : Db) (ws : List Write) : db.Grows (db.applyAll ws) := by
  induction ws generalizing db with
  | nil => exact .refl db
  | cons w ws ih => exact (grows_apply db w).trans (ih _)

/-! ### Where the rows come from -/

/-- A booking after some changes was there before or was inserted, and its status is the old one
or was set. -/
theorem mem_bookings_applyAll {db : Db} {ws : List Write} {b : Booking}
    (h : b ∈ (db.applyAll ws).bookings.rows) :
    ∃ b₀, (b₀ ∈ db.bookings.rows ∨ .insertBooking b₀ ∈ ws) ∧ b.terms = b₀.terms ∧
      (b.status = b₀.status ∨ .updateBooking b.id b.status ∈ ws) := by
  induction ws generalizing db with
  | nil => exact ⟨b, .inl h, rfl, .inl rfl⟩
  | cons w ws ih =>
    obtain ⟨b₁, hb₁, hterms, hstatus⟩ := ih h
    have hstatus' : b.status = b₁.status ∨ .updateBooking b.id b.status ∈ w :: ws :=
      hstatus.imp_right (List.mem_cons_of_mem _)
    rcases hb₁ with hb₁ | hb₁
    · by_cases hw : w.table = .bookings
      · cases w with
        | insertBooking b' =>
          rcases Table.mem_of_mem_insert hb₁ with hb₁ | rfl
          · exact ⟨b₁, .inl hb₁, hterms, hstatus'⟩
          · exact ⟨b₁, .inr (List.mem_cons_self ..), hterms, hstatus'⟩
        | updateBooking id status =>
          simp only [Write.apply] at hb₁
          obtain ⟨b₂, hb₂, rfl⟩ := Table.mem_modify.mp hb₁
          by_cases hid : Keyed.key b₂ = id
          · rw [if_pos hid] at hterms hstatus
            refine ⟨b₂, .inl hb₂, hterms, .inr ?_⟩
            rcases hstatus with hs | hs
            · have hbid : b.id = id := (congrArg Prod.fst hterms).trans hid
              rw [hs, hbid]
              exact List.mem_cons_self ..
            · exact List.mem_cons_of_mem _ hs
          · rw [if_neg hid] at hterms hstatus'
            exact ⟨b₂, .inl hb₂, hterms, hstatus'⟩
        | _ => exact absurd hw (by simp [Write.table])
      · have hws : ∀ x ∈ [w], x.table ≠ .bookings := by simpa using hw
        have h' : (w.apply db).bookings = db.bookings := bookings_applyAll db hws
        rw [h'] at hb₁
        exact ⟨b₁, .inl hb₁, hterms, hstatus'⟩
    · exact ⟨b₁, .inr (List.mem_cons_of_mem _ hb₁), hterms, hstatus'⟩

/-- A user after some changes was there before or was inserted under a new id, with the same
password, and the rest of the row is as it was unless it was updated. -/
theorem mem_users_applyAll {db : Db} {ws : List Write} {u : User}
    (h : u ∈ (db.applyAll ws).users.rows) :
    ∃ u₀, (u₀ ∈ db.users.rows ∨
        .insertUser u₀ ∈ ws ∧ ∀ u₁ ∈ db.users.rows, u₁.id ≠ u₀.id) ∧
      u.id = u₀.id ∧ u.hashedPassword = u₀.hashedPassword ∧
      (u = u₀ ∨ ∃ p, .updateUser u.id p ∈ ws) := by
  induction ws generalizing db with
  | nil => exact ⟨u, .inl h, rfl, rfl, .inl rfl⟩
  | cons w ws ih =>
    obtain ⟨u₀, hu₀, hid, hhash, hrest⟩ := ih h
    have hrest' : u = u₀ ∨ ∃ p, .updateUser u.id p ∈ w :: ws :=
      hrest.imp_right fun ⟨p, hp⟩ => ⟨p, List.mem_cons_of_mem _ hp⟩
    rcases hu₀ with hu₀ | ⟨hins, hfresh⟩
    · by_cases hold : u₀ ∈ db.users.rows
      · exact ⟨u₀, .inl hold, hid, hhash, hrest'⟩
      cases w with
      | insertUser u' =>
        obtain ⟨rfl, hfresh⟩ := Table.key_ne_of_mem_insert hu₀ hold
        exact ⟨u₀, .inr ⟨List.mem_cons_self .., hfresh⟩, hid, hhash, hrest'⟩
      | updateUser id p =>
        simp only [Write.apply] at hu₀
        obtain ⟨a, ha, rfl⟩ := Table.mem_modify.mp hu₀
        by_cases hkey : Keyed.key a = id
        · rw [if_pos hkey] at hid hhash
          refine ⟨a, .inl ha, hid, hhash, .inr ⟨p, ?_⟩⟩
          have huid : u.id = id := hid.trans hkey
          rw [huid]
          exact List.mem_cons_self ..
        · rw [if_neg hkey] at hold
          exact absurd ha hold
      | _ => exact absurd hu₀ hold
    · refine ⟨u₀, .inr ⟨List.mem_cons_of_mem _ hins, fun u₁ hu₁ he => ?_⟩, hid, hhash, hrest'⟩
      obtain ⟨u₂, hu₂, hid₂⟩ := List.mem_map.mp
        ((grows_apply db w).users (List.mem_map_of_mem (f := User.id) hu₁))
      exact hfresh u₂ hu₂ (hid₂.trans he)

/-- The users stay as they are if none is updated. -/
theorem users_subset_applyAll {db : Db} {ws : List Write} (h : ∀ id p, .updateUser id p ∉ ws) :
    db.users.rows ⊆ (db.applyAll ws).users.rows := by
  induction ws generalizing db with
  | nil => exact List.Subset.refl _
  | cons w ws ih =>
    refine List.Subset.trans ?_ (ih fun id p hp => h id p (List.mem_cons_of_mem _ hp))
    cases w with
    | insertUser u => exact Table.subset_insert _ _
    | updateUser id p => exact absurd (List.mem_cons_self ..) (h id p)
    | _ => exact List.Subset.refl _

theorem mem_bookingSeats_applyAll {db : Db} {ws : List Write} {bs : BookingSeat}
    (h : bs ∈ (db.applyAll ws).bookingSeats.rows) :
    bs ∈ db.bookingSeats.rows ∨ .insertBookingSeat bs ∈ ws := by
  induction ws generalizing db with
  | nil => exact .inl h
  | cons w ws ih =>
    rcases ih h with h | h
    · cases w with
      | insertBookingSeat bs' =>
        rcases Table.mem_of_mem_insert h with h | rfl
        · exact .inl h
        · exact .inr (List.mem_cons_self ..)
      | _ => exact .inl h
    · exact .inr (List.mem_cons_of_mem _ h)

/-- The seats of a booking stay as they are if no change attaches one. -/
theorem seatsOf_applyAll {db : Db} {ws : List Write} {id : ℤ}
    (h : ∀ bs, .insertBookingSeat bs ∈ ws → bs.bookingId ≠ id) :
    (db.applyAll ws).seatsOf id = db.seatsOf id := by
  induction ws generalizing db with
  | nil => rfl
  | cons w ws ih =>
    rw [applyAll_cons, ih fun bs hbs => h bs (List.mem_cons_of_mem _ hbs)]
    cases w with
    | insertBookingSeat bs =>
      have hne : bs.bookingId ≠ id := h bs (List.mem_cons_self ..)
      simp only [Write.apply, seatsOf, Table.insert]
      split_ifs
      · rfl
      · simp [hne]
    | _ => rfl

/-! ### Active halls and seats -/

/-- The hall exists and is active. -/
def HallActive (db : Db) (id : ℤ) : Prop := ∃ h ∈ db.halls.rows, h.id = id ∧ h.isActive = true

/-- The seat exists and is active. -/
def SeatActive (db : Db) (id : ℤ) : Prop := ∃ s ∈ db.seats.rows, s.id = id ∧ s.isActive = true

end Db

def Write.deactivatesHall (id : ℤ) : Write → Bool
  | .updateHall id' p => id' = id ∧ p.isActive = some false
  | _ => false

def Write.deactivatesSeat (id : ℤ) : Write → Bool
  | .updateSeat id' isActive => id' = id ∧ isActive = false
  | _ => false

namespace Db

theorem HallActive.applyAll {db : Db} {id : ℤ} {ws : List Write} (h : db.HallActive id)
    (hws : ∀ w ∈ ws, ¬ w.deactivatesHall id) : (db.applyAll ws).HallActive id := by
  induction ws generalizing db with
  | nil => exact h
  | cons w ws ih =>
    refine ih ?_ fun w' hw' => hws w' (List.mem_cons_of_mem _ hw')
    have hw : ¬ w.deactivatesHall id := hws w (List.mem_cons_self ..)
    obtain ⟨r, hr, hid, hactive⟩ := h
    cases w with
    | insertHall r' => exact ⟨r, Table.subset_insert _ _ hr, hid, hactive⟩
    | updateHall id' p =>
      refine ⟨_, Table.mem_modify_of_mem (f := (·.patch p)) (fun _ => rfl) hr, ?_⟩
      split_ifs with hkey
      · refine ⟨hid, ?_⟩
        have hp : p.isActive ≠ some false := fun hp =>
          hw (decide_eq_true ⟨hkey.symm.trans hid, hp⟩)
        rcases hp' : p.isActive with _ | _ | _ <;> simp_all [Hall.patch]
      · exact ⟨hid, hactive⟩
    | _ => exact ⟨r, hr, hid, hactive⟩

theorem SeatActive.applyAll {db : Db} {id : ℤ} {ws : List Write} (h : db.SeatActive id)
    (hws : ∀ w ∈ ws, ¬ w.deactivatesSeat id) : (db.applyAll ws).SeatActive id := by
  induction ws generalizing db with
  | nil => exact h
  | cons w ws ih =>
    refine ih ?_ fun w' hw' => hws w' (List.mem_cons_of_mem _ hw')
    have hw : ¬ w.deactivatesSeat id := hws w (List.mem_cons_self ..)
    obtain ⟨s, hs, hid, hactive⟩ := h
    cases w with
    | insertSeat s' => exact ⟨s, Table.subset_insert _ _ hs, hid, hactive⟩
    | updateSeat id' isActive =>
      refine ⟨_, Table.mem_modify_of_mem (f := ({ · with isActive })) (fun _ => rfl) hs, ?_⟩
      split_ifs with hkey
      · refine ⟨hid, ?_⟩
        cases isActive with
        | true => rfl
        | false => exact absurd (decide_eq_true ⟨hkey.symm.trans hid, rfl⟩) hw
      · exact ⟨hid, hactive⟩
    | _ => exact ⟨s, hs, hid, hactive⟩

/-- A seat after some changes was there before or was inserted, with the same place. -/
theorem exists_place_of_mem_seats_applyAll {db : Db} {ws : List Write} {s : Seat}
    (h : s ∈ (db.applyAll ws).seats.rows) :
    ∃ s₀, (s₀ ∈ db.seats.rows ∨ .insertSeat s₀ ∈ ws) ∧ s₀.place = s.place := by
  induction ws generalizing db with
  | nil => exact ⟨s, .inl h, rfl⟩
  | cons w ws ih =>
    obtain ⟨s₀, hs₀ | hs₀, hplace⟩ := ih h
    · cases w with
      | insertSeat s' =>
        rcases Table.mem_of_mem_insert hs₀ with hold | rfl
        · exact ⟨s₀, .inl hold, hplace⟩
        · exact ⟨s₀, .inr (List.mem_cons_self ..), hplace⟩
      | updateSeat id isActive =>
        simp only [Write.apply] at hs₀
        obtain ⟨a, ha, rfl⟩ := Table.mem_modify.mp hs₀
        refine ⟨a, .inl ha, hplace ▸ ?_⟩
        split_ifs <;> rfl
      | _ => exact ⟨s₀, .inl hs₀, hplace⟩
    · exact ⟨s₀, .inr (List.mem_cons_of_mem _ hs₀), hplace⟩

/-- An active seat was there before or was inserted, if none is activated. -/
theorem mem_seats_applyAll {db : Db} {ws : List Write} {s : Seat}
    (hws : ∀ id, .updateSeat id true ∉ ws) (h : s ∈ (db.applyAll ws).seats.rows)
    (hactive : s.isActive = true) : s ∈ db.seats.rows ∨ .insertSeat s ∈ ws := by
  induction ws generalizing db with
  | nil => exact .inl h
  | cons w ws ih =>
    rcases ih (fun id hid => hws id (List.mem_cons_of_mem _ hid)) h with hs | hs
    · cases w with
      | insertSeat s' =>
        rcases Table.mem_of_mem_insert hs with hs | rfl
        · exact .inl hs
        · exact .inr (List.mem_cons_self ..)
      | updateSeat id isActive =>
        simp only [Write.apply] at hs
        obtain ⟨a, ha, rfl⟩ := Table.mem_modify.mp hs
        split_ifs at hactive ⊢
        · obtain rfl : isActive = true := hactive
          exact absurd (List.mem_cons_self ..) (hws id)
        · exact .inl ha
      | _ => exact .inl hs
    · exact .inr (List.mem_cons_of_mem _ hs)

/-! ### A new booking -/

theorem bookingSeats_applyAll_inserts {db : Db} {rows : List BookingSeat}
    (hnodup : (rows.map BookingSeat.id).Nodup)
    (hfresh : ∀ bs ∈ rows, ∀ bs' ∈ db.bookingSeats.rows, bs'.id ≠ bs.id) :
    (db.applyAll (rows.map .insertBookingSeat)).bookingSeats.rows
      = db.bookingSeats.rows ++ rows := by
  have hfold : ∀ db : Db, (db.applyAll (rows.map .insertBookingSeat)).bookingSeats
      = rows.foldl Table.insert db.bookingSeats := by
    clear hnodup hfresh
    induction rows with
    | nil => exact fun _ => rfl
    | cons bs rows ih => exact fun db => ih _
  rw [hfold]
  exact Table.rows_foldl_insert hnodup hfresh

theorem seats_applyAll_inserts {db : Db} {rows : List Seat} (hnodup : (rows.map Seat.id).Nodup)
    (hfresh : ∀ s ∈ rows, ∀ s' ∈ db.seats.rows, s'.id ≠ s.id) :
    (db.applyAll (rows.map .insertSeat)).seats.rows = db.seats.rows ++ rows := by
  have hfold : ∀ db : Db, (db.applyAll (rows.map .insertSeat)).seats
      = rows.foldl Table.insert db.seats := by
    clear hnodup hfresh
    induction rows with
    | nil => exact fun _ => rfl
    | cons s rows ih => exact fun db => ih _
  rw [hfold]
  exact Table.rows_foldl_insert hnodup hfresh

/-- **A new booking** and its seats, with ids that are not taken, are appended. -/
theorem applyAll_newBooking {db : Db} {b : Booking} {rows : List BookingSeat}
    (hb : ∀ b' ∈ db.bookings.rows, b'.id ≠ b.id) (hnodup : (rows.map BookingSeat.id).Nodup)
    (hfresh : ∀ bs ∈ rows, ∀ bs' ∈ db.bookingSeats.rows, bs'.id ≠ bs.id) :
    (db.applyAll (.insertBooking b :: rows.map .insertBookingSeat)).bookings.rows
        = db.bookings.rows ++ [b] ∧
      (db.applyAll (.insertBooking b :: rows.map .insertBookingSeat)).bookingSeats.rows
        = db.bookingSeats.rows ++ rows := by
  rw [applyAll_cons]
  constructor
  · rw [bookings_applyAll _ (by simp [Write.table])]
    exact Table.rows_insert hb
  · exact bookingSeats_applyAll_inserts hnodup hfresh

/-- The new booking has the new seats. -/
theorem seatsOf_newBooking {db : Db} {b : Booking} {rows : List BookingSeat}
    (hnodup : (rows.map BookingSeat.id).Nodup)
    (hfresh : ∀ bs ∈ rows, ∀ bs' ∈ db.bookingSeats.rows, bs'.id ≠ bs.id)
    (hold : ∀ bs ∈ db.bookingSeats.rows, bs.bookingId ≠ b.id)
    (hnew : ∀ bs ∈ rows, bs.bookingId = b.id) :
    (db.applyAll (.insertBooking b :: rows.map .insertBookingSeat)).seatsOf b.id = rows := by
  have hrows : (db.applyAll (.insertBooking b :: rows.map .insertBookingSeat)).bookingSeats.rows
      = db.bookingSeats.rows ++ rows := bookingSeats_applyAll_inserts hnodup hfresh
  have hold' : db.bookingSeats.rows.filter (fun bs => bs.bookingId = b.id) = [] :=
    List.filter_eq_nil_iff.mpr fun bs hbs hid => hold bs hbs (of_decide_eq_true hid)
  have hnew' : rows.filter (fun bs => bs.bookingId = b.id) = rows :=
    List.filter_eq_self.mpr fun bs hbs => decide_eq_true (hnew bs hbs)
  rw [seatsOf, hrows, List.filter_append, hold', hnew', List.nil_append]

end Db

end BookingApi
