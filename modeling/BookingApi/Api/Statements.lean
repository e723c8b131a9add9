import BookingApi.Api.Rules
import BookingApi.BookingService.Queries
import BookingApi.Schemas.Patch
import BookingApi.Serial.SeatGrid

/-!
# The statements of the services

Each flush of a service keeps the constraints and takes its locks at the start of a transaction: the
tests that it makes (an email that nobody has, a position that is free, a hall that exists) are what
the constraints ask for, and its rows are numbered from the sequences.
-/

namespace BookingApi.Api

open Async BookingService HallService SeatService UserService Transaction

variable {w : World} {r : RequestId} {ws : List Write} {seqs : Sequences}

theorem valid_view (h : Inv w) (r : RequestId) : schema.Valid (w.view r).row := by
  rw [World.row_view]
  exact h.consistent.views r

/-- New rows under new ids. -/
theorem admissible_inserts (h : Inv w)
    (hseqs : ∀ name, w.sequences.next name ≤ seqs.next name)
    (hins : ∀ x ∈ ws, x.inserts = true)
    (hnew : ∀ x ∈ ws, w.sequences.next x.target.1 ≤ x.target.2 ∧
      x.target.2 < seqs.next x.target.1)
    (hlocks : w.writesOf r ≠ [] → ∀ x ∈ ws, x.claims = none)
    (hfree : ∀ x ∈ ws, ∀ v, x.claims = some v → ∀ key row, (w.view r).row key = some row →
      row.claim ≠ some v)
    (hdistinct : ∀ x ∈ ws, ∀ y ∈ ws, ∀ v, x.claims = some v → y.claims = some v →
      x.target = y.target)
    (hrefs : ∀ x ∈ ws, ∀ row key, x.act none = some row → key ∈ row.refs →
      (w.view r).row key ≠ none) : Admissible r w ws seqs where
  stageable :=
    { grows := Sequences.allocated_subset hseqs
      inserts := fun x hx _ => ⟨fun hlt => absurd (hnew x hx).1 (not_le.mpr hlt), (hnew x hx).2⟩
      updates := fun x hx hupdate => absurd ((hins x hx).symm.trans hupdate) (by simp)
      valid := by
        rw [← World.row_view]
        refine (valid_view h r).applyAll (fun x hx v hv key row hrow hc => ?_) hdistinct hrefs
        exact absurd hc (hfree x hx v hv key row hrow) }
  legal x hx id he := absurd (hins x hx) (by simp [he, Write.inserts])
  locks hopen x hx := ⟨hins x hx, hlocks hopen x hx⟩

/-- New rows without unique values. -/
theorem admissible_inserts_of_no_claims (h : Inv w)
    (hseqs : ∀ name, w.sequences.next name ≤ seqs.next name)
    (hins : ∀ x ∈ ws, x.inserts = true ∧ x.claims = none)
    (hnew : ∀ x ∈ ws, w.sequences.next x.target.1 ≤ x.target.2 ∧
      x.target.2 < seqs.next x.target.1)
    (hrefs : ∀ x ∈ ws, ∀ row key, x.act none = some row → key ∈ row.refs →
      (w.view r).row key ≠ none) : Admissible r w ws seqs := by
  refine admissible_inserts h hseqs (fun x hx => (hins x hx).1) hnew
    (fun _ x hx => (hins x hx).2) (fun x hx v hv => ?_) (fun x hx _ _ v hv => ?_) hrefs
  all_goals exact absurd (hv.symm.trans (hins x hx).2) (by simp)

/-- Updates of rows that exist, at the start of a transaction. -/
theorem admissible_updates (hidle : Closed r w) (hins : ∀ x ∈ ws, x.inserts = false)
    (hrows : ∀ x ∈ ws, w.db.row x.target ≠ none) (hlegal : ∀ x ∈ ws, x.Legal)
    (hvalid : schema.Valid (schema.applyAll w.db.row ws)) : Admissible r w ws w.sequences := by
  have hview : w.transactions.view schema r = w.db.row := by
    rw [← World.row_view, World.view_of_writesOf_nil hidle]
  refine ⟨⟨subset_rfl, fun x hx hinsert => ?_, fun x hx _ => ?_, ?_⟩, hlegal, fun hopen => ?_⟩
  · exact absurd ((hins x hx).symm.trans hinsert) (by simp)
  · rw [hview]
    exact hrows x hx
  · rw [hview]
    exact hvalid
  · exact absurd hidle hopen

/-- An update of a row that exists, which sets no unique column. -/
theorem admissible_update (h : Inv w) (hidle : Closed r w) {x : Write} (hins : x.inserts = false)
    (hrow : w.db.row x.target ≠ none) (hlegal : x.Legal) (hclaims : x.claims = none) :
    Admissible r w [x] w.sequences := by
  refine admissible_updates hidle ?_ ?_ ?_ (h.consistent.base.applyAll_of_no_claims ?_ ?_)
  all_goals
    intro y hy
    obtain rfl := List.mem_singleton.mp hy
    assumption

/-- No change at all. -/
theorem admissible_nil (h : Inv w) (hidle : Closed r w) : Admissible r w [] w.sequences :=
  admissible_updates hidle (by simp) (by simp) (by simp) h.consistent.base

/-! ### Users -/

theorem insertUser_eq_ok {email hashedPassword : String} {role : UserRole} {now : Instant}
    {seqs seqs' : Sequences} {db : Db} {id : ℤ}
    (h : insertUser email hashedPassword role now seqs db = (.ok (id, ws), seqs')) :
    id = seqs.users ∧
      ws = [.insertUser ⟨seqs.users, email, hashedPassword, role, true, now⟩] := by
  rw [insertUser] at h
  split_ifs at h
  · exact absurd (Prod.mk.inj h).1 (by simp)
  · obtain ⟨hid, hws⟩ := Prod.mk.inj (Except.ok.inj (Prod.mk.inj h).1)
    exact ⟨hid.symm, hws.symm⟩

theorem insertUser_eq_error {email hashedPassword : String} {role : UserRole} {now : Instant}
    {seqs seqs' : Sequences} {db : Db} {e : Exc}
    (h : insertUser email hashedPassword role now seqs db = (.error e, seqs')) :
    e = .integrityError := by
  rw [insertUser] at h
  split_ifs at h
  · exact (Except.error.inj (Prod.mk.inj h).1).symm
  · exact absurd (Prod.mk.inj h).1 (by simp)

theorem permits_insertUser (h : Inv w) (hidle : Closed r w) (email hashedPassword : String)
    (role : UserRole) : Permits r _ (.flush (insertUser email hashedPassword role)) w := by
  have hseqs (name : TableName) : w.sequences.next name
      ≤ (insertUser email hashedPassword role w.now w.sequences (w.view r)).2.next name := by
    rw [insertUser]
    split_ifs <;> cases name <;> simp [Sequences.next]
  refine ⟨hseqs, fun b ws hws => ?_⟩
  rw [insertUser] at hws hseqs ⊢
  split_ifs at hws hseqs ⊢ with htaken
  obtain ⟨-, rfl⟩ := Prod.mk.inj (Except.ok.inj hws)
  refine admissible_inserts h hseqs ?_ ?_ (fun hopen => absurd hidle hopen) ?_ ?_ ?_
  all_goals
    intro x hx
    obtain rfl := List.mem_singleton.mp hx
  · rfl
  · simp [Write.target, Sequences.next]
  · intro v hv key row hrow hc
    obtain rfl := Option.some.inj hv
    obtain ⟨u, hu, -, hemail⟩ := Db.exists_user_of_claim hrow hc
    exact htaken (List.any_eq_true.mpr ⟨u, hu, decide_eq_true hemail⟩)
  · intro y hy v hv hv'
    obtain rfl := List.mem_singleton.mp hy
    rfl
  · intro row key hact href
    cases hact
    exact absurd href List.not_mem_nil

/-- The `UPDATE` of a user raises nothing but an `IntegrityError`. -/
theorem updateLoadedUser_eq_error {userId : ℤ} {user : User} {data : UserUpdate} {now : Instant}
    {seqs seqs' : Sequences} {db : Db} {e : Exc}
    (h : updateLoadedUser userId data user now seqs db = (.error e, seqs')) :
    e = .integrityError := by
  rw [updateLoadedUser] at h
  cases hpatch : userPatch user data with
  | error e' =>
    rw [hpatch] at h
    exact Except.error.inj (Prod.mk.inj h).1 ▸ userPatch_eq_error hpatch
  | ok patch =>
    simp only [hpatch] at h
    split_ifs at h
    · exact (Except.error.inj (Prod.mk.inj h).1).symm
    · exact absurd (Prod.mk.inj h).1 (by simp)

/-- An update of a user who exists, with an email that nobody else has. -/
theorem admissible_updateUserRow (h : Inv w) (hidle : Closed r w) {userId : ℤ}
    (hrow : w.db.row (.users, userId) ≠ none) {patch : UserPatch}
    (hfree : emailTaken w.db userId patch = false) :
    Admissible r w (updateUserRow userId patch) w.sequences := by
  rw [updateUserRow]
  split_ifs
  · exact admissible_nil h hidle
  refine admissible_updates hidle ?_ ?_ ?_ (h.consistent.base.applyAll ?_ ?_ ?_)
  all_goals
    intro x hx
    obtain rfl := List.mem_singleton.mp hx
  · rfl
  · exact hrow
  · intro id he
    cases he
  · intro v hv key row hkey hc
    obtain ⟨email, hemail, rfl⟩ := Option.map_eq_some_iff.mp hv
    obtain ⟨u, hu, rfl, rfl⟩ := Db.exists_user_of_claim hkey hc
    by_contra hne
    have hid : u.id ≠ userId := fun hid => hne (congrArg _ hid)
    refine absurd (List.any_eq_true.mpr ⟨u, hu, ?_⟩) (Bool.eq_false_iff.mp hfree)
    exact decide_eq_true ⟨hid, hemail⟩
  · intro y hy v hv hv'
    obtain rfl := List.mem_singleton.mp hy
    rfl
  · intro row key hact
    cases hact

theorem permits_updateUser (h : Inv w) (hidle : Closed r w) {userId : ℤ}
    (hrow : w.db.row (.users, userId) ≠ none) (user : User) (data : UserUpdate) :
    Permits r _ (.flush (updateLoadedUser userId data user)) w := by
  refine ⟨fun _ => le_rfl, fun b ws hws => ?_⟩
  rw [updateLoadedUser] at hws
  cases hpatch : userPatch user data with
  | error e => simp [hpatch] at hws
  | ok patch =>
    simp only [hpatch, World.view_of_writesOf_nil hidle] at hws
    split_ifs at hws with htaken
    obtain ⟨-, rfl⟩ := Prod.mk.inj (Except.ok.inj hws)
    exact admissible_updateUserRow h hidle hrow (eq_false_of_ne_true htaken)

/-! ### Halls -/

theorem insertHall_eq_ok {name : String} {capacity : ℤ} {hourlyRate : Decimal} {now : Instant}
    {seqs seqs' : Sequences} {db : Db} {id : ℤ}
    (h : insertHall name capacity hourlyRate now seqs db = (.ok (id, ws), seqs')) :
    id = seqs.halls ∧
      ∃ rate, ws = [.insertHall ⟨seqs.halls, name, capacity, rate, true, now⟩] := by
  rcases insertHall_cases name capacity hourlyRate now seqs db with ⟨_, -, hs⟩ | ⟨rate, -, hs⟩
  · cases hs.symm.trans h
  · obtain ⟨hid, hws⟩ := Prod.mk.inj (Except.ok.inj (Prod.mk.inj (hs.symm.trans h)).1)
    exact ⟨hid.symm, rate, hws.symm⟩

theorem insertHall_eq_error {name : String} {capacity : ℤ} {hourlyRate : Decimal} {now : Instant}
    {seqs seqs' : Sequences} {db : Db} {e : Exc}
    (h : insertHall name capacity hourlyRate now seqs db = (.error e, seqs')) :
    e = .dbapiError := by
  rcases insertHall_cases name capacity hourlyRate now seqs db with ⟨_, -, hs⟩ | ⟨rate, -, hs⟩
  · exact (Except.error.inj (Prod.mk.inj (hs.symm.trans h)).1).symm
  · cases hs.symm.trans h

theorem permits_insertHall (h : Inv w) (name : String) (capacity : ℤ) (hourlyRate : Decimal) :
    Permits r _ (.flush (insertHall name capacity hourlyRate)) w := by
  rcases insertHall_cases name capacity hourlyRate w.now w.sequences (w.view r) with
    ⟨halls, hle, hs⟩ | ⟨rate, -, hs⟩
  · refine ⟨fun table => ?_, fun b ws hws => ?_⟩
    · rw [hs]
      cases table <;> simp [Sequences.next, hle]
    · rw [hs] at hws
      cases hws
  · have hseqs (table : TableName) : w.sequences.next table
        ≤ (insertHall name capacity hourlyRate w.now w.sequences (w.view r)).2.next table := by
      rw [hs]
      cases table <;> simp [Sequences.next]
    refine ⟨hseqs, fun b ws hws => ?_⟩
    rw [hs] at hws hseqs ⊢
    obtain ⟨-, rfl⟩ := Prod.mk.inj (Except.ok.inj hws)
    refine admissible_inserts_of_no_claims h hseqs ?_ ?_ ?_
    all_goals
      intro x hx
      obtain rfl := List.mem_singleton.mp hx
    · exact ⟨rfl, rfl⟩
    · simp [Write.target, Sequences.next]
    · intro row key hact href
      cases hact
      exact absurd href List.not_mem_nil

theorem admissible_updateHallRow (h : Inv w) (hidle : Closed r w) {hallId : ℤ}
    (hrow : w.db.row (.halls, hallId) ≠ none) (patch : HallPatch) :
    Admissible r w (updateHallRow hallId patch) w.sequences := by
  rw [updateHallRow]
  split_ifs
  · exact admissible_nil h hidle
  · exact admissible_update h hidle rfl hrow (fun id he => by cases he) rfl

theorem permits_updateHall (h : Inv w) (hidle : Closed r w) {hallId : ℤ}
    (hrow : w.db.row (.halls, hallId) ≠ none) (hall : Hall) (data : HallUpdate) :
    Permits r _ (.flush (updateLoadedHall hallId data hall)) w := by
  refine ⟨fun _ => le_rfl, fun b ws hws => ?_⟩
  rw [updateLoadedHall] at hws
  cases hpatch : hallPatch hall data with
  | error e => simp [hpatch] at hws
  | ok patch =>
    simp only [hpatch] at hws
    obtain ⟨-, rfl⟩ := Prod.mk.inj (Except.ok.inj hws)
    exact admissible_updateHallRow h hidle hrow patch

/-- A statement that updates at most one row, and raises nothing. -/
theorem permits_update (h : Inv w) (hidle : Closed r w) {x : Write} (hins : x.inserts = false)
    (hrow : w.db.row x.target ≠ none) (hlegal : x.Legal) (hclaims : x.claims = none)
    (changes : Bool) :
    Permits r _ (.flush fun _ seqs _ => (.ok ((), if changes then [x] else []), seqs)) w := by
  refine ⟨fun _ => le_rfl, fun b ws hws => ?_⟩
  obtain ⟨-, rfl⟩ := Prod.mk.inj (Except.ok.inj hws)
  cases changes with
  | false => exact admissible_nil h hidle
  | true => exact admissible_update h hidle hins hrow hlegal hclaims

/-! ### Seats -/

theorem insertSeats_eq_ok {hallId : ℤ} {positions : List (ℤ × ℤ)} {now : Instant}
    {seqs seqs' : Sequences} {db : Db} {ids : List ℤ}
    (h : insertSeats hallId positions now seqs db = (.ok (ids, ws), seqs')) :
    ids = (seatRows hallId seqs.seats positions).map Seat.id ∧
      ws = (seatRows hallId seqs.seats positions).map .insertSeat := by
  rw [insertSeats] at h
  split_ifs at h
  · obtain ⟨hids, hws⟩ := Prod.mk.inj (Except.ok.inj (Prod.mk.inj h).1)
    exact ⟨hids.symm, hws.symm⟩
  · exact absurd (Prod.mk.inj h).1 (by simp)

/-- A refusal: the hall is missing, a position is repeated, or one is taken. -/
theorem insertSeats_eq_error {hallId : ℤ} {positions : List (ℤ × ℤ)} {now : Instant}
    {seqs seqs' : Sequences} {db : Db} {e : Exc}
    (h : insertSeats hallId positions now seqs db = (.error e, seqs')) :
    e = .integrityError ∧ ((db.halls.find? hallId).isSome → positions.Nodup →
      positionTaken db hallId positions = true) := by
  rw [insertSeats] at h
  split_ifs at h with hok
  · exact absurd (Prod.mk.inj h).1 (by simp)
  · refine ⟨(Except.error.inj (Prod.mk.inj h).1).symm, fun hhall hnodup => ?_⟩
    by_contra htaken
    exact hok ⟨hhall, hnodup, htaken⟩

theorem permits_insertSeats (h : Inv w) (hidle : Closed r w) (hallId : ℤ)
    (positions : List (ℤ × ℤ)) : Permits r _ (.flush (insertSeats hallId positions)) w := by
  have hseqs (name : TableName) : w.sequences.next name
      ≤ (insertSeats hallId positions w.now w.sequences (w.view r)).2.next name := by
    rw [insertSeats]
    split_ifs <;> cases name <;> simp [Sequences.next]
  refine ⟨hseqs, fun b ws hws => ?_⟩
  rw [insertSeats] at hws hseqs ⊢
  split_ifs at hws hseqs ⊢ with hok
  obtain ⟨hhall, hnodup, htaken⟩ := hok
  obtain ⟨-, rfl⟩ := Prod.mk.inj (Except.ok.inj hws)
  have hpositions := Serial.positions_seatRows hallId w.sequences.seats positions
  refine admissible_inserts h hseqs ?_ ?_ (fun hopen => absurd hidle hopen) ?_ ?_ ?_
  all_goals
    intro x hx
    obtain ⟨s, hs, rfl⟩ := List.mem_map.mp hx
    obtain ⟨hid, hactive, hlow, hhigh⟩ := Serial.mem_seatRows hs
  · rfl
  · exact ⟨hlow, hhigh⟩
  · -- no seat has the position of a new one
    intro v hv key row hrow hc
    obtain rfl := Option.some.inj hv
    obtain ⟨s', hs', -, hhall', hrow', hnumber'⟩ := Db.exists_seat_of_claim hrow hc
    refine htaken (List.any_eq_true.mpr ⟨s', hs', decide_eq_true ⟨hhall'.trans hid, ?_⟩⟩)
    rw [← hpositions, hrow', hnumber']
    exact List.mem_map_of_mem hs
  · intro y hy v hv hv'
    obtain ⟨s', hs', rfl⟩ := List.mem_map.mp hy
    have hsame : (Unique.position s.hallId s.row s.number) = .position s'.hallId s'.row s'.number :=
      (Option.some.inj hv).trans (Option.some.inj hv').symm
    rw [Unique.position.injEq] at hsame
    rw [← hpositions] at hnodup
    rw [List.inj_on_of_nodup_map hnodup hs hs' (Prod.ext hsame.2.1 hsame.2.2)]
  · intro row key hact href
    cases hact
    obtain rfl := List.mem_singleton.mp href
    rw [hid, Db.row_halls_ne_none]
    exact Option.isSome_iff_exists.mp hhall

/-! ### Bookings -/

theorem permits_insertBooking (h : Inv w) (userId hallId : ℤ) (startTime endTime : Instant)
    (price : Decimal) (status : BookingStatus) :
    Permits r _ (.flush (insertBooking userId hallId startTime endTime price status)) w := by
  have hseqs (name : TableName) : w.sequences.next name
      ≤ (insertBooking userId hallId startTime endTime price status w.now w.sequences
        (w.view r)).2.next name := by
    rw [insertBooking]
    split
    · cases name <;> simp [Sequences.next]
    · split_ifs <;> cases name <;> simp [Sequences.next]
  refine ⟨hseqs, fun b ws hws => ?_⟩
  obtain ⟨booking, hid, huser, hhall, -, -, -, -, -, huserRow, hhallRow, -, rfl, hcounted⟩ :=
    insertBooking_eq_ok (Prod.ext hws rfl)
  refine admissible_inserts_of_no_claims h hseqs ?_ ?_ ?_
  all_goals
    intro x hx
    obtain rfl := List.mem_singleton.mp hx
  · exact ⟨rfl, rfl⟩
  · have hnext := congrArg Sequences.bookings hcounted
    exact ⟨hid.ge, hid.trans_lt ((lt_add_one _).trans_eq hnext.symm)⟩
  · intro row key hact href
    cases hact
    simp only [Row.refs, List.mem_cons, List.not_mem_nil, or_false] at href
    rcases href with rfl | rfl
    · rw [huser, Db.row_users_ne_none]
      exact Option.isSome_iff_exists.mp huserRow
    · rw [hhall, Db.row_halls_ne_none]
      exact Option.isSome_iff_exists.mp hhallRow

theorem permits_insertBookingSeats (h : Inv w) (bookingId : ℤ) (seatIds : List ℤ) :
    Permits r _ (.flush (insertBookingSeats bookingId seatIds)) w := by
  have hseqs (name : TableName) : w.sequences.next name
      ≤ (insertBookingSeats bookingId seatIds w.now w.sequences (w.view r)).2.next name := by
    rw [insertBookingSeats]
    split_ifs <;> cases name <;> simp [Sequences.next]
  refine ⟨hseqs, fun b ws hws => ?_⟩
  rw [insertBookingSeats] at hws hseqs ⊢
  split_ifs at hws hseqs ⊢ with hok
  obtain ⟨-, rfl⟩ := Prod.mk.inj (Except.ok.inj hws)
  refine admissible_inserts_of_no_claims h hseqs ?_ ?_ ?_
  all_goals
    intro x hx
    obtain ⟨bs, hbs, rfl⟩ := List.mem_map.mp hx
    obtain ⟨hlow, hhigh, hbooking, hseat⟩ := mem_bookingSeatRows hbs
  · exact ⟨rfl, rfl⟩
  · exact ⟨hlow, hhigh⟩
  · intro row key hact href
    cases hact
    simp only [Row.refs, List.mem_cons, List.not_mem_nil, or_false] at href
    rcases href with rfl | rfl
    · rw [hbooking, Db.row_bookings_ne_none]
      exact Option.isSome_iff_exists.mp hok.1
    · rw [Db.row_seats_ne_none]
      exact Option.isSome_iff_exists.mp (hok.2 _ hseat)

theorem permits_updateBookingStatus (h : Inv w) (hidle : Closed r w) {bookingId : ℤ}
    (hrow : w.db.row (.bookings, bookingId) ≠ none) :
    Permits r _ (.flush (updateBookingStatus bookingId .cancelled)) w :=
  permits_update h hidle (x := .updateBooking bookingId .cancelled) rfl hrow
    (fun id he => by cases he) rfl true

end BookingApi.Api
