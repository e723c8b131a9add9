import BookingApi.Api.CreateContracts

/-!
# Every handler under interference

What each route (`meets_handler`) and the script that creates an administrator
(`ensures_createAdmin`) ensure while other requests run, assembled from what their services ensure.
-/

namespace BookingApi.Api

open Async BookingService HallService SeatService UserService

variable {faults : Faults} {r : RequestId} {E : Failures} {α : Type} {w : World}

/-- A route that anyone may call. -/
theorem meets_asAnyone {P : Response → Db → Prop} (hP : ∀ response, Lasting (P response))
    {p : App α} {respond : α → Response}
    (hp : Meets faults r E (fun a t => P (respond a) (t.view r)) p w) :
    Meets faults r E (fun response t => P response (t.view r)) (asAnyone p respond) w :=
  .map (hp.mono fun _ _ _ ha => (hP _).stably ha)

/-- **Every route** keeps the protocol, raises only what it may, and has the effect that its
response says. -/
theorem meets_handler (security : Security) (settings : Settings) (now : Instant)
    (hidle : Closed r w) (request : Request) :
    Meets faults r (request.failures security settings now)
      (fun response t => request.endpoint.effect security response (t.view r))
      (request.handler security settings now) w := by
  obtain ⟨authorization, endpoint⟩ := request
  have hP := endpoint.lasting_effect security
  cases endpoint with rw [Request.handler]
  | signup salt data =>
    exact meets_asAnyone hP (meets_signup hidle (security.hash salt) data.email data.password)
  | login data =>
    exact meets_asAnyone hP
      (meets_login security settings now data.email data.password fun _ _ => trivial)
  | getCurrentUserProfile =>
    exact meets_asUser hP hidle fun user _ t _ hclosed huser _ =>
      meets_ret ((lasting_userRecorded _).stably
        (by rw [World.view_of_writesOf_nil hclosed]; exact userRecorded_ofUser huser))
  | listUsers pagination =>
    exact meets_asAdmin hP hidle fun t _ _ => meets_listUsersRoute pagination
  | getUser userId => exact meets_asAdmin hP hidle fun t _ _ => meets_getUserRoute userId
  | updateUser userId data =>
    exact meets_asAdmin hP hidle fun t _ hclosed => meets_updateUser hclosed userId data
  | listHalls => exact meets_asUser hP hidle fun _ _ t _ _ _ _ => meets_listHalls
  | getHall hallId => exact meets_asUser hP hidle fun _ _ t _ _ _ _ => meets_getHall hallId
  | createHall data => exact meets_asAdmin hP hidle fun t _ _ => meets_createHall data
  | updateHall hallId data =>
    exact meets_asAdmin hP hidle fun t _ hclosed => meets_updateHall hclosed hallId data
  | deleteHall hallId =>
    exact meets_asAdmin hP hidle fun t _ hclosed => meets_deleteHall hclosed hallId
  | listSeats hallId =>
    exact meets_asUser hP hidle fun _ _ t _ hclosed _ _ => meets_listSeats hclosed hallId
  | createSeat hallId data =>
    exact meets_asAdmin hP hidle fun t _ hclosed =>
      meets_createSeat hclosed hallId data.row data.number
  | bulkCreateSeats hallId data =>
    exact meets_asAdmin hP hidle fun t _ hclosed =>
      meets_bulkCreateSeats hclosed hallId data.rows data.seatsPerRow
  | deleteSeat hallId seatId =>
    exact meets_asAdmin hP hidle fun t _ hclosed => meets_deleteSeat hclosed hallId seatId
  | listBookings pagination =>
    exact meets_asUser hP hidle fun user _ t _ _ _ hsession =>
      meets_listBookingsRoute hsession user.id pagination
  | getBooking bookingId =>
    exact meets_asUser hP hidle fun user _ t _ _ _ hsession =>
      meets_getBookingRoute hsession bookingId user.id
  | createBooking data token =>
    exact meets_asUser hP hidle fun user session t _ hclosed huser _ =>
      meets_createBookingRoute session settings hclosed
        (Db.row_users_ne_none.mpr ⟨user, Table.find?_eq_some_iff.mpr ⟨huser, rfl⟩⟩) data token.text
  | cancelBooking bookingId =>
    exact meets_asUser hP hidle fun user _ t _ hclosed _ hsession =>
      meets_cancelBookingRoute hclosed hsession bookingId user.id
  | getAvailability hallId date =>
    exact meets_asUser hP hidle fun _ _ t _ _ _ _ =>
      meets_getAvailabilityRoute settings hallId date fun _ _ => trivial

/-- So does a request that the rate limiter turns away: it never returns. -/
theorem meets_limited (security : Security) (now : Instant) (hidle : Closed r w)
    (request : Request) :
    Meets faults r (request.limitFailures security now) (fun _ _ => False)
      (request.limited security now) w := by
  have hP (_ : Response) : Lasting fun _ => False := lasting_const False
  have hraise (t : World) :
      Meets faults r (.among [.rateLimitExceeded]) (fun (_ : Response) _ => False)
        (.raise .rateLimitExceeded) t :=
    meets_raise (List.mem_cons_self ..)
  unfold Request.limitFailures Request.limited
  cases request.endpoint.access with
  | anyone => exact meets_asAnyone hP (hraise w)
  | user => exact meets_asUser hP hidle fun _ _ t _ _ _ _ => hraise t
  | admin => exact meets_asAdmin hP hidle fun t _ _ => hraise t

/-! ### The script -/

/-- A commit, and what follows it. -/
theorem meets_commit_bind {ok : α → World → Prop} {f : Unit → App α}
    (h : ∀ t, Rely r w t → Inv t → Meets faults r E ok (f ()) (t.commit r)) :
    Meets faults r E ok ((Program.perform .commit).bind f) w :=
  meets_call fun t hrely ht =>
    ⟨trivial, h t hrely ht, fun _ _ _ hfaults hf => meets_raise_of_fault hfaults hf⟩

theorem meets_commit :
    Meets faults r E (fun _ _ => True) (Program.perform .commit : App Unit) w :=
  meets_call fun _ _ _ =>
    ⟨trivial, fun _ _ _ => trivial, fun _ _ _ hfaults hf => meets_raise_of_fault hfaults hf⟩

/-- Without an email nobody's email is taken. -/
theorem emailTaken_none (db : Db) (userId : ℤ) (role : Option UserRole) (isActive : Option Bool) :
    emailTaken db userId ⟨none, role, isActive⟩ = false := by
  simp [emailTaken]

/-- An administrator is new, or was a user before; nothing but a user who takes the email in between
makes the script fail. -/
theorem meets_createAdmin_body (hidle : Closed r w) (hashPassword : String → String)
    (email password : String) :
    Meets faults r (.among [.integrityError]) (fun _ _ => True)
      (do
        match ← execute fun db => db.users.rows.find? fun u => u.email = email with
        | some existingUser =>
          flush (promoteUser existingUser)
          Program.perform .commit
        | none =>
          let userId ← flush (insertUser email (hashPassword password) .admin)
          Program.perform .commit
          let _ ← refreshUser userId) w := by
  refine meets_execute_bind fun t hrely _ => ?_
  have hidle₁ := hidle.of_rely hrely
  rw [hrely.view_of_idle hidle]
  cases hfind : t.db.users.rows.find? fun u => u.email = email with
  | some user =>
    have hrow : t.db.row (.users, user.id) ≠ none := Db.row_users_ne_none.mpr
      ⟨user, Table.find?_eq_some_iff.mpr ⟨List.mem_of_find?_eq_some hfind, rfl⟩⟩
    refine meets_flush_bind fun t' hrely' ht' => ⟨⟨fun _ => le_rfl, fun _ ws hws => ?_⟩,
      fun _ _ _ _ => meets_commit, fun e seqs hs => by cases (Prod.mk.inj hs).1⟩
    obtain rfl := (Prod.mk.inj (Except.ok.inj hws)).2
    exact admissible_updateUserRow ht' (hidle₁.of_rely hrely') (hrely'.later.row_ne_none hrow)
      (emailTaken_none _ _ _ _)
  | none =>
    refine meets_flush_bind fun t' hrely' ht' => ?_
    have hpermits := permits_insertUser ht' (hidle₁.of_rely hrely') email (hashPassword password)
      .admin
    refine ⟨hpermits, fun userId ws seqs hs => ?_, fun e seqs hs => ?_⟩
    · have hws := hpermits.2 userId ws (by rw [hs])
      rw [hs] at hws
      obtain ⟨rfl, rfl⟩ := insertUser_eq_ok hs
      refine meets_commit_bind fun u hu _ => .bind (meets_refreshUser (fun v hv _ => ?_)
        fun _ v _ _ _ => Meets.stably (meets_ret fun _ _ _ => trivial))
      -- the commit has made the new user a row, and no row is ever removed
      have hrow := hu.row_of_new ht' hws (List.nodup_singleton _) (List.mem_singleton_self _) rfl
      have hcommitted : (u.commit r).view r = u.view r :=
        World.view_of_writesOf_nil (closed_commit u r)
      refine Db.row_users_ne_none.mp (hv.later_view.row_ne_none ?_)
      rw [hcommitted]
      exact fun hnone => by cases hrow.symm.trans hnone
    · rw [insertUser_eq_error hs]
      exact List.mem_singleton_self _

theorem ensures_createAdmin (hidle : Closed r w) (hashPassword : String → String)
    (email password : String) :
    (createAdmin hashPassword email password).Ensures (protocol faults) r
      (fun res t => Closed r t ∧ Ends (faults r) (.among [.integrityError]) (fun _ _ => True) res t)
      w := by
  refine .tryFinally (Program.Ensures.mono
    (meets_createAdmin_body hidle hashPassword email password) fun res t _ hend => ?_)
  refine fun t' _ _ => ⟨trivial, fun res' u hout => ?_⟩
  rcases hout with hout | ⟨f, e, hfaults, hf, rfl⟩
  · rw [Prod.ext_iff] at hout
    obtain ⟨rfl, rfl⟩ := hout
    intro v hrely _
    refine ⟨(closed_close t' r).of_rely hrely, ?_⟩
    cases res <;> exact hend
  · intro v hrely _
    have hclosed : Closed r u := by
      cases f <;> cases hf
      exact closed_close t' r
    exact ⟨hclosed.of_rely hrely, .inr ⟨f, hfaults, World.raises_of_fault hf⟩⟩

end BookingApi.Api
