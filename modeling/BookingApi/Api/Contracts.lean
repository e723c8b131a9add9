import BookingApi.Api.Promises

/-!
# Authentication and users under interference

What `get_db`, the dependencies of `app/core/dependencies.py` and the services for users ensure
while other requests run: a row that a service has just written or looked up is there when it is
loaded again.
-/

namespace BookingApi.Api

open Async BookingService HallService SeatService UserService

variable {faults : Faults} {r : RequestId} {E : Failures} {α β : Type} {w t : World}
  {ok : α → World → Prop}

/-! ### The end of a transaction -/

/-- A handler inside `get_db`: the transaction is closed in any case, and a result is committed. -/
theorem ensures_getDb {p : App α} {P : α → Db → Prop}
    (hP : ∀ a, Lasting (P a))
    (h : Meets faults r E (fun a t => P a (t.view r)) p w) :
    (getDb p).Ensures (protocol faults) r
      (fun res t => Closed r t ∧ Ends (faults r) E (fun a t => P a t.db) res t) w := by
  -- a rollback closes the transaction even if it fails
  have hrollback {e : Exc} {t : World} (he : E.may e t.db ∨ ∃ f, faults r f ∧ f.Raises e) :
      ((Program.perform .rollback : App Unit).bind fun _ => (.raise e : App α)).Ensures
        (protocol faults) r
        (fun res t => Closed r t ∧ Ends (faults r) E (fun a t => P a t.db) res t) t := by
    refine fun t' hrely ht' => ⟨trivial, fun res u hout => ?_⟩
    rcases hout with hout | ⟨f, e', hfaults, hf, rfl⟩
    · rw [Prod.ext_iff] at hout
      obtain ⟨rfl, rfl⟩ := hout
      intro u hrely' _
      refine ⟨(closed_close t' r).of_rely hrely', ?_⟩
      exact he.imp_left fun he => E.lasts (hrely.later.trans hrely'.later) he
    · intro v hrely' _
      have hclosed : Closed r u := by
        cases f <;> cases hf
        exact closed_close t' r
      exact ⟨hclosed.of_rely hrely', .inr ⟨f, hfaults, World.raises_of_fault hf⟩⟩
  refine .tryCatch (.bind (Program.Ensures.mono h fun res t ht hend => ?_))
  cases res with
  | error e => exact hrollback hend
  | ok a =>
    refine fun t' hrely ht' => ⟨trivial, fun res u hout => ?_⟩
    rcases hout with hout | ⟨f, e, hfaults, hf, rfl⟩
    · rw [Prod.ext_iff] at hout
      obtain ⟨rfl, rfl⟩ := hout
      intro u hrely' _
      exact ⟨(closed_commit t' r).of_rely hrely',
        hP a hrely'.later (hP a hrely.later_view hend)⟩
    · refine fun v hrely' _ => hrollback (.inr ⟨f, hfaults, World.raises_of_fault hf⟩)

/-! ### Authentication -/

/-- The objects of the session were rows at some point. -/
def SessionRecorded (session : Session) (db : Db) : Prop :=
  ∀ b ∈ session.bookings, db.Records (.bookings, b.id) (.booking b)

theorem lasting_sessionRecorded (session : Session) : Lasting (SessionRecorded session) :=
  .forall_mem fun _ => lasting_records _ _

theorem records_of_mem_bookings {db : Db} {b : Booking} (h : b ∈ db.bookings.rows) :
    db.Records (.bookings, b.id) (.booking b) :=
  Db.records_of_row (Db.row_bookings_eq_some.mpr (Table.find?_eq_some_iff.mpr ⟨h, rfl⟩))

theorem sessionRecorded_load (userId : ℤ) (db : Db) : SessionRecorded (.load userId db) db :=
  fun _ hb => records_of_mem_bookings (Session.bookings_load_subset userId db hb)

/-- The object for a row was one as well. -/
theorem SessionRecorded.booking {session : Session} {db : Db} (h : SessionRecorded session db)
    {row : Booking} (hrow : row ∈ db.bookings.rows) :
    db.Records (.bookings, row.id) (.booking (session.booking row)) := by
  rcases identityMap_cases session.bookings row with ⟨-, heq⟩ | ⟨hmem, -⟩
  · rw [Session.booking, heq]
    exact records_of_mem_bookings hrow
  · rw [← session.id_booking row]
    exact h _ hmem

theorem meets_loadCurrentUser {security : Security} {now : Instant}
    {authorization : Option String} {ok : User × Session → World → Prop} (hidle : Closed r w)
    (hE : ∀ e db, AuthenticationError security now authorization e → E.may e db)
    (hok : ∀ user session t, Rely r w t → Inv t → user ∈ t.db.users.rows →
      SessionRecorded session t.db → Stably r (ok (user, session)) t) :
    Meets faults r E ok (loadCurrentUser security now authorization) w := by
  refine .bind (meets_ofExcept (fun userId _ => Meets.stably ?_) fun e he =>
    hE e _ (.inl he))
  refine meets_execute_bind fun t hrely ht => ?_
  rw [hrely.view_of_idle hidle, selectCurrentUser]
  cases hfind : t.db.users.find? userId with
  | none => exact meets_raise (hE _ _ (.inr (by simp)))
  | some user =>
    show Meets faults r E ok (if ¬ user.isActive then _ else _) t
    split_ifs
    · exact meets_ret (hok user _ t hrely ht (Table.find?_eq_some_iff.mp hfind).1
        (sessionRecorded_load userId t.db))
    · exact meets_raise (hE _ _ (.inr (by simp)))

theorem meets_getCurrentUser {security : Security} {now : Instant}
    {authorization : Option String} {ok : User → World → Prop} (hidle : Closed r w)
    (hE : ∀ e db, AuthenticationError security now authorization e → E.may e db)
    (hok : ∀ user t, Rely r w t → Inv t → Stably r (ok user) t) :
    Meets faults r E ok (getCurrentUser security now authorization) w :=
  .bind (meets_loadCurrentUser hidle hE fun user _ t hrely ht _ _ =>
    Meets.stably (meets_ret (hok user t hrely ht)))

/-- A route for users. -/
theorem meets_asUser {security : Security} {now : Instant} {authorization : Option String}
    {P : Response → Db → Prop} (hP : ∀ response, Lasting (P response))
    {p : User → Session → App α} {respond : α → Response} (hidle : Closed r w)
    (hp : ∀ user session t, Inv t → Closed r t → user ∈ t.db.users.rows →
      SessionRecorded session (t.view r) →
        Meets faults r E (fun a t => P (respond a) (t.view r)) (p user session) t) :
    Meets faults r (E.asUser (AuthenticationError security now authorization))
      (fun response t => P response (t.view r))
      (asUser security now authorization p respond) w := by
  refine .bind (meets_loadCurrentUser hidle (fun e db he => .inl he)
    fun user session t hrely ht huser hsession => Meets.stably ?_)
  refine .map (Meets.weaken ?_ fun e db he => .inr he)
  rw [← hrely.view_of_idle hidle] at hsession
  exact (hp user session t ht (hidle.of_rely hrely) huser hsession).mono
    fun a t _ ha => (hP _).stably ha

/-- A route for administrators. -/
theorem meets_asAdmin {security : Security} {now : Instant} {authorization : Option String}
    {P : Response → Db → Prop} (hP : ∀ response, Lasting (P response)) {p : App α}
    {respond : α → Response} (hidle : Closed r w)
    (hp : ∀ t, Inv t → Closed r t →
      Meets faults r E (fun a t => P (respond a) (t.view r)) p t) :
    Meets faults r (E.asAdmin (AuthenticationError security now authorization))
      (fun response t => P response (t.view r))
      (asAdmin security now authorization p respond) w := by
  refine .bind (.bind (meets_getCurrentUser hidle (fun e db he => .inl he)
    fun user t hrely ht => Meets.stably ?_))
  show Meets faults r _ _ (if _ then _ else _) t
  split_ifs
  · exact meets_raise (.inr (.inl rfl))
  · refine meets_ret fun t' hrely' ht' => .map (Meets.weaken ?_ fun e db he => .inr (.inr he))
    exact (hp t' ht' (hidle.of_rely (hrely.trans hrely'))).mono
      fun a t _ ha => (hP _).stably ha

/-! ### Users -/

theorem meets_refreshUser {ok : User → World → Prop} {userId : ℤ}
    (hrow : ∀ t, Rely r w t → Inv t → ∃ user, (t.view r).users.find? userId = some user)
    (hok : ∀ user t, Rely r w t → Inv t → (t.view r).users.find? userId = some user →
      Stably r (ok user) t) : Meets faults r E ok (refreshUser userId) w := by
  refine meets_execute_bind fun t hrely ht => ?_
  obtain ⟨user, huser⟩ := hrow t hrely ht
  rw [huser]
  exact meets_ret (hok user t hrely ht huser)

/-- A new user, who is there until the end of the request. -/
theorem meets_insertUser_refreshUser (hidle : Closed r w) (email hashedPassword : String)
    (role : UserRole) (hE : ∀ db, E.may .integrityError db) :
    Meets faults r E (fun user t => (user.email = email ∧ user.role = role) ∧
        Registered hashedPassword user.id (t.view r))
      ((flush (insertUser email hashedPassword role)).bind refreshUser) w := by
  refine meets_flush_bind fun t hrely ht => ?_
  have hidle' := hidle.of_rely hrely
  have hpermits := permits_insertUser ht hidle' email hashedPassword role
  refine ⟨hpermits, fun userId ws seqs hs => ?_, fun e seqs hs => ?_⟩
  · have hws := hpermits.2 userId ws (by rw [hs])
    rw [hs] at hws
    obtain ⟨rfl, rfl⟩ := insertUser_eq_ok hs
    have hfind {t' : World} (hrely' : Rely r ((t.setSequences seqs).stage r _) t') :=
      Db.row_users_eq_some.mp
        (hrely'.row_of_new ht hws (List.nodup_singleton _) (List.mem_singleton_self _) rfl)
    refine meets_refreshUser (fun t' hrely' _ => ⟨_, hfind hrely'⟩)
      fun user t' hrely' _ huser => ?_
    obtain rfl := Option.some.inj ((hfind hrely').symm.trans huser)
    intro t'' hrely'' _
    have hrecords := Db.records_of_row (Db.row_users_eq_some.mpr huser)
    exact ⟨⟨rfl, rfl⟩, lasting_registered _ _ hrely''.later_view ⟨_, hrecords, rfl⟩⟩
  · rw [insertUser_eq_error hs]
    exact hE t.db

theorem meets_signup (hidle : Closed r w) (hashPassword : String → String)
    (email password : String) :
    Meets faults r (.among [.unauthorizedError "Email already registered", .integrityError])
      (fun user t => (user.email = email ∧ user.role = .user) ∧
        Registered (hashPassword password) user.id (t.view r))
      (UserService.signup hashPassword email password) w := by
  have hregister : Meets faults r
      (.among [.valueError "Email already registered", .integrityError])
      (fun user t => (user.email = email ∧ user.role = .user) ∧
        Registered (hashPassword password) user.id (t.view r))
      (registerUser hashPassword email password .user) w := by
    refine meets_execute_bind fun t hrely ht => ?_
    cases (t.view r).users.rows.find? fun u => u.email = email with
    | some user => exact meets_raise (List.mem_cons_self ..)
    | none =>
      exact meets_insertUser_refreshUser (hidle.of_rely hrely) email _ .user fun _ =>
        List.mem_cons_of_mem _ (List.mem_cons_self ..)
  refine hregister.tryCatch fun e t ht he => ?_
  rcases he with he | ⟨f, hfaults, hraises⟩
  · rcases List.mem_cons.mp he with rfl | he
    · exact meets_raise (List.mem_cons_self ..)
    · obtain rfl := List.mem_singleton.mp he
      exact meets_raise (List.mem_cons_of_mem _ (List.mem_cons_self ..))
  · rcases hraises.cases with rfl | rfl | rfl | rfl
    all_goals exact fun _ _ _ => .inr ⟨f, hfaults, hraises⟩

theorem meets_authenticateUser {ok : User → World → Prop} (security : Security)
    (email password : String)
    (hpassword : ∀ db, E.may (.unauthorizedError "Invalid email or password") db)
    (hinactive : ∀ db, E.may (.unauthorizedError "User is inactive") db)
    (hok : ∀ user t, ok user t) :
    Meets faults r E ok (AuthService.authenticateUser security email password) w := by
  refine meets_execute_bind fun t hrely ht => ?_
  cases (t.view r).users.rows.find? fun u => u.email = email with
  | none => exact meets_raise (hpassword t.db)
  | some user =>
    show Meets faults r E ok (if _ then _ else if _ then _ else _) t
    split_ifs
    · exact meets_ret fun _ _ _ => hok _ _
    · exact meets_raise (hinactive t.db)
    · exact meets_raise (hpassword t.db)

theorem meets_login {ok : String → World → Prop} (security : Security) (settings : Settings)
    (now : Instant) (email password : String) (hok : ∀ token t, ok token t) :
    Meets faults r (.among [.unauthorizedError "Invalid email or password",
      .unauthorizedError "User is inactive"]) ok
      (AuthService.login security settings now email password) w := by
  have hauthenticate : Meets faults r (.among [.unauthorizedError "Invalid email or password",
      .unauthorizedError "User is inactive"]) (fun _ _ => True)
      (AuthService.authenticateUser security email password) w :=
    meets_authenticateUser security email password (fun _ => List.mem_cons_self ..)
      (fun _ => List.mem_cons_of_mem _ (List.mem_cons_self ..)) fun _ _ => trivial
  refine Meets.tryCatch (.bind (hauthenticate.mono fun user t _ _ =>
    meets_ret fun _ _ _ => hok _ _)) fun e t ht he => ?_
  -- whatever was raised becomes one of the two
  rcases he with he | ⟨f, -, hraises⟩
  · rcases List.mem_cons.mp he with rfl | he
    · exact meets_raise (List.mem_cons_self ..)
    · obtain rfl := List.mem_singleton.mp he
      exact meets_raise (List.mem_cons_of_mem _ (List.mem_cons_self ..))
  · rcases hraises.cases with rfl | rfl | rfl | rfl
    all_goals exact meets_raise (List.mem_cons_self ..)

/-- A page of a list: valid parameters give no negative offset. -/
theorem limitOffset_eq_ok (pagination : PaginationParams) (rows : List α) :
    ∃ page, limitOffset ((pagination.page - 1) * pagination.pageSize) pagination.pageSize rows
      = .ok page := by
  have hoffset : ¬ ((pagination.page - 1) * pagination.pageSize < 0 ∨ pagination.pageSize < 0) := by
    have hpage := pagination.page_ge
    have hsize := pagination.pageSize_ge
    have hnonneg : 0 ≤ (pagination.page - 1) * pagination.pageSize :=
      mul_nonneg (by omega) (by omega)
    omega
  exact ⟨_, if_neg hoffset⟩

/-- The rows of a page are rows of the list. -/
theorem mem_of_limitOffset {offset limit : ℤ} {rows page : List α} {a : α}
    (h : limitOffset offset limit rows = .ok page) (ha : a ∈ page) : a ∈ rows := by
  rw [limitOffset] at h
  split_ifs at h
  obtain rfl := Except.ok.inj h
  exact List.mem_of_mem_drop (List.mem_of_mem_take ha)

theorem userRecorded_ofUser {db : Db} {user : User} (h : user ∈ db.users.rows) :
    UserRecorded (.ofUser user) db :=
  ⟨user, Db.records_of_row (Db.row_users_eq_some.mpr (Table.find?_eq_some_iff.mpr ⟨h, rfl⟩)), rfl⟩

theorem meets_listUsersRoute (pagination : PaginationParams) :
    Meets faults r E (fun page t => ∀ user ∈ page.items, UserRecorded user (t.view r))
      (listUsersRoute pagination) w := by
  refine .bind (meets_execute_bind fun t _ _ => meets_execute_bind fun t' _ _ => ?_)
  obtain ⟨page, hpage⟩ := limitOffset_eq_ok pagination
    ((t'.view r).users.rows.mergeSort fun u u' => u.id ≤ u'.id)
  rw [hpage]
  refine meets_ret fun t'' hrely _ => meets_ret (Lasting.stably (P := fun db =>
    ∀ user ∈ page.map UserResponse.ofUser, UserRecorded user db)
    (.forall_mem fun user => lasting_userRecorded user) fun user huser => ?_)
  obtain ⟨u, hu, rfl⟩ := List.mem_map.mp huser
  have hmem := List.mem_mergeSort.mp (mem_of_limitOffset hpage hu)
  exact lasting_userRecorded _ hrely.later_view (userRecorded_ofUser hmem)

theorem meets_getUserRoute (userId : ℤ) :
    Meets faults r (.among [.userNotFound])
      (fun user t => user.id = userId ∧ UserRecorded user (t.view r)) (getUserRoute userId) w := by
  refine meets_execute_bind fun t hrely ht => ?_
  cases hfind : (t.view r).users.find? userId with
  | none => exact meets_raise (List.mem_cons_self ..)
  | some user =>
    obtain ⟨hmem, hid⟩ := Table.find?_eq_some_iff.mp hfind
    exact meets_ret (Lasting.stably (.and (lasting_const _) (lasting_userRecorded _))
      ⟨hid, userRecorded_ofUser hmem⟩)

theorem meets_updateUser (hidle : Closed r w) (userId : ℤ) (data : UserUpdate) :
    Meets faults r (.among [.userNotFound, .integrityError])
      (fun user t => user.id = userId ∧ UserRecorded (.ofUser user) (t.view r))
      (UserService.updateUser userId data) w := by
  refine meets_execute_bind fun t hrely ht => ?_
  have hidle₁ := hidle.of_rely hrely
  rw [hrely.view_of_idle hidle]
  cases hfind : t.db.users.find? userId with
  | none => exact meets_raise (List.mem_cons_self ..)
  | some user =>
    refine meets_flush_bind fun t' hrely' ht' => ?_
    have hrow : t'.db.row (.users, userId) ≠ none :=
      hrely'.later.row_ne_none (Db.row_users_ne_none.mpr ⟨user, hfind⟩)
    refine ⟨permits_updateUser ht' (hidle₁.of_rely hrely') hrow user data, fun _ ws seqs hs => ?_,
      fun e seqs hs => ?_⟩
    · refine meets_refreshUser (fun t'' hrely'' _ => Db.row_users_ne_none.mp ?_)
        fun user' t'' hrely'' _ huser' => ?_
      · refine hrely''.later_view.row_ne_none (row_view_stage_ne_none ?_)
        rwa [hrely'.view_of_idle hidle₁]
      · obtain ⟨hmem, hid⟩ := Table.find?_eq_some_iff.mp huser'
        exact Lasting.stably (.and (lasting_const _) (lasting_userRecorded _))
          ⟨hid, userRecorded_ofUser hmem⟩
    · rw [updateLoadedUser_eq_error hs]
      exact List.mem_cons_of_mem _ (List.mem_cons_self ..)

end BookingApi.Api
