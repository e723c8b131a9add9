import BookingApi.Api.Run

/-!
# Whom a token authenticates

A user is registered once, by a signup or by the script (`RegisteredWith`), and keeps the password
whatever is done to the row later (`exists_registeredWith`).  A token that decodes was returned by a
login that verified it (`Issued`), so that the user whom a header authenticates is the one who
logged in, and has to be active now: `currentUser_iff`.
-/

namespace BookingApi.Api

open Async AuthService BookingService

variable (security : Security) (settings : Settings)

/-- The password of the user that a move may register. -/
def Move.password : Move → Option String
  | .serve ⟨_, .signup _ data⟩ => some data.password
  | .createAdmin _ _ password => some password
  | _ => none

/-- The user appeared in a move with this password. -/
def RegisteredWith (moves : List Move) (userId : ℤ) (password : String) : Prop :=
  ∃ move earlier, move :: earlier <:+ moves ∧ move.password = some password ∧
    (∀ user ∈ (run security settings .initial earlier).db.users.rows, user.id ≠ userId) ∧
    ∃ user ∈ (run security settings .initial (move :: earlier)).db.users.rows, user.id = userId

/-- A login returned the token. -/
def Issued (moves : List Move) (token : String) : Prop :=
  ∃ authorization data earlier, .serve ⟨authorization, .login data⟩ :: earlier <:+ moves ∧
    respond security settings .initial earlier ⟨authorization, .login data⟩ = .ok (.token token)

/-- A login of the user, with the password that the user was registered with, returned the token at
the given time. -/
def LoggedIn (moves : List Move) (userId : ℤ) (token : String) (time : Instant) : Prop :=
  ∃ authorization data earlier, .serve ⟨authorization, .login data⟩ :: earlier <:+ moves ∧
    (run security settings .initial earlier).now = time ∧
    respond security settings .initial earlier ⟨authorization, .login data⟩ = .ok (.token token) ∧
    RegisteredWith security settings earlier userId data.password ∧
    ∃ user, ((run security settings .initial earlier).db.users.rows.find?
      fun u => u.email = data.email) = some user ∧ user.id = userId

variable {security settings} {moves : List Move}

/-! ### Passwords -/

theorem RegisteredWith.cons {userId : ℤ} {password : String}
    (h : RegisteredWith security settings moves userId password) (move : Move) :
    RegisteredWith security settings (move :: moves) userId password := by
  obtain ⟨move', earlier, hsuffix, hrest⟩ := h
  exact ⟨move', earlier, hsuffix.trans (List.suffix_cons _ _), hrest⟩

/-- A move that inserts a user stores the hash of its password. -/
theorem hashedPassword_of_writes {move : Move} {user : User}
    (h : move.writes security (.insertUser user)) :
    ∃ salt password, move.password = some password ∧
      user.hashedPassword = security.hash salt password := by
  cases move with
  | env e => exact h.elim
  | createAdmin salt email password =>
    rcases h with ⟨user', huser, -, hhash⟩ | ⟨id, p, hupdate⟩
    · obtain rfl := Write.insertUser.inj huser
      exact ⟨salt, password, rfl, hhash⟩
    · cases hupdate
  | serve request =>
    obtain ⟨authorization, endpoint⟩ := request
    cases endpoint with
    | signup salt data =>
      obtain ⟨user', huser, -, hhash⟩ := h
      obtain rfl := Write.insertUser.inj huser
      exact ⟨salt, data.password, rfl, hhash⟩
    | updateUser userId data =>
      obtain ⟨id, p, hupdate⟩ := h
      cases hupdate
    | createHall | updateHall | deleteHall | createSeat | bulkCreateSeats | deleteSeat => cases h
    | createBooking | cancelBooking => rcases h with h | h <;> cases h
    | _ => exact h.elim

/-- **Every stored hash** is the one of the password that the user was registered with. -/
theorem exists_registeredWith {user : User}
    (h : user ∈ (run security settings .initial moves).db.users.rows) :
    ∃ salt password, user.hashedPassword = security.hash salt password ∧
      RegisteredWith security settings moves user.id password := by
  induction moves generalizing user with
  | nil => exact absurd h List.not_mem_nil
  | cons move moves ih =>
    obtain ⟨ws, hws, hdb⟩ :=
      exists_applyAll_run security settings World.pending_initial move moves
    have hmem := h
    rw [hdb] at hmem
    obtain ⟨user₀, hold, hid, hhash, -⟩ := Db.mem_users_applyAll hmem
    rcases hold with hold | ⟨hinsert, hfresh⟩
    · obtain ⟨salt, password, hhash₀, hreg⟩ := ih hold
      refine ⟨salt, password, hhash.trans hhash₀, ?_⟩
      rw [hid]
      exact hreg.cons move
    · obtain ⟨salt, password, hpassword, hhash₀⟩ := hashedPassword_of_writes (hws _ hinsert)
      refine ⟨salt, password, hhash.trans hhash₀, ?_⟩
      refine ⟨move, moves, List.suffix_rfl, hpassword, fun u hu => ?_, user, h, rfl⟩
      rw [hid]
      exact hfresh u hu

/-! ### Tokens -/

/-- The answer to a login. -/
theorem respond_login_iff {authorization : Option String} {data : LoginRequest} {token : String} :
    respond security settings .initial moves ⟨authorization, .login data⟩ = .ok (.token token) ↔
      ∃ user, ((run security settings .initial moves).db.users.rows.find?
          fun u => u.email = data.email) = some user ∧
        security.verify data.password user.hashedPassword = true ∧ user.isActive ∧
        token = createToken security settings (run security settings .initial moves).now user := by
  have hidle := writesOf_run security settings World.pending_initial moves moves.length
  rw [← run_login_eq_ok_iff hidle, respond, answer, serve_fst, Request.handler, asAnyone,
    Program.run_map]
  cases ((AuthService.login security settings (run security settings .initial moves).now data.email
    data.password).run (World.exec moves.length) (run security settings .initial moves)).1 with
  | error e => simp [Except.map]
  | ok token' => simp [Except.map]

/-- A token was made for the user who logged in. -/
theorem LoggedIn.token_eq {userId : ℤ} {token : String} {time : Instant}
    (h : LoggedIn security settings moves userId token time) :
    ∃ user : User, user.id = userId ∧ token = createToken security settings time user := by
  obtain ⟨authorization, data, earlier, -, rfl, hrespond, -, user, hfind, hid⟩ := h
  obtain ⟨user', hfind', -, -, htoken⟩ := respond_login_iff.mp hrespond
  obtain rfl := Option.some.inj (hfind.symm.trans hfind')
  exact ⟨user, hid, htoken⟩

/-- An issued token was returned to somebody who logged in. -/
theorem Issued.loggedIn {token : String} (h : Issued security settings moves token) :
    ∃ userId time, LoggedIn security settings moves userId token time := by
  obtain ⟨authorization, data, earlier, hsuffix, hrespond⟩ := h
  obtain ⟨user, hfind, hverify, -, -⟩ := respond_login_iff.mp hrespond
  obtain ⟨salt, password, hhash, hreg⟩ := exists_registeredWith (List.mem_of_find?_eq_some hfind)
  rw [hhash, security.verify_hash] at hverify
  subst hverify
  exact ⟨user.id, _, authorization, data, earlier, hsuffix, rfl, hrespond, hreg, user, hfind, rfl⟩

theorem subjectOf_tokenData (user : User) : subjectOf (tokenData user) = .ok user.id := by
  have hsub : (tokenData user).get "sub" = some (toString user.id) := rfl
  simp only [subjectOf, hsub, Python.parseInt_toString]

/-- What a token says that was made for a user. -/
theorem decode_createToken {now time : Instant} {user : User} {claims : Claims} :
    security.decode now (createToken security settings time user) = .ok claims ↔
      claims = tokenData user ∧ now < time + Security.accessTokenLifetime settings :=
  security.decode_encode now ⟨tokenData user, _⟩ claims

/-- **No token is two users'.** -/
theorem LoggedIn.unique {userId userId' : ℤ} {token : String} {time time' : Instant}
    (h : LoggedIn security settings moves userId token time)
    (h' : LoggedIn security settings moves userId' token time') : userId = userId' := by
  obtain ⟨user, rfl, htoken⟩ := h.token_eq
  obtain ⟨user', rfl, htoken'⟩ := h'.token_eq
  have hpayload := security.payload_eq_of_encode_eq (htoken.symm.trans htoken')
  have hdata : tokenData user = tokenData user' := congrArg Payload.claims hpayload
  have hsubject : subjectOf (tokenData user) = subjectOf (tokenData user') := by rw [hdata]
  rw [subjectOf_tokenData, subjectOf_tokenData] at hsubject
  exact Except.ok.inj hsubject

/-! ### The authenticated user -/

theorem answer_getCurrentUser_eq_ok_iff {now : Instant} {authorization : Option String}
    {user : User} :
    answer security settings .initial moves (getCurrentUser security now authorization) = .ok user ↔
      user ∈ (run security settings .initial moves).db.users.rows ∧ user.isActive ∧
        authenticatedId security now authorization = .ok user.id := by
  rw [answer, serve_fst]
  exact run_getCurrentUser_eq_ok_iff
    (writesOf_run security settings World.pending_initial moves moves.length)

theorem answer_getCurrentAdmin_eq_ok_iff {now : Instant} {authorization : Option String}
    {user : User} :
    answer security settings .initial moves (getCurrentAdmin security now authorization)
        = .ok user ↔
      answer security settings .initial moves (getCurrentUser security now authorization)
        = .ok user ∧ user.role = .admin := by
  rw [answer, answer, serve_fst, serve_fst]
  exact run_getCurrentAdmin_eq_ok_iff

/-- The id that a header authenticates is the one of the user who logged in. -/
theorem authenticatedId_iff {now : Instant} {token : String} (hspace : ' ' ∉ token.toList)
    (hissued : ∀ claims, security.decode now token = .ok claims →
      Issued security settings moves token) {userId : ℤ} :
    authenticatedId security now (some ("Bearer " ++ token)) = .ok userId ↔
      ∃ time, LoggedIn security settings moves userId token time ∧
        now < time + Security.accessTokenLifetime settings := by
  rw [authenticatedId_bearer hspace]
  constructor
  · rintro ⟨-, claims, hdecode, hsubject⟩
    obtain ⟨userId', time, hlogin⟩ := (hissued claims hdecode).loggedIn
    obtain ⟨user, rfl, htoken⟩ := hlogin.token_eq
    rw [htoken, decode_createToken] at hdecode
    obtain ⟨rfl, hlive⟩ := hdecode
    rw [subjectOf_tokenData] at hsubject
    obtain rfl := Except.ok.inj hsubject
    exact ⟨time, hlogin, hlive⟩
  · rintro ⟨time, hlogin, hlive⟩
    obtain ⟨user, rfl, htoken⟩ := hlogin.token_eq
    refine ⟨?_, tokenData user, ?_, subjectOf_tokenData user⟩
    · rw [htoken]
      exact security.encode_ne_empty _
    · rw [htoken, decode_createToken]
      exact ⟨rfl, hlive⟩

/-- **The acting user.**  If no token decodes that was not issued, a header with a token stands for
the user who logged in with the password of that user less than the lifetime of a token ago, as long
as the user is active now; the token is nobody else's, and an administrator is who has the role
now. -/
theorem currentUser_iff {token : String} (hspace : ' ' ∉ token.toList)
    (hissued : ∀ claims,
      security.decode (run security settings .initial moves).now token = .ok claims →
        Issued security settings moves token) (user : User) :
    (answer security settings .initial moves
        (getCurrentUser security (run security settings .initial moves).now
          (some ("Bearer " ++ token))) = .ok user ↔
      user ∈ (run security settings .initial moves).db.users.rows ∧ user.isActive ∧
        ∃ time, LoggedIn security settings moves user.id token time ∧
          (run security settings .initial moves).now
            < time + Security.accessTokenLifetime settings) ∧
    (answer security settings .initial moves
        (getCurrentAdmin security (run security settings .initial moves).now
          (some ("Bearer " ++ token))) = .ok user ↔
      (user ∈ (run security settings .initial moves).db.users.rows ∧ user.isActive ∧
        ∃ time, LoggedIn security settings moves user.id token time ∧
          (run security settings .initial moves).now
            < time + Security.accessTokenLifetime settings) ∧ user.role = .admin) ∧
    ∀ userId time, LoggedIn security settings moves userId token time →
      answer security settings .initial moves
        (getCurrentUser security (run security settings .initial moves).now
          (some ("Bearer " ++ token))) = .ok user → user.id = userId := by
  have huser : answer security settings .initial moves
        (getCurrentUser security (run security settings .initial moves).now
          (some ("Bearer " ++ token))) = .ok user ↔
      user ∈ (run security settings .initial moves).db.users.rows ∧ user.isActive ∧
        ∃ time, LoggedIn security settings moves user.id token time ∧
          (run security settings .initial moves).now
            < time + Security.accessTokenLifetime settings := by
    rw [answer_getCurrentUser_eq_ok_iff, authenticatedId_iff hspace hissued]
  refine ⟨huser, ?_, fun userId time hlogin h => ?_⟩
  · rw [answer_getCurrentAdmin_eq_ok_iff, huser]
  · obtain ⟨-, -, time', hlogin', -⟩ := huser.mp h
    exact hlogin'.unique hlogin

namespace Scenario

/-- The token of the administrator, who has logged in at the start. -/
def token : String := createToken .transparent BookingApi.settings 0 admin

def login : Request := ⟨none, .login ⟨"ann@example.com", "secret"⟩⟩

def loggedIn : List Move := [.serve login, .createAdmin "" "ann@example.com" "secret"]

end Scenario

open Scenario in
/-- The administrator acts with the token. -/
theorem currentUser_loggedIn :
    answer .transparent BookingApi.settings .initial loggedIn
      (getCurrentAdmin .transparent
        (run .transparent BookingApi.settings .initial loggedIn).now
        (some ("Bearer " ++ token))) = .ok admin := by
  have hspace : ' ' ∉ token.toList := by decide +kernel
  have hrespond : respond .transparent BookingApi.settings .initial
      [.createAdmin "" "ann@example.com" "secret"] login = .ok (.token token) := by decide +kernel
  have hfind : ((run .transparent BookingApi.settings .initial
      [.createAdmin "" "ann@example.com" "secret"]).db.users.rows.find?
        fun u => u.email = "ann@example.com") = some admin := by decide +kernel
  have hissued : Issued .transparent BookingApi.settings loggedIn token :=
    ⟨none, ⟨"ann@example.com", "secret"⟩, _, List.suffix_rfl, hrespond⟩
  refine (currentUser_iff hspace (fun _ _ => hissued) admin).2.1.mpr ⟨⟨?_, rfl, 0, ?_, ?_⟩, rfl⟩
  · decide +kernel
  · refine ⟨none, ⟨"ann@example.com", "secret"⟩, _, List.suffix_rfl, ?_, hrespond, ?_, admin,
      hfind, rfl⟩
    · decide +kernel
    · refine ⟨_, [], List.suffix_rfl, rfl, ?_, admin, ?_, rfl⟩
      · exact fun user hmem => absurd hmem List.not_mem_nil
      · decide +kernel
  · decide +kernel

end BookingApi.Api
