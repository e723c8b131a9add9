import BookingApi.Api.Answers
import BookingApi.Api.Refinement
import BookingApi.BookingService.DocumentedSlots
import BookingApi.Concurrent.Accepted
import BookingApi.Serial.Availability

/-!
# The statuses of error responses

What the handlers of `app/main.py` make of the exceptions: for each route the statuses of its error
responses, and the exceptions that no handler is there for, which become a 500 response.  A request
that is served, or turned away by the rate limiter, ends with no others as long as the connections
are up (`status_of_run`).  The availability of a hall never raises a `KeyError`
(`yields_getAvailability`), because every booking ends after it starts.
-/

namespace BookingApi.Api

open Async BookingService

/-! ### Availability -/

section

variable {security : Security} {settings : Settings} {now : Instant}
  {authorization : Option String} {hallId : ℤ} {date : Date} {E : Exc → Prop}

/-- Every booking ends after it starts. -/
def Proper (db : Db) : Prop := ∀ b ∈ db.bookings.rows, b.startTime < b.endTime

/-- The session begins and ends at an hour of the day. -/
structure SessionHours (settings : Settings) : Prop where
  zero_le : 0 ≤ settings.sessionStartHour
  start_le : settings.sessionStartHour ≤ settings.sessionEndHour
  lt : settings.sessionEndHour < 24

/-- The exception is none of those that a wrong key or a wrong number gives. -/
def Harmless (e : Exc) : Prop := e ≠ .keyError ∧ ∀ message, e ≠ .valueError message

theorem harmless_of_raises {f : World.Fault} (e : Exc) (h : f.Raises e) : Harmless e := by
  rcases h.cases with rfl | rfl | rfl | rfl <;> simp [Harmless]

theorem harmless_of_mem {e : Exc}
    (h : e ∈ [Exc.hallNotFound, .jsonDecodeError, .typeError, .validationError]) : Harmless e := by
  simp only [List.mem_cons, List.not_mem_nil, or_false] at h
  rcases h with rfl | rfl | rfl | rfl <;> simp [Harmless, Exc.hallNotFound]

/-- The bookings lie in the session of the day. -/
def InSession (settings : Settings) (date : Date) (bookings : List (Booking × List BookingSeat)) :
    Prop :=
  ∀ p ∈ bookings, p.1.startTime < p.1.endTime ∧
    Instant.combine date settings.sessionStartHour ≤ p.1.startTime ∧
    p.1.endTime ≤ Instant.combine date settings.sessionEndHour

/-- The loops find a key for each hour of each booking. -/
theorem exists_slots (hhours : SessionHours settings) (totalSeats : ℤ)
    {bookings : List (Booking × List BookingSeat)} (h : InSession settings date bookings) :
    ∃ answer, slots settings totalSeats bookings = .ok answer := by
  obtain ⟨booked, hslots, -⟩ := slots_eq totalSeats fun p hp hour h1 h2 => by
    obtain ⟨hlt, hstart, hend⟩ := h p hp
    obtain ⟨h3, h4⟩ := (Serial.spans_iff_hours hour hhours.zero_le hhours.lt hlt hstart hend).1
    exact ⟨h3.trans h1, h4 hour h2⟩
  exact ⟨_, hslots⟩

theorem listOfJson_eq_error {v : Json} {e : Exc} (h : listOfJson v = .error e) :
    e = .typeError := by
  cases v <;> cases h <;> rfl

theorem yields_calculateSlots (hhours : SessionHours settings) (hE : ∀ e, Harmless e → E e) :
    (calculateSlots settings hallId date).Yields (EndsIn Proper) (fun _ => True) E := by
  have hfault {f : World.Fault} (e : Exc) (he : f.Raises e) : E e := hE e (harmless_of_raises e he)
  refine .bind (yields_execute (P := fun _ => True) (fun _ _ => trivial) hfault) fun hall _ => ?_
  cases hall with
  | none => exact hE _ (harmless_of_mem (by simp))
  | some hall =>
    have hstart : sessionBoundary date settings.sessionStartHour = .ok _ :=
      Serial.sessionBoundary_eq_ok hhours.zero_le (hhours.start_le.trans_lt hhours.lt)
    have hend : sessionBoundary date settings.sessionEndHour = .ok _ :=
      Serial.sessionBoundary_eq_ok (hhours.zero_le.trans hhours.start_le) hhours.lt
    refine .bind (yields_execute (P := fun _ => True) (fun _ _ => trivial) hfault)
      fun seats _ => ?_
    simp only [hstart, hend, Program.ofExcept_ok, Program.bind_eq, Program.ret_bind]
    refine .bind (yields_execute (P := InSession settings date) ?_ hfault)
      fun bookings hbookings => Program.yields_ofExcept (fun _ _ => trivial) fun e he => ?_
    · intro db hdb p hp
      obtain ⟨b, hb, -, -, h1, h2, rfl⟩ := Serial.mem_sessionBookings.mp hp
      exact ⟨hdb b hb, h1, h2⟩
    · -- the hours of a session and the bookings in it index the dictionary
      obtain ⟨answer, hanswer⟩ := exists_slots hhours seats.length hbookings
      rw [hanswer] at he
      cases he

/-- **No `KeyError`**: the availability of a hall fails only with harmless exceptions, or because of
the header. -/
theorem yields_getAvailability (hhours : SessionHours settings) (hE : ∀ e, Harmless e → E e)
    (hauth : ∀ e, AuthenticationError security now authorization e → E e) :
    (asUser security now authorization (fun _ _ => getAvailabilityRoute settings hallId date)
      .slots).Yields (EndsIn Proper) (fun _ => True) E := by
  have hfault {f : World.Fault} (e : Exc) (he : f.Raises e) : E e := hE e (harmless_of_raises e he)
  have hcalculate : (do
      let slots ← calculateSlots settings hallId date
      let items := slots.map Slot.toJson
      redisCall (.setex (cacheKey hallId date) cacheTtl (Json.dumps (.arr items)))
      return items : App (List Json)).Yields (EndsIn Proper) (fun _ => True) E :=
    .bind (yields_calculateSlots hhours hE) fun slots _ =>
      .bind (yields_redisCall hfault) fun _ _ => trivial
  refine yields_asUser hfault hauth fun user _ _ _ => .bind (Q := fun _ => True)
    (.bind (yields_redisCall hfault) fun cached _ => ?_) fun items _ =>
      Program.yields_ofExcept (fun _ _ => trivial) fun e he => ?_
  · cases cached with
    | none => exact hcalculate
    | some cached =>
      show Program.Yields _ _ _ (if _ then _ else _)
      split_ifs
      · exact hcalculate
      · refine Program.yields_ofExcept (fun _ _ => trivial) fun e he => hE e ?_
        rw [cachedSlots] at he
        split at he
        · exact Except.error.inj he ▸ harmless_of_mem (by simp)
        · rw [listOfJson_eq_error he]
          exact harmless_of_mem (by simp)
  · -- the items of the cache may be of any type
    obtain ⟨item, -, he⟩ := mapM_eq_error he
    refine hE e ?_
    unfold timeSlotResponse at he
    split at he
    · split at he
      · cases he
      · exact Except.error.inj he ▸ harmless_of_mem (by simp)
    · exact Except.error.inj he ▸ harmless_of_mem (by simp)

end

/-! ### Statuses -/

/-- The statuses of the error responses of a route. -/
@[simp] def Endpoint.statuses : Endpoint → List ℕ
  | .signup .. | .login _ | .getCurrentUserProfile | .listHalls | .listBookings _ => [401, 429]
  | .getHall _ | .listSeats _ | .getBooking _ | .getAvailability .. => [401, 404, 429]
  | .listUsers _ | .createHall _ => [401, 403, 429]
  | .getUser _ | .updateUser .. | .updateHall .. | .deleteHall _ | .deleteSeat .. =>
    [401, 403, 404, 429]
  | .createSeat .. | .bulkCreateSeats .. => [401, 403, 404, 409, 429]
  | .createBooking .. => [400, 401, 404, 409, 429]
  | .cancelBooking _ => [401, 404, 409, 429]

/-- The exceptions of a route for which there is no handler.  A login catches whatever its query
raises. -/
@[simp] def Endpoint.unhandled : Endpoint → List Exc
  | .login _ => []
  | .signup .. | .updateUser .. | .updateHall .. => [.integrityError, .dbapiError]
  | .createBooking .. => [.typeError, .dbapiError]
  | _ => [.dbapiError]

/-- The exception has a status of the route, or is one without a handler. -/
def Endpoint.Answers (endpoint : Endpoint) (e : Exc) : Prop :=
  (∃ status ∈ endpoint.statuses, e.statusCode = some status) ∨ e ∈ endpoint.unhandled

section

variable {security : Security} {settings : Settings} {now : Instant}
  {authorization : Option String} {endpoint : Endpoint} {e : Exc} {db : Db}

theorem authenticatedId_eq_error (h : authenticatedId security now authorization = .error e) :
    (∃ detail, e = .unauthorizedError detail) ∨ ∃ message, e = .valueError message := by
  rw [authenticatedId] at h
  cases htoken : getTokenFromHeader authorization with
  | error e' =>
    rw [htoken] at h
    obtain rfl : e' = e := Except.error.inj h
    unfold getTokenFromHeader at htoken
    split at htoken
    · exact .inl ⟨_, (Except.error.inj htoken).symm⟩
    · dsimp only at htoken
      split_ifs at htoken
      all_goals exact .inl ⟨_, (Except.error.inj htoken).symm⟩
  | ok token =>
    simp only [htoken, bind, Except.bind] at h
    cases hdecode : security.decodeAccessToken now token with
    | error e' =>
      rw [hdecode] at h
      exact .inl ⟨_, (Except.error.inj h).symm⟩
    | ok payload =>
      simp only [hdecode] at h
      rw [subjectOf] at h
      split at h
      · exact .inl ⟨_, (Except.error.inj h).symm⟩
      · split at h
        · exact .inr ⟨_, (Except.error.inj h).symm⟩
        · cases h

/-- Who is not authenticated is told so, unless the subject of the token is no number. -/
theorem status_of_authenticationError (h : AuthenticationError security now authorization e) :
    e.statusCode = some 401 ∨ ∃ message, e = .valueError message ∧
      authenticatedId security now authorization = .error e := by
  rcases h with h | h
  · rcases authenticatedId_eq_error h with ⟨detail, rfl⟩ | ⟨message, rfl⟩
    · exact .inl rfl
    · exact .inr ⟨message, rfl, h⟩
  · left
    simp only [List.mem_cons, List.not_mem_nil, or_false] at h
    rcases h with rfl | rfl <;> rfl

theorem Endpoint.Answers.of_status {status : ℕ} (h : e.statusCode = some status)
    (hmem : status ∈ endpoint.statuses) : endpoint.Answers e := .inl ⟨status, hmem, h⟩

theorem Endpoint.Answers.of_unhandled (h : e ∈ endpoint.unhandled) : endpoint.Answers e := .inr h

theorem answers_createBooking {data : BookingCreate} {token : Token}
    (h : CreateBookingError settings data e) : (Endpoint.createBooking data token).Answers e := by
  rcases h with rfl | hslot | ⟨detail, rfl⟩ | ⟨detail, rfl⟩ | rfl
  · exact .of_status rfl (by simp)
  · have hexc := validateTimeSlot_eq_error hslot
    split_ifs at hexc
    · obtain ⟨detail, rfl⟩ := hexc
      exact .of_status rfl (by simp)
    · exact .of_unhandled (by simp [hexc])
  · exact .of_status rfl (by simp)
  · exact .of_status rfl (by simp)
  · exact .of_unhandled (by simp)

theorem answers_among {es : List Exc} (hes : ∀ e ∈ es, endpoint.Answers e)
    (h : (Failures.among es).may e db) : endpoint.Answers e := hes e h

theorem answers_asAdmin {A : Exc → Prop} {E : Failures} (h403 : 403 ∈ endpoint.statuses)
    (hE : E.may e db → endpoint.Answers e) (h : (Failures.asAdmin A E).may e db) :
    A e ∨ endpoint.Answers e := by
  rcases h with h | rfl | h
  · exact .inl h
  · exact .inr (.of_status rfl h403)
  · exact .inr (hE h)

theorem answers_hallOrSeat {hallId : ℤ} {positions : List (ℤ × ℤ)} {detail : String}
    (h404 : 404 ∈ endpoint.statuses) (h409 : 409 ∈ endpoint.statuses)
    (h : (Failures.either (.among [.hallNotFound])
      (.seatExists hallId positions detail)).may e db) : endpoint.Answers e := by
  rcases h with h | ⟨rfl, -⟩
  · obtain rfl := List.mem_singleton.mp h
    exact .of_status rfl h404
  · exact .of_status rfl h409

/-- What a route may raise beside the exceptions of the authentication. -/
theorem answers_of_may {A : Exc → Prop} (h : (endpoint.failures settings A).may e db) :
    A e ∨ endpoint.Answers e ∨
      (∃ hallId date, endpoint = .getAvailability hallId date) ∧ ¬ Harmless e := by
  have hasAdmin {E : Failures} (h403 : 403 ∈ endpoint.statuses)
      (hE : E.may e db → endpoint.Answers e) (h : (Failures.asAdmin A E).may e db) :
      A e ∨ endpoint.Answers e ∨
        (∃ hallId date, endpoint = .getAvailability hallId date) ∧ ¬ Harmless e :=
    (answers_asAdmin h403 hE h).imp_right .inl
  have hnotFound : 404 ∈ endpoint.statuses → ∀ e ∈ [Exc.hallNotFound], endpoint.Answers e :=
    fun h404 e he => .of_status (List.mem_singleton.mp he ▸ rfl) h404
  cases endpoint with
  | signup | login =>
    exact .inr (.inl (answers_among (by simp [Endpoint.Answers, Exc.statusCode]) h))
  | getCurrentUserProfile | listHalls | listBookings => exact h.imp_right False.elim
  | getHall | listSeats => exact h.imp_right fun h => .inl (answers_among (hnotFound (by simp)) h)
  | getBooking =>
    refine h.imp_right fun h => .inl ?_
    obtain rfl := List.mem_singleton.mp h
    exact .of_status rfl (by simp)
  | listUsers => exact hasAdmin (by simp) False.elim h
  | getUser | updateUser | createHall | updateHall | deleteHall | deleteSeat =>
    exact hasAdmin (by simp) (answers_among (by simp [Endpoint.Answers, Exc.statusCode,
      Exc.userNotFound, Exc.hallNotFound, Exc.seatNotFound])) h
  | createSeat | bulkCreateSeats =>
    exact hasAdmin (by simp) (answers_hallOrSeat (by simp) (by simp)) h
  | createBooking => exact h.imp_right fun h => .inl (answers_createBooking h)
  | cancelBooking =>
    refine h.imp_right fun h => .inl ?_
    rcases h with h | ⟨rfl, -⟩
    · obtain rfl := List.mem_singleton.mp h
      exact .of_status rfl (by simp)
    · exact .of_status rfl (by simp)
  | getAvailability hallId date =>
    refine h.imp_right fun h => ?_
    rcases h with rfl | rfl | rfl
    · exact .inl (.of_status rfl (by simp))
    · exact .inr ⟨⟨hallId, date, rfl⟩, fun h => h.1 rfl⟩
    · exact .inr ⟨⟨hallId, date, rfl⟩, fun h => h.2 _ rfl⟩

theorem mem_statuses (endpoint : Endpoint) :
    401 ∈ endpoint.statuses ∧ 429 ∈ endpoint.statuses := by
  cases endpoint <;> simp

theorem mem_statuses_of_access (haccess : endpoint.access = .admin) : 403 ∈ endpoint.statuses := by
  revert haccess
  cases endpoint <;> simp [Endpoint.access]

/-- What becomes of a request that the rate limiter turns away. -/
theorem answers_of_limited {request : Request}
    (h : (request.limitFailures security now).may e db) :
    AuthenticationError security now request.authorization e ∨ request.endpoint.Answers e := by
  have hlimit (h : (Failures.among [.rateLimitExceeded]).may e db) :
      request.endpoint.Answers e := by
    obtain rfl := List.mem_singleton.mp h
    exact .of_status rfl (mem_statuses _).2
  rw [Request.limitFailures] at h
  cases haccess : request.endpoint.access with
  | anyone =>
    rw [haccess] at h
    exact .inr (hlimit h)
  | user =>
    rw [haccess] at h
    exact h.imp_right hlimit
  | admin =>
    rw [haccess] at h
    exact answers_asAdmin (mem_statuses_of_access haccess) hlimit h

end

/-! ### Runs -/

variable {security : Security} {settings : Settings} {now : RequestId → Instant}
  {tasks : RequestId → Option Task} {c : Config RequestId World (App Response)}
  {tr : List (Transition (Config RequestId World (App Response))
    (Action RequestId World.Fault World.Env))} {r : RequestId}

/-- Whatever a request sees of the bookings, they end after they start. -/
theorem proper_view (hrun : Run Interleaving.Step (start security settings now tasks) tr c) :
    Proper (c.shared.view r) := by
  obtain ⟨requests, tr', d, -, hrun', -, hshared, -⟩ := follows_of_run hrun
  intro b hb
  rw [← hshared] at hb
  obtain ⟨b₀, hb₀, hterms, -⟩ := Db.mem_bookings_applyAll hb
  have hrow : Concurrent.Row d.shared b₀ := hb₀.imp_right fun hb₀ => ⟨r, hb₀⟩
  -- the times of a booking never change, so they are those of its request
  have hlt := Concurrent.RunOf.start_lt_end hrun' b₀ hrow
  simp only [Booking.terms, Prod.mk.injEq] at hterms
  rwa [hterms.2.2.2.1, hterms.2.2.2.2.1]

/-- How a request for the availability of a hall fails. -/
theorem harmless_of_run (hhours : SessionHours settings)
    (hrun : Run Interleaving.Step (start security settings now tasks) tr c)
    {authorization : Option String} {hallId : ℤ} {date : Date}
    (htask : tasks r = some (.serve ⟨authorization, .getAvailability hallId date⟩)) {e : Exc}
    (hended : (c.threads r).result? = some (.error e)) :
    Harmless e ∨ AuthenticationError security (now r) authorization e := by
  have hyields : ((start security settings now tasks).threads r).Yields (EndsIn Proper)
      (fun _ => True)
      (fun e => Harmless e ∨ AuthenticationError security (now r) authorization e) := by
    rw [threads_start htask]
    exact yields_getDb (fun e _ he => .inl (harmless_of_raises e he))
      (yields_getAvailability hhours (fun _ => .inl) fun _ => .inr)
  exact (result_of_run (fun hrun => ends_of_view (proper_view hrun)) hyields hrun).2 e hended

/-- A login never fails because a value was refused. -/
theorem login_not_refused
    (hrun : Run Interleaving.Step (start security settings now tasks) tr c)
    {authorization : Option String} {data : LoginRequest}
    (htask : (tasks r).bind Task.request? = some ⟨authorization, .login data⟩) :
    (c.threads r).result? ≠ some (.error .dbapiError) := by
  have hcatches : (asAnyone (AuthService.login security settings (now r) data.email data.password)
      Response.token).Yields (EndsIn fun _ => True) (fun _ => True) (· ≠ .dbapiError) := by
    refine .bind (.tryCatch (Program.yields_true _) fun e _ => ?_) fun _ _ => trivial
    split <;> exact Exc.noConfusion
  have hyields : ((start security settings now tasks).threads r).Yields (EndsIn fun _ => True)
      (fun _ => True) (· ≠ .dbapiError) := by
    have hconnection {f : World.Fault} (e : Exc) (hf : f ≠ .refused) (he : f.Raises e) :
        e ≠ .dbapiError := by
      rintro rfl
      cases f with
      | refused => exact hf rfl
      | _ => simp [World.Fault.Raises] at he
    show (Task.program security settings (now r) (tasks r)).Yields _ _ _
    obtain ⟨task, htask, hrequest⟩ := Option.bind_eq_some_iff.mp htask
    rw [htask]
    cases task with
    | serve request =>
      obtain rfl := Option.some.inj hrequest
      exact yields_getDb hconnection hcatches
    | limited request =>
      obtain rfl := Option.some.inj hrequest
      exact yields_getDb hconnection Exc.noConfusion
    | createAdmin => cases hrequest
  exact fun hended =>
    (result_of_run (fun _ => ends_of_view trivial) hyields hrun).2 _ hended rfl

/-- **The statuses of error responses**: a request fails with a status of its route or with one of
the exceptions of it that have no handler, unless the subject of its token is no number or a fault
other than the refusal of a value has hit it. -/
theorem status_of_run (hhours : SessionHours settings)
    (hrun : Run Interleaving.Step (start security settings now tasks) tr c)
    {request : Request} (htask : (tasks r).bind Task.request? = some request)
    (hhit : ∀ f, Hit tr r f → f = .refused) {e : Exc}
    (hended : (c.threads r).result? = some (.error e)) :
    request.endpoint.Answers e ∨ ∃ message, e = .valueError message ∧
      authenticatedId security (now r) request.authorization = .error e := by
  have hauth (h : AuthenticationError security (now r) request.authorization e) :
      request.endpoint.Answers e ∨ ∃ message, e = .valueError message ∧
        authenticatedId security (now r) request.authorization = .error e :=
    (status_of_authenticationError h).imp_left fun h => .of_status h (mem_statuses _).1
  rcases ends_of_run hrun hended with hmay | ⟨f, hf, hraises⟩
  · obtain ⟨task, hserve, hrequest⟩ := Option.bind_eq_some_iff.mp htask
    rw [hserve] at hmay
    cases task with
    | serve request' =>
      obtain rfl := Option.some.inj hrequest
      rcases answers_of_may hmay with h | h | ⟨⟨hallId, date, hendpoint⟩, hharmless⟩
      · exact hauth h
      · exact .inl h
      · obtain ⟨authorization, endpoint⟩ := request'
        subst hendpoint
        exact hauth ((harmless_of_run hhours hrun hserve hended).resolve_left hharmless)
    | limited request' =>
      obtain rfl := Option.some.inj hrequest
      exact (answers_of_limited hmay).elim hauth .inl
    | createAdmin => cases hrequest
  · obtain rfl := hhit f hf
    obtain rfl : e = .dbapiError := hraises
    obtain ⟨authorization, endpoint⟩ := request
    refine .inl (.of_unhandled ?_)
    cases endpoint with
    | login => exact absurd hended (login_not_refused hrun htask)
    | _ => simp

open Scenario in
/-- The second request for a seat is refused with a status of its route. -/
theorem status_seats : ∃ tr c, Run Interleaving.Step seatStart tr c ∧
    (c.threads 3).result? = some (.error seatExists) ∧
    ((Endpoint.createSeat 1 seatBody).Answers seatExists ∨
      ∃ message, seatExists = .valueError message ∧
        authenticatedId .transparent 0 (bearer admin) = .error seatExists) := by
  have hreplay : ((replay Interleaving.Step (firstSeat ++ secondSeat) seatStart).map fun c =>
      decide ((c.threads 3).result? = some (.error seatExists))) = some true := by decide +kernel
  obtain ⟨c, hc, hended⟩ := Option.map_eq_some_iff.mp hreplay
  obtain ⟨tr, hrun, hacts⟩ := Run.of_replay_mem hc
  have hhit (f : World.Fault) : ¬ Hit tr 3 f := by
    rintro ⟨t, ht, hf⟩
    have hact := hacts t ht
    rw [hf, firstSeat, secondSeat, ← List.map_append] at hact
    obtain ⟨i, -, hi⟩ := List.mem_map.mp hact
    cases hi
  have htask : (seatTasks 3).bind Task.request? = some ⟨bearer admin, .createSeat 1 seatBody⟩ := rfl
  have hhours : SessionHours BookingApi.settings := ⟨by decide, by decide, by decide⟩
  exact ⟨tr, c, hrun, of_decide_eq_true hended,
    status_of_run hhours hrun htask (fun f hf => absurd hf (hhit f)) (of_decide_eq_true hended)⟩

end BookingApi.Api
