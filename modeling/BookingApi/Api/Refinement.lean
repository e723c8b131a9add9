import BookingApi.Api.Access
import BookingApi.Api.Bystanders
import BookingApi.Async.Simulation

/-!
# The API as a system of requests for bookings

`Concurrent.step` knows requests that create or cancel a booking for a given user, and bystanders.
Interleaved requests to all routes make no other steps (`refines_of_run`): a request for a booking
is made for the user that its token names, once this user has been found to be active, and every
other request and the script are bystanders.  So what holds of every run of `Concurrent.step` holds
of the API.
-/

namespace BookingApi.Api

open Async

/-! ### The requests for bookings -/

/-- The task is a request for a booking of the user that the token names. -/
def Task.Books (security : Security) (now : Instant) : Option Task → Prop
  | some (.serve request) => request.endpoint.Books ∧
    ∃ userId, authenticatedId security now request.authorization = .ok userId
  | _ => False

/-- What a task is to the requests for bookings. -/
inductive Serves (security : Security) (settings : Settings) (now : Instant) :
    Option Task → Concurrent.Request → Prop
  | create {authorization : Option String} {data : BookingCreate} {token : Token} {userId : ℤ} :
    authenticatedId security now authorization = .ok userId →
      Serves security settings now (some (.serve ⟨authorization, .createBooking data token⟩))
        (.createBooking ⟨userId, data.hallId, data.seatIds, data.startTime, data.endTime, token⟩)
  | cancel {authorization : Option String} {bookingId userId : ℤ} :
    authenticatedId security now authorization = .ok userId →
      Serves security settings now (some (.serve ⟨authorization, .cancelBooking bookingId⟩))
        (.cancelBooking ⟨bookingId, userId⟩)
  | other {task : Option Task} {b : Concurrent.Bystander} : ¬ Task.Books security now task →
    b.rest = (Task.program security settings now task).bind (fun _ => .ret ()) →
      Serves security settings now task (.other b)

theorem bystands_getDb {α : Type} {p : App α} (h : Bystands p) : Bystands (getDb p) :=
  uses_getDb h trivial trivial

theorem Refused.bystands {p : App Response} (h : Refused p) : Bystands p :=
  h.discards.mono fun β op hop => by
    cases op with
    | rollback => trivial
    | _ => exact hop.elim

theorem exists_serves (security : Security) (settings : Settings) (now : Instant)
    (task : Option Task) : ∃ request, Serves security settings now task request := by
  have other (hbooks : ¬ Task.Books security now task)
      (h : Bystands (Task.program security settings now task)) :
      ∃ request, Serves security settings now task request :=
    ⟨.other ⟨(Task.program security settings now task).bind fun _ => .ret (),
      h.bind fun _ => trivial⟩, .other hbooks rfl⟩
  rcases task with _ | ⟨authorization, endpoint⟩ | request | ⟨salt, email, password⟩
  · exact other id trivial
  · by_cases hbooks : endpoint.Books
    · cases hid : authenticatedId security now authorization with
      | error e =>
        refine other ?_ (Refused.bystands ?_)
        · rintro ⟨-, userId, h⟩
          rw [hid] at h
          cases h
        · cases endpoint with
          | createBooking | cancelBooking =>
            rw [Task.program, Request.handler]
            exact refused_asUser hid
          | _ => exact hbooks.elim
      | ok userId =>
        cases endpoint with
        | createBooking data token => exact ⟨_, .create hid⟩
        | cancelBooking bookingId => exact ⟨_, .cancel hid⟩
        | _ => exact hbooks.elim
    · exact other (fun h => hbooks h.1)
        (bystands_getDb (bystands_handler security settings now _ hbooks))
  · exact other id (bystands_getDb (uses_limited (fun _ => trivial) request))
  · exact other id
      ((bystands_createAdmin (security.hash salt) email password).bind fun _ => trivial)

/-! ### Where a request stands -/

/-- The control points of a request that creates a booking, and its response. -/
abbrev createNext (settings : Settings) (args : CreateArgs) (pc : CreatePc) :
    Await Op Exc Response CreatePc :=
  (pc.next settings args).map .booking id

abbrev cancelNext (args : CancelArgs) (pc : CancelPc) : Await Op Exc Response CancelPc :=
  (pc.next args).map (fun _ => .noContent) id

/-- What is left of the handler is what is left of the request for a booking. -/
inductive Handles (settings : Settings) : App Response → Concurrent.Pc → Prop
  | create {args : CreateArgs} {p : App Response} {pc : CreatePc} :
    Presents (createNext settings args) p pc → Handles settings p (.create args pc)
  | cancel {args : CancelArgs} {p : App Response} {pc : CancelPc} :
    Presents (cancelNext args) p pc → Handles settings p (.cancel args pc)

/-- A handler beside a request for a booking: it has yet to look the user up, or has refused the
user, or does what the request does. -/
inductive Follows (settings : Settings) (r : RequestId) (w : World) :
    App Response → Concurrent.Pc → Prop
  | lookup {userId : ℤ} {next : Except Exc (Option (User × Session)) → App Response}
      {q : Concurrent.Pc} {resume : Except Exc Session → Concurrent.Pc} :
    w.writesOf r = [] → q.next settings = .call (.execute (Session.load userId)) resume →
      (∀ res, Refused (next res) ∨ ∃ user session, res = .ok (some (user, session)) ∧
        (user.id = userId → Handles settings (next res) (resume (.ok session)))) →
      Follows settings r w (.call (.execute (selectCurrentUser userId)) next) q
  | refused {p : App Response} {q : Concurrent.Pc} :
    w.writesOf r = [] → Refused p → Follows settings r w p q
  | handles {p : App Response} {q : Concurrent.Pc} : Handles settings p q → Follows settings r w p q
  | other {p : App Response} {b : Concurrent.Bystander} :
    b.rest = p.bind (fun _ => .ret ()) → Follows settings r w p (.other b)

section

variable {settings : Settings} {r : RequestId} {w w' : World} {p : App Response}
  {q : Concurrent.Pc}

/-- The response is made from the result of the service. -/
theorem getDb_asAnyone {α : Type} (p : App α) (respond : α → Response) :
    getDb (asAnyone p respond) = (getDb p).bind (.ret ∘ respond) := by
  induction p with
  | ret a =>
    refine congrArg (Program.call Op.commit) (funext fun res => ?_)
    cases res with
    | ok _ => rfl
    | error e =>
      refine congrArg (Program.call Op.rollback) (funext fun res => ?_)
      cases res <;> rfl
  | raise e =>
    refine congrArg (Program.call Op.rollback) (funext fun res => ?_)
    cases res <;> rfl
  | call op next ih => exact congrArg (Program.call op) (funext fun res => ih res)

theorem Handles.call {β : Type} {op : Op β} {next : Except Exc β → App Response}
    (h : Handles settings (.call op next) q) : ∃ resume', q.next settings = .call op resume' ∧
      ∀ res, Handles settings (next res) (resume' res) := by
  cases h with
  | @create args p pc h =>
    cases h with
    | call hnext hk =>
      cases hpc : pc.next settings args with
      | ended res =>
        rw [createNext, hpc] at hnext
        cases hnext
      | call op' resume' =>
        rw [createNext, hpc] at hnext
        cases hnext
        refine ⟨.create args ∘ resume', ?_, fun res => .create (hk res)⟩
        rw [Concurrent.Pc.next, hpc]
        rfl
  | @cancel args p pc h =>
    cases h with
    | call hnext hk =>
      cases hpc : pc.next args with
      | ended res =>
        rw [cancelNext, hpc] at hnext
        cases hnext
      | call op' resume' =>
        rw [cancelNext, hpc] at hnext
        cases hnext
        refine ⟨.cancel args ∘ resume', ?_, fun res => .cancel (hk res)⟩
        rw [Concurrent.Pc.next, hpc]
        rfl

theorem Follows.congr (h : Follows settings r w p q) (hsame : w'.writesOf r = w.writesOf r) :
    Follows settings r w' p q := by
  cases h with
  | lookup hidle hload hnext => exact .lookup (hsame.trans hidle) hload hnext
  | refused hidle hrefused => exact .refused (hsame.trans hidle) hrefused
  | handles h => exact .handles h
  | other h => exact .other h

/-- The request takes the objects that the handler finds with the user. -/
def Loads (settings : Settings) (r : RequestId) (w : World) (p : App Response)
    (q : Concurrent.Pc) : Prop :=
  ∃ userId resume, q.next settings = .call (.execute (Session.load userId)) resume ∧
    Follows settings r w p (resume (.ok (.load userId (w.view r))))

/-- What a step of the handler leads to: the same step, or one that changes nothing. -/
theorem Follows.call {β : Type} {op : Op β} {next : Except Exc β → App Response}
    (h : Follows settings r w (.call op next) q) :
    (∃ resume', q.next settings = .call op resume' ∧
      ∀ w' res, Follows settings r w' (next res) (resume' res)) ∨
    ((World.exec r β op w).2 = w ∧ (Loads settings r w (next (World.exec r β op w).1) q ∨
        Follows settings r w (next (World.exec r β op w).1) q)) ∧
      ∀ φ e w', World.fault r β op φ w = some (e, w') →
        w' = w ∧ Follows settings r w (next (.error e)) q := by
  cases h with
  | @lookup userId _ _ resume hidle hload hnext =>
    refine .inr ⟨⟨rfl, ?_⟩, fun φ e w' hfault => ?_⟩
    · rcases hnext (.ok (selectCurrentUser userId (w.view r))) with
        hrefused | ⟨user, session, hfound, hgo⟩
      · exact .inr (.refused hidle hrefused)
      · obtain ⟨hfind, rfl⟩ := selectCurrentUser_eq_some (Except.ok.inj hfound)
        exact .inl ⟨userId, resume, hload, .handles (hgo (Table.find?_eq_some_iff.mp hfind).2)⟩
    · cases φ with
      | acknowledgementLost => cases hfault
      | _ =>
        obtain ⟨rfl, rfl⟩ := Prod.mk.inj (Option.some.inj hfault)
        rcases hnext (.error _) with hrefused | ⟨user, session, hfound, -⟩
        · exact ⟨rfl, .refused hidle hrefused⟩
        · cases hfound
  | refused hidle hrefused =>
    -- a refused request has no writes, so that its rollback changes nothing
    have hnext (res : Except Exc β) : Refused (next res) := hrefused.next (.call op next res)
    refine .inr ?_
    cases op with
    | rollback =>
      refine ⟨⟨World.close_of_idle hidle, .inr (.refused hidle (hnext _))⟩, fun φ e w' hfault => ?_⟩
      cases φ with
      | noEffect =>
        obtain ⟨-, rfl⟩ := Prod.mk.inj (Option.some.inj hfault)
        exact ⟨World.close_of_idle hidle, .refused hidle (hnext _)⟩
      | _ => cases hfault
    | _ => exact hrefused.discards.1.elim
  | handles h =>
    obtain ⟨resume', hresume, hnext⟩ := h.call
    exact .inl ⟨resume', hresume, fun w' res => .handles (hnext res)⟩
  | @other _ b h =>
    obtain ⟨rest, hfree⟩ := b
    obtain rfl : rest = .call op fun res => (next res).bind fun _ => .ret () := h
    exact .inl ⟨_, rfl, fun w' res => .other rfl⟩

/-- **The simulation**: each handler makes the steps of its request for a booking. -/
theorem simulation (settings : Settings) : Simulation World.semantics Program.await
    (Concurrent.Pc.next settings) (Follows settings) where
  exec {r w p q β op resume} h hawait := by
    rw [Program.await_eq_call_iff.mp hawait] at h
    rcases h.call with ⟨resume', hresume, hnext⟩ |
      ⟨⟨hsame, ⟨userId, resume', hload, hnext⟩ | hnext⟩, -⟩
    · exact .inl ⟨β, op, resume', hresume, id, rfl, hnext _ _⟩
    · exact .inl ⟨_, _, resume', hload, fun _ => rfl, hsame.symm, hsame.symm ▸ hnext⟩
    · exact .inr ⟨hsame, hnext⟩
  fault {r w w' p q β op resume φ e} h hawait hfault := by
    rw [Program.await_eq_call_iff.mp hawait] at h
    rcases h.call with ⟨resume', hresume, hnext⟩ | ⟨-, hnext⟩
    · exact .inl ⟨β, op, resume', e, hresume, hfault, hnext _ _⟩
    · exact .inr (hnext φ e w' hfault)
  exec_other {i r w p q β op} h hne := by
    have huntouched : World.Untouched r w (World.exec i β op w).2 := World.untouched_exec hne
    exact h.congr huntouched.writes
  fault_other h hne hfault := h.congr (World.untouched_fault hne hfault).writes
  env {r w p q e} h := h.congr (by cases e <;> rfl)

end

/-- The rest of the request, once the objects are loaded. -/
theorem presents_createNext (settings : Settings) (args : CreateArgs) (session : Session) :
    Presents (createNext settings args)
      ((getDb (BookingService.createBookingRoute session settings args.userId args.hallId
        args.seatIds args.startTime args.endTime args.token.text)).bind (.ret ∘ Response.booking))
      (.selectHall session) := by
  have hmap (pc : CreatePc) :
      createNext settings args (id pc) = (pc.next settings args).map Response.booking id := rfl
  cases CreatePc.presents settings args with
  | call hnext hk =>
    cases hnext
    exact (hk (.ok session)).map hmap

theorem presents_cancelNext (args : CancelArgs) (session : Session) :
    Presents (cancelNext args)
      ((getDb (BookingService.cancelBookingRoute session args.bookingId args.userId)).bind
        (.ret ∘ fun _ => Response.noContent)) (.select session) := by
  have hmap (pc : CancelPc) :
      cancelNext args (id pc) = (pc.next args).map (fun _ => Response.noContent) id := rfl
  cases CancelPc.presents args with
  | call hnext hk =>
    cases hnext
    exact (hk (.ok session)).map hmap

/-- Every task starts beside what it is to the requests for bookings. -/
theorem follows_start {security : Security} {settings : Settings} {now : Instant}
    {task : Option Task} {request : Concurrent.Request}
    (h : Serves security settings now task request) {r : RequestId} {w : World}
    (hidle : w.writesOf r = []) :
    Follows settings r w (Task.program security settings now task) request.start := by
  cases h with
  | @create authorization data token userId hid =>
    obtain ⟨next, hcall, hnext⟩ := lookup_asUser
      (fun user session => BookingService.createBookingRoute session settings user.id data.hallId
        data.seatIds data.startTime data.endTime token.text) Response.booking hid
    rw [Task.program, Request.handler, hcall]
    refine .lookup hidle rfl fun res => (hnext res).imp_right ?_
    rintro ⟨user, session, hres, -, hgo⟩
    refine ⟨user, session, hres, fun hkey => .create ?_⟩
    rw [hgo, getDb_asAnyone, hkey]
    exact presents_createNext settings
      ⟨userId, data.hallId, data.seatIds, data.startTime, data.endTime, token⟩ session
  | @cancel authorization bookingId userId hid =>
    obtain ⟨next, hcall, hnext⟩ := lookup_asUser
      (fun user session => BookingService.cancelBookingRoute session bookingId user.id)
      (fun _ => Response.noContent) hid
    rw [Task.program, Request.handler, hcall]
    refine .lookup hidle rfl fun res => (hnext res).imp_right ?_
    rintro ⟨user, session, hres, -, hgo⟩
    refine ⟨user, session, hres, fun hkey => .cancel ?_⟩
    rw [hgo, getDb_asAnyone, hkey]
    exact presents_cancelNext ⟨bookingId, userId⟩ session
  | other _ h => exact .other h

/-! ### The refinement -/

/-- The response to a request for a booking. -/
def Response.ofReply : Concurrent.Reply → Response
  | .booking answer => .booking answer
  | .noContent => .noContent

theorem Handles.result {settings : Settings} {response : Response} {q : Concurrent.Pc}
    (h : Handles settings (.ret response) q) :
    ∃ reply, q.result settings = some (.ok reply) ∧ response = .ofReply reply := by
  cases h with
  | @create args _ pc h =>
    cases h with
    | ret hnext =>
      cases hpc : pc.next settings args with
      | call op resume =>
        rw [createNext, hpc] at hnext
        cases hnext
      | ended result =>
        rw [createNext, hpc] at hnext
        obtain ⟨answer, rfl, rfl⟩ : ∃ answer, result = .ok answer ∧ response = .booking answer := by
          cases result with
          | ok answer => exact ⟨answer, rfl, by cases hnext; rfl⟩
          | error e => cases hnext
        refine ⟨.booking answer, ?_, rfl⟩
        rw [Concurrent.Pc.result, Concurrent.Pc.next, hpc]
        rfl
  | @cancel args _ pc h =>
    cases h with
    | ret hnext =>
      cases hpc : pc.next args with
      | call op resume =>
        rw [cancelNext, hpc] at hnext
        cases hnext
      | ended result =>
        rw [cancelNext, hpc] at hnext
        obtain ⟨rfl, rfl⟩ : result = .ok () ∧ response = .noContent := by
          cases result with
          | ok _ => exact ⟨rfl, by cases hnext; rfl⟩
          | error e => cases hnext
        refine ⟨.noContent, ?_, rfl⟩
        rw [Concurrent.Pc.result, Concurrent.Pc.next, hpc]
        rfl

/-- A handler that has responded has done so for its request, or is a bystander. -/
theorem Follows.result {settings : Settings} {r : RequestId} {w : World} {p : App Response}
    {q : Concurrent.Pc} {response : Response} (h : Follows settings r w p q)
    (hended : p.result? = some (.ok response)) :
    (∃ b, q = .other b) ∨
      ∃ reply, q.result settings = some (.ok reply) ∧ response = .ofReply reply := by
  have hret : p = .ret response :=
    Program.await_eq_ended_iff.mp (Program.result?_eq_some_iff.mp hended)
  subst hret
  cases h with
  | refused _ hrefused => exact hrefused.fails.elim
  | handles h => exact .inr h.result
  | @other _ b h => exact .inl ⟨b, rfl⟩

variable {security : Security} {settings : Settings} {now : RequestId → Instant}
  {tasks : RequestId → Option Task} {c : Config RequestId World (App Response)}
  {tr : List (Transition (Config RequestId World (App Response))
    (Action RequestId World.Fault World.Env))}

/-- Each handler of a run follows a request of a run of the requests for bookings. -/
theorem follows_of_run (hrun : Run Interleaving.Step (start security settings now tasks) tr c) :
    ∃ requests tr' d, (∀ r, Serves security settings (now r) (tasks r) (requests r)) ∧
      Concurrent.RunOf settings requests tr' d ∧ Skips tr tr' ∧ d.shared = c.shared ∧
      ∀ r, Follows settings r c.shared (c.threads r) (d.threads r) := by
  choose requests hserves using fun r => exists_serves security settings (now r) (tasks r)
  have hstart : Simulation.Related (Follows settings) (start security settings now tasks)
      (Concurrent.start requests) := ⟨rfl, fun r => follows_start (hserves r) rfl⟩
  obtain ⟨tr', d, hrun', hskips, hshared, hfollows⟩ := (simulation settings).run hrun hstart
  exact ⟨requests, tr', d, hserves, hrun', hskips, hshared, hfollows⟩

/-- **Refinement**: a run of the API is a run of the requests for bookings and their bystanders, up
to steps that change nothing, and a request for a booking is answered by its result. -/
theorem refines_of_run (hrun : Run Interleaving.Step (start security settings now tasks) tr c) :
    ∃ requests tr' d, (∀ r, Serves security settings (now r) (tasks r) (requests r)) ∧
      Concurrent.RunOf settings requests tr' d ∧ Skips tr tr' ∧ d.shared = c.shared ∧
      ∀ r response, (c.threads r).result? = some (.ok response) → (∃ b, requests r = .other b) ∨
        ∃ reply, (d.threads r).result settings = some (.ok reply) ∧
          response = .ofReply reply := by
  obtain ⟨requests, tr', d, hserves, hrun', hskips, hshared, hfollows⟩ := follows_of_run hrun
  refine ⟨requests, tr', d, hserves, hrun', hskips, hshared, fun r response hended => ?_⟩
  refine ((hfollows r).result hended).imp_left ?_
  rintro ⟨b, hb⟩
  cases hrequest : requests r with
  | createBooking args =>
    obtain ⟨pc, hpc⟩ := (Concurrent.RunOf.create_iff hrun').mp hrequest
    exact absurd (hb.symm.trans hpc) nofun
  | cancelBooking args =>
    obtain ⟨pc, hpc⟩ := (Concurrent.RunOf.cancel_iff hrun').mp hrequest
    exact absurd (hb.symm.trans hpc) nofun
  | other b' => exact ⟨b', rfl⟩

/-! ### A booking that is made and cancelled -/

namespace Scenario

def bookingBody : BookingCreate :=
  ⟨1, [1], Concurrent.Scenario.oclock 10, Concurrent.Scenario.oclock 12, by decide⟩

/-- An administrator, a hall and its seat, and a booking that its user cancels. -/
def bookingTasks (r : RequestId) : Option Task :=
  [.createAdmin "" "ann@example.com" "secret",
    .serve ⟨bearer admin, .createHall Concurrent.Scenario.hallBody⟩,
    .serve ⟨bearer admin, .createSeat 1 seatBody⟩,
    .serve ⟨bearer admin, .createBooking bookingBody Concurrent.Scenario.booking.token⟩,
    .serve ⟨bearer admin, .cancelBooking 1⟩][r]?

def bookingStart : Config RequestId World (App Response) :=
  start .transparent BookingApi.settings (fun _ => 0) bookingTasks

/-- The response to the request for the booking. -/
def booked : BookingService.BookingResponse :=
  ⟨1, 1, 1, "Red", [⟨1, 1, 1⟩], bookingBody.startTime.instant, bookingBody.endTime.instant, 2000,
    .confirmed, 0⟩

/-- One task after the other. -/
def bookingSchedule : List (Action RequestId World.Fault World.Env) :=
  (List.replicate 5 0 ++ List.replicate 4 1 ++ List.replicate 5 2 ++ List.replicate 15 3
    ++ List.replicate 6 4).map .run

theorem exists_run_bookings (P : Config RequestId World (App Response) → Prop) [DecidablePred P]
    (h : ((replay Interleaving.Step bookingSchedule bookingStart).map fun c => decide (P c))
      = some true) :
    ∃ tr c, Run Interleaving.Step bookingStart tr c ∧ P c :=
  Run.exists_of_replay P h

end Scenario

open Scenario in
/-- The request that cancels the booking is a request for a booking. -/
theorem refines_bookings : ∃ tr c, Run Interleaving.Step bookingStart tr c ∧
    (c.threads 4).result? = some (.ok .noContent) ∧ ∃ requests tr' d,
      requests 4 = .cancelBooking ⟨1, 1⟩ ∧
        Concurrent.RunOf BookingApi.settings requests tr' d ∧ d.shared = c.shared := by
  obtain ⟨tr, c, hrun, hended⟩ := exists_run_bookings
    (fun c => (c.threads 4).result? = some (.ok .noContent)) (by decide +kernel)
  obtain ⟨requests, tr', d, hserves, hrun', -, hshared, -⟩ := refines_of_run hrun
  have hid : authenticatedId .transparent 0 (bearer admin) = .ok 1 := by decide +kernel
  have htask : bookingTasks 4 = some (.serve ⟨bearer admin, .cancelBooking 1⟩) := rfl
  refine ⟨tr, c, hrun, hended, requests, tr', d, ?_, hrun', hshared⟩
  have h4 := hserves 4
  rw [htask] at h4
  generalize requests 4 = request at h4
  cases h4 with
  | cancel h =>
    cases hid.symm.trans h
    rfl
  | other h => exact absurd ⟨trivial, 1, hid⟩ h

end BookingApi.Api
