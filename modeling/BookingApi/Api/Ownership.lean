import BookingApi.Api.Answers
import BookingApi.Api.Refinement
import BookingApi.Concurrent.AllOrNothing
import BookingApi.Concurrent.Payload

/-!
# Whose bookings change

The two tables of bookings change only when a request for a booking commits, and then as the user
wants that its token names: by a new booking of this user, or by the cancellation of one
(`bookings_of_run`).  What a response shows of bookings is shown to their user (`shown_of_run`).
-/

namespace BookingApi

open Async

/-! ### One step -/

/-- The booking of the user is cancelled, and nothing else changes. -/
def CancelsBooking (args : CancelArgs) (db db' : Db) : Prop :=
  (∃ b ∈ db.bookings.rows, b.id = args.bookingId ∧ b.userId = args.userId) ∧
    db'.bookings.rows = db.bookings.rows.map (fun b =>
      if b.id = args.bookingId then { b with status := .cancelled } else b) ∧
    db'.bookingSeats = db.bookingSeats

/-- The tables of bookings are the same. -/
def SameBookings (db db' : Db) : Prop :=
  db'.bookings = db.bookings ∧ db'.bookingSeats = db.bookingSeats

/-- In one step the request has cancelled the confirmed booking. -/
def CancelledBy {Pc : Type*} (tr : List (Transition (Config RequestId World Pc)
    (Action RequestId World.Fault World.Env))) (r : RequestId) (args : CancelArgs) : Prop :=
  ∃ t ∈ tr, t.action = .run r ∧
    (∃ b ∈ t.before.shared.db.bookings.rows, b.id = args.bookingId ∧ b.status = .confirmed) ∧
    CancelsBooking args t.before.shared.db t.after.shared.db

theorem CancelledBy.of_skips {Pc Pc' : Type*} {tr : List (Transition (Config RequestId World Pc)
      (Action RequestId World.Fault World.Env))}
    {tr' : List (Transition (Config RequestId World Pc')
      (Action RequestId World.Fault World.Env))} (hskips : Skips tr tr') {r : RequestId}
    {args : CancelArgs} (h : CancelledBy tr' r args) : CancelledBy tr r args := by
  obtain ⟨t', ht', hact, hconfirmed, hcancels⟩ := h
  obtain ⟨t, ht, hbefore, haction, hafter⟩ := hskips.exists_origin ht'
  rw [hbefore] at hconfirmed hcancels
  rw [hafter] at hcancels
  exact ⟨t, ht, haction.symm.trans hact, hconfirmed, hcancels⟩

namespace Concurrent

open BookingService World

variable {settings : Settings} {requests : RequestId → Request} {tr : Trace} {c c' : Config}

theorem cancelsBooking_commit {w : World} {r : RequestId} {args : CancelArgs}
    (hws : w.writesOf r = [.updateBooking args.bookingId .cancelled]) (howned : Owned w args) :
    CancelsBooking args w.db (w.commit r).db := by
  have hdb : (w.commit r).db = Write.apply w.db (.updateBooking args.bookingId .cancelled) := by
    show w.db.applyAll (w.writesOf r) = _
    rw [hws]
    rfl
  rw [hdb]
  exact ⟨howned, rfl, rfl⟩

/-- **What a step does to bookings.** -/
theorem bookings_of_step (hi : Inv c) {a : Action} (h : step settings c a = some c') :
    SameBookings c.shared.db c'.shared.db ∨ ∃ r, a = .run r ∧
      ((∃ args pc id, c.threads r = .create args pc ∧
          NewBooking args id c.shared.db c'.shared.db) ∨
        ∃ args, c.threads r = .cancel args .commit ∧
          c'.threads r = .cancel args (.done (.ok ())) ∧
          CancelsBooking args c.shared.db c'.shared.db) := by
  cases dbStep_of_step h with
  | keep hdb =>
    rw [hdb]
    exact .inl ⟨rfl, rfl⟩
  | @create i args answer hpc ht hw =>
    -- the commit adds the booking that the request has filled
    obtain ⟨⟨b, k, hid, hd, hws⟩, -⟩ := hi.create hpc
    rw [← hid] at hws
    obtain ⟨hbookings, hseats⟩ := commit_filled hi.sound hws
    rw [← hw] at hbookings hseats
    refine .inr ⟨i, rfl, .inl ⟨args, _, answer.id, hpc, b, _, hid, hd, hbookings, hseats, ?_, ?_⟩⟩
    · exact map_seatId_bookingSeatRows ..
    · exact fun bs hbs => (mem_bookingSeatRows hbs).2.2.1.trans hid
  | @cancel i args hpc ht hw =>
    have hinv := hi.cancel hpc
    refine .inr ⟨i, rfl, .inr ⟨args, hpc, by rw [ht, Function.update_self], ?_⟩⟩
    rw [hw]
    exact cancelsBooking_commit hinv.1 hinv.2.2
  | other hpc hw =>
    have hinv := hi.other hpc
    rw [hw]
    exact .inl ⟨Db.bookings_applyAll _ fun x hx => (hinv.1 x hx).1,
      Db.bookingSeats_applyAll _ fun x hx => (hinv.1 x hx).2⟩

/-- **Who has cancelled a booking**: a request that has succeeded. -/
theorem RunOf.cancelledBy (h : RunOf settings requests tr c) :
    ∀ b ∈ c.shared.db.bookings.rows, b.status = .cancelled → ∃ r args,
      c.threads r = .cancel args (.done (.ok ())) ∧ args.bookingId = b.id ∧
        CancelledBy tr r args := by
  refine Run.trace_invariant
    (I := fun tr c => ∀ b ∈ c.shared.db.bookings.rows, b.status = .cancelled → ∃ r args,
      c.threads r = .cancel args (.done (.ok ())) ∧ args.bookingId = b.id ∧ CancelledBy tr r args)
    (A := fun _ _ => True) (fun b hb => absurd hb List.not_mem_nil) ?_ h fun _ _ => trivial
  intro tr c a c' hrun hI _ hstep b hb hcancelled
  -- a booking that was cancelled before
  have old {b₀ : Booking} (hb₀ : b₀ ∈ c.shared.db.bookings.rows) (hid : b₀.id = b.id)
      (hcancelled₀ : b₀.status = .cancelled) : ∃ r args,
        c'.threads r = .cancel args (.done (.ok ())) ∧ args.bookingId = b.id ∧
          CancelledBy (⟨c, a, c'⟩ :: tr) r args := by
    obtain ⟨r, args, hdone, hbid, t, ht, hby⟩ := hI b₀ hb₀ hcancelled₀
    have hended : (c.threads r).next settings = .ended (.ok .noContent) := by rw [hdone]; rfl
    exact ⟨r, args, (threads_of_ended hended hstep).trans hdone, hbid.trans hid, t,
      List.mem_cons_of_mem _ ht, hby⟩
  rcases bookings_of_step (RunOf.inv hrun) hstep with
    ⟨hsame, -⟩ | ⟨r, hact, ⟨args, pc, id, hpc, b', rows, -, hdraft, hrows, -⟩ | ⟨args, -, hdone, h⟩⟩
  · rw [hsame] at hb
    exact old hb rfl hcancelled
  · rw [hrows] at hb
    rcases List.mem_append.mp hb with hb | hb
    · exact old hb rfl hcancelled
    · -- a new booking is confirmed
      obtain rfl := List.mem_singleton.mp hb
      cases hdraft.status.symm.trans hcancelled
  · have hrows := h.2.1
    rw [hrows] at hb
    obtain ⟨b₀, hb₀, rfl⟩ := List.mem_map.mp hb
    have hid : b₀.id
        = (if b₀.id = args.bookingId then { b₀ with status := .cancelled } else b₀).id := by
      split_ifs <;> rfl
    cases hstatus : b₀.status with
    | cancelled => exact old hb₀ hid hstatus
    | confirmed =>
      -- it was confirmed until this step
      split_ifs at hcancelled hid ⊢ with hargs
      · exact ⟨r, args, hdone, hargs.symm, _, List.mem_cons_self .., hact,
          ⟨b₀, hb₀, hargs, hstatus⟩, h⟩
      · cases hstatus.symm.trans hcancelled

end Concurrent

namespace Api

open BookingService

variable {security : Security} {settings : Settings} {now : RequestId → Instant}
  {tasks : RequestId → Option Task} {c : Config RequestId World (App Response)}
  {tr : List (Transition (Config RequestId World (App Response))
    (Action RequestId World.Fault World.Env))} {r : RequestId}

/-! ### Changes -/

/-- What a request of the user may do to the tables of bookings. -/
def Endpoint.Alters (userId : ℤ) (db db' : Db) : Endpoint → Prop
  | .createBooking data token => ∃ id, Concurrent.NewBooking
    ⟨userId, data.hallId, data.seatIds, data.startTime, data.endTime, token⟩ id db db'
  | .cancelBooking bookingId => CancelsBooking ⟨bookingId, userId⟩ db db'
  | _ => False

theorem Serves.create_inv {now : Instant} {task : Option Task} {request : Concurrent.Request}
    (h : Serves security settings now task request) {args : CreateArgs}
    (hrequest : request = .createBooking args) : ∃ authorization data token,
      task = some (.serve ⟨authorization, .createBooking data token⟩) ∧
        authenticatedId security now authorization = .ok args.userId ∧
        args = ⟨args.userId, data.hallId, data.seatIds, data.startTime, data.endTime, token⟩ := by
  cases h with
  | @create authorization data token userId hid =>
    cases hrequest
    exact ⟨authorization, data, token, rfl, hid, rfl⟩
  | cancel hid => cases hrequest
  | other hbooks h => cases hrequest

theorem Serves.cancel_inv {now : Instant} {task : Option Task} {request : Concurrent.Request}
    (h : Serves security settings now task request) {args : CancelArgs}
    (hrequest : request = .cancelBooking args) : ∃ authorization,
      task = some (.serve ⟨authorization, .cancelBooking args.bookingId⟩) ∧
        authenticatedId security now authorization = .ok args.userId := by
  cases h with
  | create hid => cases hrequest
  | @cancel authorization bookingId userId hid =>
    cases hrequest
    exact ⟨authorization, rfl, hid⟩
  | other hbooks h => cases hrequest

/-- **Whose bookings change**: a transition leaves the tables of bookings alone, or it is made by a
request whose token names a user, and adds the booking that the request asks for as a booking of
this user, or cancels a booking of this user. -/
theorem bookings_of_run (hrun : Run Interleaving.Step (start security settings now tasks) tr c) :
    ∀ t ∈ tr, SameBookings t.before.shared.db t.after.shared.db ∨ ∃ r request userId,
      t.action = .run r ∧ tasks r = some (.serve request) ∧
        authenticatedId security (now r) request.authorization = .ok userId ∧
        request.endpoint.Alters userId t.before.shared.db t.after.shared.db := by
  intro t ht
  obtain ⟨requests, tr', d, hserves, hrun', hskips, -, -⟩ := follows_of_run hrun
  by_cases hsame : t.after.shared = t.before.shared
  · rw [hsame]
    exact .inl ⟨rfl, rfl⟩
  obtain ⟨t', ht', hbefore, haction, hafter⟩ := hskips.exists_of_mem ht hsame
  obtain ⟨hstep, tr'', hrun'', -⟩ := Run.of_mem hrun' ht'
  rw [← hbefore, ← haction, ← hafter]
  refine (Concurrent.bookings_of_step (Concurrent.RunOf.inv hrun'') hstep).imp_right ?_
  rintro ⟨r, hact, ⟨args, pc, id, hpc, hnew⟩ | ⟨args, hpc, -, hcancels⟩⟩
  · have hrequest := (Concurrent.RunOf.create_iff hrun'').mpr ⟨pc, hpc⟩
    obtain ⟨authorization, data, token, htask, hid, hargs⟩ := (hserves r).create_inv hrequest
    exact ⟨r, _, _, hact, htask, hid, id, hargs ▸ hnew⟩
  · have hrequest := (Concurrent.RunOf.cancel_iff hrun'').mpr ⟨_, hpc⟩
    obtain ⟨authorization, htask, hid⟩ := (hserves r).cancel_inv hrequest
    exact ⟨r, _, _, hact, htask, hid, hcancels⟩

open Scenario in
/-- A booking that is made and cancelled. -/
theorem bookings_madeAndCancelled : ∃ tr c, Run Interleaving.Step bookingStart tr c ∧
    c.shared.db.bookings.rows.map Booking.status = [.cancelled] ∧
    ∀ t ∈ tr, SameBookings t.before.shared.db t.after.shared.db ∨ ∃ r request userId,
      t.action = .run r ∧ bookingTasks r = some (.serve request) ∧
        authenticatedId .transparent 0 request.authorization = .ok userId ∧
        request.endpoint.Alters userId t.before.shared.db t.after.shared.db := by
  obtain ⟨tr, c, hrun, hstatus⟩ := exists_run_bookings
    (fun c => c.shared.db.bookings.rows.map Booking.status = [.cancelled]) (by decide +kernel)
  exact ⟨tr, c, hrun, hstatus, bookings_of_run hrun⟩

/-! ### Responses -/

/-- The bookings that a response shows. -/
def Response.shown : Response → List BookingResponse
  | .booking item => [item]
  | .bookings page => page.items
  | _ => []

/-- Nothing is said of exceptions. -/
abbrev Gives {α : Type} (P : α → Prop) (p : App α) : Prop :=
  p.Yields (EndsIn fun _ => True) P fun _ => True

theorem gives_buildBookingResponse (b : LoadedBooking) :
    Gives (fun booking => booking.userId = b.booking.userId) (buildBookingResponse b) := by
  refine .bind (Program.yields_true _) fun seats _ =>
    Program.yields_ofExcept (fun booking h => ?_) fun _ _ => trivial
  obtain ⟨items, -, rfl⟩ := bookingResponse_eq_ok h
  rfl

/-- The object for a row of the user. -/
theorem Session.OwnedBy.userId_booking {session : Session} {userId : ℤ}
    (h : Session.OwnedBy session userId) {row : Booking} (hrow : row.userId = userId) :
    (session.booking row).userId = userId := by
  rcases identityMap_cases session.bookings row with ⟨-, heq⟩ | ⟨hmem, -⟩
  · rwa [Session.booking, heq]
  · exact h _ hmem

theorem gives_getBookingRoute {session : Session} {userId : ℤ}
    (howned : Session.OwnedBy session userId) (bookingId : ℤ) :
    Gives (fun booking => booking.userId = userId) (getBookingRoute session bookingId userId) := by
  refine .bind (Q := fun b => b.booking.userId = userId) (.bind (yields_execute
    (P := fun row => ∀ b, row = some b → b.booking.userId = userId) ?_ fun _ _ => trivial)
    fun row hrow => ?_) fun b hb => (gives_buildBookingResponse b).mono fun _ h => h.trans hb
  · intro db _ b hfound
    obtain ⟨row, hrow, rfl⟩ := Option.map_eq_some_iff.mp hfound
    have howner : row.id = bookingId ∧ userId = row.userId := by
      simpa using List.find?_some hrow
    exact howned.userId_booking howner.2.symm
  · cases row with
    | none => trivial
    | some b => exact hrow b rfl

theorem gives_buildBookingResponses {bookings : List LoadedBooking} {userId : ℤ}
    (h : ∀ b ∈ bookings, b.booking.userId = userId) :
    Gives (fun items => ∀ booking ∈ items, booking.userId = userId)
      (buildBookingResponses bookings) := by
  induction bookings with
  | nil => exact fun _ hb => absurd hb List.not_mem_nil
  | cons b bookings ih =>
    refine .bind (gives_buildBookingResponse b) fun item hitem =>
      .bind (ih fun b' hb' => h b' (List.mem_cons_of_mem _ hb')) fun items hitems => ?_
    intro booking hbooking
    rcases List.mem_cons.mp hbooking with rfl | hbooking
    · exact hitem.trans (h b (List.mem_cons_self ..))
    · exact hitems booking hbooking

theorem gives_listBookingsRoute {session : Session} {userId : ℤ}
    (howned : Session.OwnedBy session userId) (pagination : PaginationParams) :
    Gives (fun page => ∀ booking ∈ page.items, booking.userId = userId)
      (listBookingsRoute session userId pagination) := by
  refine .bind (Q := fun page => ∀ b ∈ page.1, b.booking.userId = userId)
    (.bind (Program.yields_true _) fun total _ => .bind (yields_execute
      (P := fun result => ∀ bookings, result = .ok bookings →
        ∀ b ∈ bookings, b.booking.userId = userId) ?_ fun _ _ => trivial) fun result hresult =>
      .bind (Program.yields_ofExcept hresult fun _ _ => trivial) fun bookings hbookings =>
        hbookings)
    fun page hpage => .bind (gives_buildBookingResponses hpage) fun items hitems => hitems
  intro db _ bookings hbookings b hb
  obtain ⟨rows, hrows⟩ := limitOffset_eq_ok pagination
    ((selectBookingsOf userId db).mergeSort fun b b' => b.createdAt ≥ b'.createdAt)
  rw [selectUserBookings, hrows] at hbookings
  cases hbookings
  obtain ⟨row, hrow, rfl⟩ := List.mem_map.mp hb
  have hmem := List.mem_mergeSort.mp (mem_of_limitOffset hrows hrow)
  exact howned.userId_booking (of_decide_eq_true (List.mem_filter.mp hmem).2)

/-- The row that a response speaks of. -/
theorem mem_of_records {db : Db} {id : ℤ} {b : Booking}
    (h : db.Records (.bookings, id) (.booking b)) :
    ∃ b' ∈ db.bookings.rows, b'.id = id ∧ b'.terms = b.terms := by
  obtain ⟨row, hrow, hlater⟩ := h
  cases row with
  | booking b' =>
    obtain ⟨hmem, hid⟩ := Table.find?_eq_some_iff.mp (Db.row_bookings_eq_some.mp hrow)
    exact ⟨b', hmem, hid, hlater.1⟩
  | _ => exact hlater.elim

/-- The rows of a run of the requests for bookings stay, with their terms. -/
theorem exists_later_booking {requests : RequestId → Concurrent.Request} {tr : Concurrent.Trace}
    {d : Concurrent.Config} (hrun : Concurrent.RunOf settings requests tr d)
    {t : Transition Concurrent.Config Concurrent.Action} (ht : t ∈ tr) {b : Booking}
    (hb : b ∈ t.after.shared.db.bookings.rows) :
    ∃ b' ∈ d.shared.db.bookings.rows, b'.terms = b.terms := by
  refine Run.stays (P := fun d => ∃ b' ∈ d.shared.db.bookings.rows, b'.terms = b.terms) ?_ hrun ht
    ⟨b, hb, rfl⟩
  rintro c a c' ⟨b', hb', hterms⟩ hstep
  obtain ⟨b'', hb'', hterms'⟩ :=
    Table.exists_of_map_subset (Concurrent.grows_of_step hstep).bookings hb'
  exact ⟨b'', hb'', hterms'.trans hterms⟩

/-- A request that was answered was not refused. -/
theorem not_refused_of_run (hrun : Run Interleaving.Step (start security settings now tasks) tr c)
    {response : Response} (hended : (c.threads r).result? = some (.ok response)) :
    ¬ Refused (Task.program security settings (now r) (tasks r)) := by
  intro hrefused
  have hfails : (c.threads r).Fails := (holds_of_next Refused.next hrun hrefused).fails
  exact hfails.result?_ne response hended

/-- The request for a booking that an answered task is. -/
theorem Serves.of_created {now : Instant} {task : Option Task} {request : Concurrent.Request}
    {authorization : Option String} {data : BookingCreate} {token : Token}
    (h : Serves security settings now task request)
    (htask : task = some (.serve ⟨authorization, .createBooking data token⟩))
    (hended : ¬ Refused (Task.program security settings now task)) :
    ∃ userId, authenticatedId security now authorization = .ok userId ∧ request = .createBooking
      ⟨userId, data.hallId, data.seatIds, data.startTime, data.endTime, token⟩ := by
  cases h with
  | @create _ _ _ userId hid =>
    cases htask
    exact ⟨userId, hid, rfl⟩
  | cancel hid => cases htask
  | other hbooks h =>
    subst htask
    cases hid : authenticatedId security now authorization with
    | ok userId => exact absurd ⟨trivial, userId, hid⟩ hbooks
    | error e =>
      rw [Task.program, Request.handler] at hended
      exact absurd (refused_asUser hid) hended

/-- What a request that has created a booking has committed. -/
theorem exists_created {requests : RequestId → Concurrent.Request} {tr : Concurrent.Trace}
    {d : Concurrent.Config} (hrun : Concurrent.RunOf settings requests tr d) {args : CreateArgs}
    (hrequest : requests r = .createBooking args) {answer : BookingResponse}
    (hended : (d.threads r).result settings = some (.ok (.booking answer))) :
    ∃ b ∈ d.shared.db.bookings.rows, b.id = answer.id ∧ b.userId = args.userId := by
  obtain ⟨pc, hpc⟩ := (Concurrent.RunOf.create_iff hrun).mp hrequest
  have hmade := Concurrent.RunOf.effect hrun r
  rw [hpc] at hended hmade
  obtain ⟨res, rfl, hres⟩ := Concurrent.result_create hended
  cases res with
  | error e => cases hres
  | ok answer' =>
    cases hres
    obtain ⟨later, t, earlier, rfl, -, ⟨b, rows, hid, hdraft, hbookings, -⟩, -, -⟩ := hmade
    have hb : b ∈ t.after.shared.db.bookings.rows := by
      rw [hbookings]
      exact List.mem_append_right _ (List.mem_singleton_self b)
    obtain ⟨b', hb', hterms⟩ := exists_later_booking hrun
      (List.mem_append_right later (List.mem_cons_self ..)) hb
    have huser : b'.userId = b.userId := congrArg (·.2.1) hterms
    exact ⟨b', hb', (Booking.id_eq_of_terms hterms).trans hid, huser.trans hdraft.userId⟩

/-- A new booking belongs to the user that the token names. -/
theorem owner_of_created (hrun : Run Interleaving.Step (start security settings now tasks) tr c)
    {authorization : Option String} {data : BookingCreate} {token : Token}
    (htask : tasks r = some (.serve ⟨authorization, .createBooking data token⟩))
    {booking : BookingResponse} (hended : (c.threads r).result? = some (.ok (.booking booking))) :
    authenticatedId security (now r) authorization = .ok booking.userId := by
  obtain ⟨requests, tr', d, hserves, hrun', -, hshared, hfollows⟩ := follows_of_run hrun
  obtain ⟨userId, hid, hrequest⟩ :=
    (hserves r).of_created htask (not_refused_of_run hrun hended)
  obtain ⟨pc, hpc⟩ := (Concurrent.RunOf.create_iff hrun').mp hrequest
  obtain ⟨reply, hreply, hresponse⟩ := ((hfollows r).result hended).resolve_left fun ⟨b, hb⟩ => by
    rw [hpc] at hb
    cases hb
  cases reply with
  | noContent => cases hresponse
  | booking answer =>
    obtain rfl : booking = answer := by cases hresponse; rfl
    obtain ⟨b, hb, hbid, huser⟩ := exists_created hrun' hrequest hreply
    -- the response speaks of the same row
    have hbooked : Booked data booking c.shared.db := effect_of_ended hrun htask hended
    obtain ⟨b₁, hb₁, howner, -⟩ := hbooked.2.1.1
    obtain ⟨b₂, hb₂, hid₂, hterms⟩ := mem_of_records hb₁
    rw [hshared] at hb
    obtain rfl := Table.eq_of_key_eq hb hb₂ (hbid.trans hid₂.symm)
    have hsame : b.userId = b₁.userId := congrArg (·.2.1) hterms
    rw [← howner, ← hsame, huser]
    exact hid

/-- The bookings that the response shows are those of the user that the token names. -/
def ShownTo (security : Security) (now : Instant) (authorization : Option String)
    (response : Response) : Prop :=
  ∀ booking ∈ response.shown, authenticatedId security now authorization = .ok booking.userId

theorem gives_getBooking (security : Security) (now : Instant) (authorization : Option String)
    (bookingId : ℤ) : Gives (ShownTo security now authorization)
      (asUser security now authorization
        (fun user session => getBookingRoute session bookingId user.id) .booking) := by
  refine yields_asUser (fun _ _ => trivial) (fun _ _ => trivial) fun user session hid howned =>
    (gives_getBookingRoute howned bookingId).mono ?_
  intro item howner booking hbooking
  obtain rfl := List.mem_singleton.mp hbooking
  rw [howner]
  exact hid

theorem gives_listBookings (security : Security) (now : Instant) (authorization : Option String)
    (pagination : PaginationParams) : Gives (ShownTo security now authorization)
      (asUser security now authorization
        (fun user session => listBookingsRoute session user.id pagination) .bookings) := by
  refine yields_asUser (fun _ _ => trivial) (fun _ _ => trivial) fun user session hid howned =>
    (gives_listBookingsRoute howned pagination).mono ?_
  intro page howners booking hbooking
  rw [howners booking hbooking]
  exact hid

/-- **To whom bookings are shown**: the token of a request names the user of every booking that the
response shows. -/
theorem shown_of_run (hrun : Run Interleaving.Step (start security settings now tasks) tr c)
    {request : Request} (htask : tasks r = some (.serve request)) {response : Response}
    (hended : (c.threads r).result? = some (.ok response)) :
    ∀ booking ∈ response.shown,
      authenticatedId security (now r) request.authorization = .ok booking.userId := by
  have heffect : request.endpoint.effect security response c.shared.db :=
    effect_of_ended hrun htask hended
  obtain ⟨authorization, endpoint⟩ := request
  have gives {P : Response → Prop}
      (h : Gives P ((Request.mk authorization endpoint).handler security settings (now r))) :
      P response := by
    have hgives : Gives P ((start security settings now tasks).threads r) := by
      show Gives P (Task.program security settings (now r) (tasks r))
      rw [htask]
      exact yields_getDb (fun _ _ _ => trivial) h
    exact (result_of_run (fun _ => ends_of_view trivial) hgives hrun).1 response hended
  cases response with
  | booking item =>
    cases endpoint with
    | createBooking data token =>
      intro booking hbooking
      obtain rfl := List.mem_singleton.mp hbooking
      exact owner_of_created hrun htask hended
    | getBooking bookingId => exact gives (gives_getBooking security (now r) authorization _)
    | _ => exact heffect.elim
  | bookings page =>
    cases endpoint with
    | listBookings pagination =>
      exact gives (gives_listBookings security (now r) authorization pagination)
    | _ => exact heffect.elim
  | _ => exact fun _ hbooking => absurd hbooking List.not_mem_nil

open Scenario in
/-- The new booking is shown to its user. -/
theorem shown_madeAndCancelled : ∃ tr c, Run Interleaving.Step bookingStart tr c ∧
    (c.threads 3).result? = some (.ok (.booking booked)) ∧
    authenticatedId .transparent 0 (bearer admin) = .ok booked.userId := by
  obtain ⟨tr, c, hrun, hended⟩ := exists_run_bookings
    (fun c => (c.threads 3).result? = some (.ok (.booking booked))) (by decide +kernel)
  have htask : bookingTasks 3 = some (.serve
    ⟨bearer admin, .createBooking bookingBody Concurrent.Scenario.booking.token⟩) := rfl
  exact ⟨tr, c, hrun, hended,
    shown_of_run hrun htask hended booked (List.mem_singleton_self booked)⟩

end Api

end BookingApi
