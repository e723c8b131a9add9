import BookingApi.Api.Accepted
import BookingApi.Worker.Events

/-!
# From the request to the mail

The worker behind the API: what becomes of the events of interleaved requests to all routes, from
the serializer of the producer to the calls of `send_email`.  It never stops, and every mail goes to
the user whose token made the request (`addressed_of_run`); every committed booking is confirmed
with exactly one mail (`confirmed_of_run`), and every cancelled one is reported (`reported_of_run`).
-/

namespace BookingApi

open Async

namespace Worker

open BookingService NotificationService

variable {repr : Json → Text} {sent : Email → Bool}

/-! ### The mail of an event -/

/-- Without an address nothing is sent. -/
theorem process_of_no_address {event : List (Text × Json)}
    (h : (Json.get event "user_email" (.string "")).truthy = false) :
    process repr sent (.obj event) = (.ok (), []) := by
  rw [process, processEvent, if_pos h]
  rfl

theorem calls_created (args : CreateArgs) (hall : Hall) (user : User) (price : Decimal) (id : ℤ) :
    (process repr sent (.obj (args.event hall user price id).members)).2
      = if user.email = "" then [] else [confirmation id user.email hall.name
          (Decimal.hundredthsText price.toHundredths) args.startTime args.endTime] := by
  split_ifs with hemail
  · rw [process_of_no_address]
    have haddress : Json.get (args.event hall user price id).members "user_email" (.string "")
        = .string user.email := rfl
    rw [haddress, hemail]
    rfl
  · exact congrArg Prod.snd (process_bookingCreated id args.userId hemail hall.name _ _ _)

theorem calls_cancelled (id userId : ℤ) (userEmail hallName : String) :
    (process repr sent
        (.obj (BookingEvent.bookingCancelled id userId userEmail hallName).members)).2
      = if userEmail = "" then [] else [cancellation id userEmail hallName] := by
  split_ifs with hemail
  · rw [process_of_no_address]
    have haddress : Json.get (BookingEvent.bookingCancelled id userId userEmail hallName).members
        "user_email" (.string "") = .string userEmail := rfl
    rw [haddress, hemail]
    rfl
  · exact congrArg Prod.snd (process_bookingCancelled id userId hemail hallName)

/-! ### Subjects -/

/-- The mail is the confirmation of the booking. -/
def Confirms (mail : Email) (bookingId : ℤ) : Prop :=
  mail.subject = .ofString "Booking Confirmed #" ++ .ofString (toString bookingId)

instance (mail : Email) (bookingId : ℤ) : Decidable (Confirms mail bookingId) :=
  inferInstanceAs (Decidable (_ = _))

theorem confirms_confirmation_iff {id bookingId : ℤ} {userEmail hallName totalPrice : String}
    {startTime endTime : DateTime} :
    Confirms (confirmation id userEmail hallName totalPrice startTime endTime) bookingId ↔
      id = bookingId := by
  constructor
  · intro h
    exact toString_int_injective (Text.ofString_injective (List.append_cancel_left h))
  · rintro rfl
    rfl

theorem not_confirms_cancellation {id bookingId : ℤ} {userEmail hallName : String} :
    ¬ Confirms (cancellation id userEmail hallName) bookingId := by
  intro h
  have hprefix : (Text.ofString "Booking Cancelled #").take 10
      = (Text.ofString "Booking Confirmed #").take 10 := by
    have htake := congrArg (List.take 10) h
    rwa [cancellation, List.take_append_of_le_length (by decide),
      List.take_append_of_le_length (by decide)] at htake
  exact absurd hprefix (by decide)

/-! ### The mails of a run -/

section

open Concurrent

variable {settings : Settings} {requests : RequestId → Request} {tr : Trace} {c : Config}

/-- The mails of the announcement of a booking. -/
structure OfCreated (repr : Json → Text) (sent : Email → Bool) (tr : Trace) (c : Config)
    (event : BookingEvent) (args : CreateArgs) (hall : Hall) (user : User) (price : Decimal) :
    Prop where
  created : event.isCreated = true
  priced : Priced tr c args hall user price
  row : RowBooks c.shared event.bookingId args price
  calls : (process repr sent (.obj event.members)).2 = if user.email = "" then [] else
    [confirmation event.bookingId user.email hall.name
      (Decimal.hundredthsText price.toHundredths) args.startTime args.endTime]

/-- The mails of the report of a cancellation. -/
structure OfCancelled (repr : Json → Text) (sent : Email → Bool) (tr : Trace) (c : Config)
    (event : BookingEvent) (args : CancelArgs) (b : Booking) (hall : Hall) (user : User) :
    Prop where
  cancelled : event.isCreated = false
  bookingId : event.bookingId = args.bookingId
  stored : b ∈ c.shared.db.bookings.rows
  id : b.id = args.bookingId
  userId : b.userId = args.userId
  wasHall : WasHall tr c b.hallId hall
  wasUser : WasUser tr c args.userId user
  calls : (process repr sent (.obj event.members)).2
    = if user.email = "" then [] else [cancellation b.id user.email hall.name]

theorem OfCreated.eq_of_mem {event : BookingEvent} {args : CreateArgs} {hall : Hall} {user : User}
    {price : Decimal} (h : OfCreated repr sent tr c event args hall user price) {mail : Email}
    (hmail : mail ∈ (process repr sent (.obj event.members)).2) :
    user.email ≠ "" ∧ mail = confirmation event.bookingId user.email hall.name
      (Decimal.hundredthsText price.toHundredths) args.startTime args.endTime := by
  rw [h.calls, List.mem_ite_nil_left] at hmail
  exact ⟨hmail.1, List.mem_singleton.mp hmail.2⟩

theorem OfCancelled.eq_of_mem {event : BookingEvent} {args : CancelArgs} {b : Booking} {hall : Hall}
    {user : User} (h : OfCancelled repr sent tr c event args b hall user) {mail : Email}
    (hmail : mail ∈ (process repr sent (.obj event.members)).2) :
    user.email ≠ "" ∧ mail = cancellation b.id user.email hall.name := by
  rw [h.calls, List.mem_ite_nil_left] at hmail
  exact ⟨hmail.1, List.mem_singleton.mp hmail.2⟩

/-- **The mails of an event** of the topic. -/
theorem calls_of_mem_topic (h : RunOf settings requests tr c) {m : Message}
    (hm : m ∈ c.shared.topic) (repr : Json → Text) (sent : Email → Bool) :
    (∃ args hall user price, requests m.sender = .createBooking args ∧
      OfCreated repr sent tr c m.event args hall user price) ∨
    ∃ args b hall user, requests m.sender = .cancelBooking args ∧
      OfCancelled repr sent tr c m.event args b hall user := by
  rcases RunOf.announces_or_reports h hm with ⟨hcreated, args, hargs, hannounces⟩ |
    ⟨hcancelled, args, hargs, hreports⟩
  · obtain ⟨hall, user, price, id, hpriced, hrow, hevent⟩ := hannounces
    refine .inl ⟨args, hall, user, price, hargs, hcreated, hpriced, ?_, ?_⟩
    · rw [hevent]
      exact hrow
    · rw [hevent]
      exact calls_created args hall user price id
  · obtain ⟨_, _, ⟨⟨user, huser, rfl⟩, b, hb, hid, hu, hall, hhall, rfl⟩, hevent⟩ := hreports
    refine .inr ⟨args, b, hall, user, hargs, hcancelled, ?_, hb, hid, hu, hhall, huser, ?_⟩
    · rw [hevent]
      rfl
    · rw [hevent, hid]
      exact calls_cancelled args.bookingId args.userId user.email hall.name

/-- A mail confirms what its event announces. -/
theorem confirms_iff_of_mem_topic (h : RunOf settings requests tr c) {m : Message}
    (hm : m ∈ c.shared.topic) {mail : Email}
    (hmail : mail ∈ (process repr sent (.obj m.event.members)).2) (id : ℤ) :
    Confirms mail id ↔ m.event.isCreated ∧ m.event.bookingId = id := by
  rcases calls_of_mem_topic h hm repr sent with ⟨_, _, _, _, -, hof⟩ | ⟨_, _, _, _, -, hof⟩
  · obtain ⟨-, rfl⟩ := hof.eq_of_mem hmail
    rw [confirms_confirmation_iff]
    exact (and_iff_right hof.created).symm
  · obtain ⟨-, rfl⟩ := hof.eq_of_mem hmail
    refine iff_of_false not_confirms_cancellation fun hannounces => ?_
    rw [hof.cancelled] at hannounces
    cases hannounces.1

end

/-- The worker after the events of the topic. -/
def worked (repr : Json → Text) (sent : Email → Bool) (w : World) : Consumer.State Exc Email :=
  runWorker Kafka.deserialize repr sent
    (w.topic.map fun m => Kafka.serialize (.obj m.event.members))

/-- It has worked through all of them. -/
theorem worked_eq (w : World) : worked repr sent w
    = ⟨none, w.topic.flatMap fun m => (process repr sent (.obj m.event.members)).2⟩ := by
  rw [worked, runWorker_eq, Consumer.run_of_decodes]
  · rw [List.flatMap_map]
    refine congrArg (Consumer.State.mk none) (List.flatMap_congr fun m _ => ?_)
    rw [Consumer.callsOf, Kafka.deserialize_event]
  · intro msg hmsg
    obtain ⟨m, -, rfl⟩ := List.mem_map.mp hmsg
    exact ⟨_, Kafka.deserialize_event m.event⟩

/-- The confirmations of a booking are the mails of its announcements. -/
theorem filter_confirms (w : World) (id : ℤ)
    (h : ∀ m ∈ w.topic, ∀ mail ∈ (process repr sent (.obj m.event.members)).2,
      Confirms mail id ↔ m.event.isCreated ∧ m.event.bookingId = id) :
    (worked repr sent w).calls.filter (Confirms · id)
      = (w.announcements id).flatMap fun m => (process repr sent (.obj m.event.members)).2 := by
  rw [worked_eq]
  exact Consumer.filter_flatMap_eq fun m hm mail hmail => decide_eq_decide.mpr (h m hm mail hmail)

end Worker

namespace Api

open BookingService NotificationService Worker

variable {security : Security} {settings : Settings} {now : RequestId → Instant}
  {tasks : RequestId → Option Task} {c : Config RequestId World (App Response)}
  {tr : List (Transition (Config RequestId World (App Response))
    (Action RequestId World.Fault World.Env))} {b : Booking}

/-- The user had the id, and the address, in some state of the run. -/
def WasUser (tr : List (Transition (Config RequestId World (App Response))
    (Action RequestId World.Fault World.Env))) (c : Config RequestId World (App Response))
    (id : ℤ) (user : User) : Prop :=
  user.id = id ∧ Seen tr c fun db => user ∈ db.users.rows

/-- The hall had the id, the name and the price, in some state of the run. -/
def WasHall (tr : List (Transition (Config RequestId World (App Response))
    (Action RequestId World.Fault World.Env))) (c : Config RequestId World (App Response))
    (id : ℤ) (hall : Hall) : Prop :=
  hall.id = id ∧ Seen tr c fun db => hall ∈ db.halls.rows

/-- The request that a booking goes back to, and the price of it. -/
structure Origin (security : Security) (now : RequestId → Instant)
    (tasks : RequestId → Option Task) (b : Booking) (data : BookingCreate) (hall : Hall) :
    Prop where
  request : ∃ r authorization token,
    tasks r = some (.serve ⟨authorization, .createBooking data token⟩) ∧
      authenticatedId security (now r) authorization = .ok b.userId
  hallId : b.hallId = data.hallId
  startTime : b.startTime = data.startTime.instant
  endTime : b.endTime = data.endTime.instant
  totalPrice : ∃ duration, data.endTime.sub data.startTime = .ok duration ∧
    b.totalPrice = (bookingPrice hall duration).toHundredths

/-- **Every committed booking is confirmed once**: among the mails is exactly one confirmation of
it, to the user of the booking, with the name of the hall, the times that were asked for, and the
price that the booking is stored with; there is none if the user has no address. -/
theorem confirmed_of_run (hrun : Run Interleaving.Step (start security settings now tasks) tr c)
    (repr : Json → Text) (sent : Email → Bool) (hb : b ∈ c.shared.db.bookings.rows) :
    ∃ data user hall, Origin security now tasks b data hall ∧ WasUser tr c b.userId user ∧
      WasHall tr c b.hallId hall ∧
      (worked repr sent c.shared).calls.filter (Confirms · b.id)
        = if user.email = "" then [] else [confirmation b.id user.email hall.name
            (Decimal.hundredthsText b.totalPrice) data.startTime data.endTime] := by
  obtain ⟨requests, tr', d, hserves, hrun', hskips, hshared, -⟩ := follows_of_run hrun
  rw [← hshared] at hb ⊢
  obtain ⟨m, hone⟩ := List.length_eq_one_iff.mp ((Concurrent.RunOf.inv hrun').sound.announced b hb)
  have hm : m ∈ d.shared.announcements b.id := hone ▸ List.mem_singleton_self m
  obtain ⟨htopic, hannounced⟩ := List.mem_filter.mp hm
  obtain ⟨hcreated, hid⟩ := of_decide_eq_true hannounced
  rcases calls_of_mem_topic hrun' htopic repr sent with
    ⟨args, hall, user, price, hargs, hmail⟩ | ⟨_, _, _, _, -, hmail⟩
  · obtain ⟨authorization, data, token, htask, hauth, hdata⟩ := (hserves m.sender).create_inv hargs
    have hbooks := hmail.row b (.inl hb) hid.symm
    have huser : args.userId = b.userId := hbooks.userId.symm
    obtain ⟨duration, hduration, hprice⟩ := hmail.priced.priceOf
    have hstart : args.startTime = data.startTime := by rw [hdata]
    have hend : args.endTime = data.endTime := by rw [hdata]
    have hhall : args.hallId = data.hallId := by rw [hdata]
    refine ⟨data, user, hall, ⟨⟨m.sender, authorization, token, htask, huser ▸ hauth⟩, ?_, ?_, ?_,
      duration, ?_, ?_⟩, ⟨?_, seen_of_once hskips hshared hmail.priced.wasUser.2⟩,
      ⟨?_, seen_of_once hskips hshared hmail.priced.wasHall.2⟩, ?_⟩
    · exact hbooks.hallId.trans hhall
    · rw [hbooks.startTime, hstart]
    · rw [hbooks.endTime, hend]
    · rw [← hend, ← hstart]
      exact hduration
    · rw [hbooks.totalPrice, hprice]
    · exact hmail.priced.wasUser.1.trans huser
    · exact hmail.priced.wasHall.1.trans hbooks.hallId.symm
    · rw [filter_confirms, hone, List.flatMap_singleton, hmail.calls, hid, hstart, hend,
        hbooks.totalPrice]
      exact fun m' hm' mail hmail' => confirms_iff_of_mem_topic hrun' hm' hmail' b.id
  · rw [hmail.cancelled] at hcreated
    cases hcreated

open Scenario in
/-- The booking is confirmed, although it has been cancelled. -/
theorem confirmed_bookings : ∃ tr c, Run Interleaving.Step bookingStart tr c ∧
    ∃ b ∈ c.shared.db.bookings.rows, b.id = 1 ∧ b.status = .cancelled ∧ ∃ data user hall,
      Origin .transparent (fun _ => 0) bookingTasks b data hall ∧ WasUser tr c b.userId user ∧
      WasHall tr c b.hallId hall ∧
      (worked (fun _ => []) (fun _ => true) c.shared).calls.filter (Confirms · b.id)
        = if user.email = "" then [] else [confirmation b.id user.email hall.name
            (Decimal.hundredthsText b.totalPrice) data.startTime data.endTime] := by
  obtain ⟨tr, c, hrun, b, hb, hid, hstatus⟩ := exists_run_bookings
    (fun c => ∃ b ∈ c.shared.db.bookings.rows, b.id = 1 ∧ b.status = .cancelled)
    (by decide +kernel)
  exact ⟨tr, c, hrun, b, hb, hid, hstatus, confirmed_of_run hrun _ _ hb⟩

/-- The report of a request that has cancelled a booking is in the topic. -/
theorem exists_report {settings : Settings} {requests : RequestId → Concurrent.Request}
    {tr : Concurrent.Trace} {d : Concurrent.Config} (h : Concurrent.RunOf settings requests tr d)
    {r : RequestId} {args : CancelArgs} (hdone : d.threads r = .cancel args (.done (.ok ()))) :
    ∃ m ∈ d.shared.topic, m.sender = r ∧ m.event.isCreated = false := by
  obtain ⟨-, ⟨event, hreport, -, hsent⟩, -⟩ := (Concurrent.RunOf.inv h).cancel hdone
  have hm : ⟨r, event⟩ ∈ d.shared.sentBy r := hsent ▸ List.mem_singleton_self _
  exact ⟨_, (World.mem_sentBy.mp hm).1, rfl, hreport⟩

/-- **Every cancelled booking is reported** to its user, on whose request it was cancelled: a step
of this request has cancelled it, and the report is its own. -/
theorem reported_of_run (hrun : Run Interleaving.Step (start security settings now tasks) tr c)
    (repr : Json → Text) (sent : Email → Bool) (hb : b ∈ c.shared.db.bookings.rows)
    (hcancelled : b.status = .cancelled) :
    ∃ r authorization user hall, tasks r = some (.serve ⟨authorization, .cancelBooking b.id⟩) ∧
      authenticatedId security (now r) authorization = .ok b.userId ∧
      CancelledBy tr r ⟨b.id, b.userId⟩ ∧
      WasUser tr c b.userId user ∧ WasHall tr c b.hallId hall ∧
      (user.email ≠ "" →
        cancellation b.id user.email hall.name ∈ (worked repr sent c.shared).calls) := by
  obtain ⟨requests, tr', d, hserves, hrun', hskips, hshared, -⟩ := follows_of_run hrun
  rw [← hshared] at hb ⊢
  obtain ⟨r, args, hdone, hbid, hby⟩ := Concurrent.RunOf.cancelledBy hrun' b hb hcancelled
  have hrequest := (Concurrent.RunOf.cancel_iff hrun').mpr ⟨_, hdone⟩
  obtain ⟨authorization, htask, hauth⟩ := (hserves r).cancel_inv hrequest
  obtain ⟨m, hm, rfl, hreport⟩ := exists_report hrun' hdone
  rcases calls_of_mem_topic hrun' hm repr sent with
    ⟨_, _, _, _, -, hmail⟩ | ⟨args', b', hall, user, hargs, hmail⟩
  · rw [hmail.created] at hreport
    cases hreport
  · obtain rfl := Concurrent.Request.cancelBooking.inj (hrequest.symm.trans hargs)
    obtain rfl := Table.eq_of_key_eq hmail.stored hb (hmail.id.trans hbid)
    have hargs' : args = ⟨b'.id, b'.userId⟩ := by rw [hmail.id, hmail.userId]
    refine ⟨m.sender, authorization, user, hall, hbid ▸ htask, hmail.userId ▸ hauth,
      hargs' ▸ hby.of_skips hskips, ⟨?_, seen_of_once hskips hshared hmail.wasUser.2⟩,
      ⟨hmail.wasHall.1, seen_of_once hskips hshared hmail.wasHall.2⟩, fun hemail => ?_⟩
    · exact hmail.wasUser.1.trans hmail.userId.symm
    · rw [worked_eq]
      refine List.mem_flatMap.mpr ⟨m, hm, ?_⟩
      rw [hmail.calls, if_neg hemail]
      exact List.mem_singleton_self _

open Scenario in
/-- The fifth task has cancelled the booking. -/
theorem reported_bookings : ∃ tr c, Run Interleaving.Step bookingStart tr c ∧
    ∃ b ∈ c.shared.db.bookings.rows, ∃ r authorization user hall,
      bookingTasks r = some (.serve ⟨authorization, .cancelBooking b.id⟩) ∧
      authenticatedId .transparent 0 authorization = .ok b.userId ∧
      CancelledBy tr r ⟨b.id, b.userId⟩ ∧
      WasUser tr c b.userId user ∧ WasHall tr c b.hallId hall ∧
      (user.email ≠ "" → cancellation b.id user.email hall.name ∈
        (worked (fun _ => []) (fun _ => true) c.shared).calls) := by
  obtain ⟨tr, c, hrun, b, hb, -, hstatus⟩ := exists_run_bookings
    (fun c => ∃ b ∈ c.shared.db.bookings.rows, b.id = 1 ∧ b.status = .cancelled)
    (by decide +kernel)
  exact ⟨tr, c, hrun, b, hb, reported_of_run hrun _ _ hb hstatus⟩

/-- **The worker never stops, and every mail goes to the user** whose token made the request. -/
theorem addressed_of_run (hrun : Run Interleaving.Step (start security settings now tasks) tr c)
    (repr : Json → Text) (sent : Email → Bool) :
    (worked repr sent c.shared).stopped = none ∧
      ∀ mail ∈ (worked repr sent c.shared).calls, ∃ r request user,
        tasks r = some (.serve request) ∧ request.endpoint.Books ∧
          authenticatedId security (now r) request.authorization = .ok user.id ∧
          Seen tr c (fun db => user ∈ db.users.rows) ∧ user.email ≠ "" ∧
          mail.to = .string user.email := by
  obtain ⟨requests, tr', d, hserves, hrun', hskips, hshared, -⟩ := follows_of_run hrun
  rw [← hshared, worked_eq]
  refine ⟨rfl, fun mail hmail => ?_⟩
  obtain ⟨m, hm, hmem⟩ := List.mem_flatMap.mp hmail
  rcases calls_of_mem_topic hrun' hm repr sent with
    ⟨args, hall, user, price, hargs, hof⟩ | ⟨args, b', hall, user, hargs, hof⟩
  · obtain ⟨authorization, data, token, htask, hauth, -⟩ := (hserves m.sender).create_inv hargs
    obtain ⟨hemail, rfl⟩ := hof.eq_of_mem hmem
    refine ⟨m.sender, _, user, htask, trivial, ?_, ?_, hemail, rfl⟩
    · rw [hof.priced.wasUser.1]
      exact hauth
    · exact seen_of_once hskips hshared hof.priced.wasUser.2
  · obtain ⟨authorization, htask, hauth⟩ := (hserves m.sender).cancel_inv hargs
    obtain ⟨hemail, rfl⟩ := hof.eq_of_mem hmem
    refine ⟨m.sender, _, user, htask, trivial, ?_, ?_, hemail, rfl⟩
    · rw [hof.wasUser.1]
      exact hauth
    · exact seen_of_once hskips hshared hof.wasUser.2

open Scenario in
/-- Two events are in the topic. -/
theorem addressed_bookings : ∃ tr c, Run Interleaving.Step bookingStart tr c ∧
    c.shared.topic.length = 2 ∧
    (worked (fun _ => []) (fun _ => true) c.shared).stopped = none ∧
    ∀ mail ∈ (worked (fun _ => []) (fun _ => true) c.shared).calls, ∃ r request user,
      bookingTasks r = some (.serve request) ∧ request.endpoint.Books ∧
        authenticatedId .transparent 0 request.authorization = .ok user.id ∧
        Seen tr c (fun db => user ∈ db.users.rows) ∧ user.email ≠ "" ∧
        mail.to = .string user.email := by
  obtain ⟨tr, c, hrun, htopic⟩ := exists_run_bookings
    (fun c => c.shared.topic.length = 2) (by decide +kernel)
  exact ⟨tr, c, hrun, htopic, addressed_of_run hrun _ _⟩

end Api

end BookingApi
