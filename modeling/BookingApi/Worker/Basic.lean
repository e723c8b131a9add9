import BookingApi.Consumer.Basic
import BookingApi.DateTime.Isoformat
import BookingApi.Kafka.Basic
import BookingApi.NotificationService.Basic

/-!
# The worker

`process_event` and the loop of `run_worker` in `app/worker.py`.  The deserializer is applied by the
consumer at the `async for`, outside of the guard of the loop body, so that an exception of it ends
the loop.  Log messages are left out.

* `runWorker_eq`: the worker is a consumer of the messages.
* `process_bookingCreated`, `process_bookingCancelled`: what the worker makes of the two events.
-/

namespace BookingApi.Worker

open Async NotificationService

def processEvent (repr : Json → Text) : Json → Mailer Unit
  | .obj event => do
    let eventType := Json.get event "type" .null
    let userEmail := Json.get event "user_email" (.string "")
    if userEmail.truthy = false then
      return ()
    else if eventType.isString "booking_created" then
      let _ ← sendBookingConfirmation repr userEmail event
    else if eventType.isString "booking_cancelled" then
      let _ ← sendBookingCancellation repr userEmail event
    else
      return ()
  -- only a dictionary has `get`
  | _ => .raise .attributeError

/-- The body of the loop: an exception of `process_event` is logged. -/
def guarded (repr : Json → Text) (value : Json) : Mailer Unit :=
  (processEvent repr value).tryCatch fun _ => return ()

/-- One more message; `sent` says what `send_email` returns. -/
def onMessage (valueDeserializer : ByteArray → Except Exc Json) (repr : Json → Text)
    (sent : Email → Bool) (s : Consumer.State Exc Email) (msg : ByteArray) :
    Consumer.State Exc Email :=
  match s.stopped with
  | some _ => s
  | none =>
    match valueDeserializer msg with
    -- the deserializer runs in `async for`, outside of the `try` block
    | .error e => ⟨some e, s.calls⟩
    | .ok value => ⟨none, ((guarded repr value).run (exec sent) s.calls).2⟩

/-- `run_worker` after the messages of the topic so far. -/
def runWorker (valueDeserializer : ByteArray → Except Exc Json) (repr : Json → Text)
    (sent : Email → Bool) (messages : List ByteArray) : Consumer.State Exc Email :=
  messages.foldl (onMessage valueDeserializer repr sent) ⟨none, []⟩

/-- What `process_event` does with a message: its result, and its calls of `send_email`. -/
def process (repr : Json → Text) (sent : Email → Bool) (value : Json) :
    Except Exc Unit × List Email :=
  (processEvent repr value).run (exec sent) []

variable {repr : Json → Text} {sent : Email → Bool}

/-! ### The loop -/

/-- The calls before an exception count. -/
theorem run_guarded (value : Json) (calls : List Email) :
    ((guarded repr value).run (exec sent) calls).2 = calls ++ (process repr sent value).2 := by
  rw [guarded, Program.run_tryCatch, run_append, process]
  rcases (processEvent repr value).run (exec sent) [] with ⟨e | u, mails⟩ <;> rfl

/-- **The worker is a consumer.** -/
theorem runWorker_eq (valueDeserializer : ByteArray → Except Exc Json) (messages : List ByteArray) :
    runWorker valueDeserializer repr sent messages
      = Consumer.run valueDeserializer (fun value => (process repr sent value).2) messages := by
  have hstep : onMessage valueDeserializer repr sent
      = Consumer.step valueDeserializer fun value => (process repr sent value).2 := by
    funext s msg
    rw [onMessage, Consumer.step]
    cases s.stopped with
    | some e => rfl
    | none =>
      cases valueDeserializer msg with
      | error e => rfl
      | ok value => simp only [run_guarded]
  rw [runWorker, Consumer.run, hstep]

/-! ### The two events -/

theorem truthy_string {s : String} (h : s ≠ "") : (Json.string s).truthy := by
  have hne : Text.ofString s ≠ [] := fun hnil => h (Text.ofString_injective hnil)
  cases hs : Text.ofString s with
  | nil => exact absurd hs hne
  | cons c cs => rw [Json.string, hs]; rfl

/-- The parts of a timestamp. -/
theorem splitItem_isoformat (t : DateTime) :
    (Json.string t.isoformat).splitItem 'T' 0 = .ok (.ofString t.date.isoformat) ∧
      (Json.string t.isoformat).splitItem 'T' 1 = .ok (.ofString t.timeText) := by
  have hnotMem {s : String} (h : 'T' ∉ s.toList) : 'T'.toNat ∉ Text.ofString s := by
    intro hmem
    obtain ⟨c, hc, hcode⟩ := List.mem_map.mp hmem
    exact h (Char.toNat_inj.mp hcode ▸ hc)
  have hseparator : Text.ofString "T" = ['T'.toNat] := rfl
  have htext : Json.string t.isoformat
      = .str (Text.ofString t.date.isoformat ++ 'T'.toNat :: Text.ofString t.timeText) := by
    rw [Json.string, t.isoformat_eq, Text.ofString_append, Text.ofString_append, List.append_assoc,
      hseparator, List.singleton_append]
  rw [htext]
  exact Json.splitItem_append (hnotMem (Date.notMem_isoformat rfl (by decide) _))
    (hnotMem t.notMem_timeText)

theorem take_ofString_timeText (t : DateTime) :
    (Text.ofString t.timeText).take 5 = Text.ofString t.hourMinute := by
  rw [Text.ofString, ← List.map_take, t.take_timeText]
  rfl

/-- The mail for a booking. -/
def confirmation (bookingId : ℤ) (userEmail hallName totalPrice : String)
    (startTime endTime : DateTime) : Email :=
  ⟨.string userEmail, .ofString "Booking Confirmed #" ++ .ofString (toString bookingId),
    confirmationBody (.ofString hallName) (.ofString startTime.date.isoformat)
      (.ofString startTime.hourMinute) (.ofString endTime.hourMinute) (.ofString totalPrice)⟩

/-- The mail for a cancellation. -/
def cancellation (bookingId : ℤ) (userEmail hallName : String) : Email :=
  ⟨.string userEmail, .ofString "Booking Cancelled #" ++ .ofString (toString bookingId),
    cancellationBody (.ofString hallName) (.ofString (toString bookingId))⟩

/-- What `process_event` does with a dictionary that has an address and the type of a booking. -/
theorem process_created {event : List (Text × Json)}
    (hemail : (Json.get event "user_email" (.string "")).truthy)
    (htype : (Json.get event "type" .null).isString "booking_created") :
    process repr sent (.obj event)
      = (((sendBookingConfirmation repr (Json.get event "user_email" (.string "")) event).run
          (exec sent) []).1.map fun _ => (),
        ((sendBookingConfirmation repr (Json.get event "user_email" (.string "")) event).run
          (exec sent) []).2) := by
  have hfalse : ¬ (Json.get event "user_email" (.string "")).truthy = false := by
    rw [hemail]
    exact Bool.noConfusion
  rw [process, processEvent, if_neg hfalse, if_pos htype]
  exact Program.run_map _ _ _ _

/-- The same for the type of a cancellation. -/
theorem process_cancelled {event : List (Text × Json)}
    (hemail : (Json.get event "user_email" (.string "")).truthy)
    (htype : (Json.get event "type" .null).isString "booking_cancelled")
    (htype' : (Json.get event "type" .null).isString "booking_created" = false) :
    process repr sent (.obj event) = (.ok (), [⟨Json.get event "user_email" (.string ""),
      .ofString "Booking Cancelled #" ++ field repr event "booking_id",
      cancellationBody (field repr event "hall_name") (field repr event "booking_id")⟩]) := by
  have hfalse : ¬ (Json.get event "user_email" (.string "")).truthy = false := by
    rw [hemail]
    exact Bool.noConfusion
  rw [process, processEvent, if_neg hfalse, if_neg (by rw [htype']; exact Bool.noConfusion),
    if_pos htype]
  rfl

theorem isString_string (s t : String) : (Json.string s).isString t = decide (s = t) :=
  decide_eq_decide.mpr Text.ofString_injective.eq_iff

/-- **A booking** is confirmed with one mail. -/
theorem process_bookingCreated (bookingId userId : ℤ) {userEmail : String} (hemail : userEmail ≠ "")
    (hallName totalPrice : String) (startTime endTime : DateTime) :
    process repr sent (.obj (BookingEvent.bookingCreated bookingId userId userEmail hallName
        startTime.isoformat endTime.isoformat totalPrice).members)
      = (.ok (), [confirmation bookingId userEmail hallName totalPrice startTime endTime]) := by
  set event := BookingEvent.bookingCreated bookingId userId userEmail hallName startTime.isoformat
    endTime.isoformat totalPrice
  have haddress : Json.get event.members "user_email" (.string "") = .string userEmail := rfl
  have htype : Json.get event.members "type" .null = .string "booking_created" := rfl
  have hstart : Json.get event.members "start_time" (.string "") = .string startTime.isoformat :=
    rfl
  have hend : Json.get event.members "end_time" (.string "") = .string endTime.isoformat := rfl
  obtain ⟨hstartDate, hstartTime⟩ := splitItem_isoformat startTime
  obtain ⟨-, hendTime⟩ := splitItem_isoformat endTime
  rw [← hstart] at hstartDate hstartTime
  rw [← hend] at hendTime
  rw [process_created (by rw [haddress]; exact truthy_string hemail)
    (by rw [htype, isString_string]; rfl), haddress,
    run_sendBookingConfirmation hstartDate hstartTime hendTime, take_ofString_timeText,
    take_ofString_timeText]
  rfl

/-- **A cancellation** is reported with one mail. -/
theorem process_bookingCancelled (bookingId userId : ℤ) {userEmail : String}
    (hemail : userEmail ≠ "") (hallName : String) :
    process repr sent
        (.obj (BookingEvent.bookingCancelled bookingId userId userEmail hallName).members)
      = (.ok (), [cancellation bookingId userEmail hallName]) := by
  set event := BookingEvent.bookingCancelled bookingId userId userEmail hallName
  have haddress : Json.get event.members "user_email" (.string "") = .string userEmail := rfl
  have htype : Json.get event.members "type" .null = .string "booking_cancelled" := rfl
  rw [process_cancelled (by rw [haddress]; exact truthy_string hemail)
    (by rw [htype, isString_string]; rfl) (by rw [htype, isString_string]; rfl), haddress]
  rfl

end BookingApi.Worker
