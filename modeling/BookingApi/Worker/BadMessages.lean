import BookingApi.Decimal.Basic
import BookingApi.Worker.Basic

/-!
# Bad messages

A message of the topic may be anything.  `runWorker_filter_iff` says when the worker treats the
messages that are not well-formed events as if they were not there: all messages must decode, since
the deserializer runs outside of the guard of the loop, and no dictionary that lacks fields of an
event, or has others, may have enough of them for a mail.
-/

namespace BookingApi

/-- An event as the producer sends it: with an address, and with the texts of two datetimes and of a
price. -/
def BookingEvent.Regular : BookingEvent → Prop
  | bookingCreated _ _ userEmail _ startTime endTime totalPrice =>
    userEmail ≠ "" ∧ (∃ t : DateTime, startTime = t.isoformat) ∧
      (∃ t : DateTime, endTime = t.isoformat) ∧ ∃ n, totalPrice = Decimal.hundredthsText n
  | bookingCancelled _ _ userEmail _ => userEmail ≠ ""

end BookingApi

namespace BookingApi.Worker

open Async NotificationService

variable {repr : Json → Text} {sent : Email → Bool}

/-- The members of an event, in any order. -/
def IsEvent (value : Json) : Prop :=
  ∃ (event : BookingEvent) (members : List (Text × Json)),
    event.Regular ∧ value = .obj members ∧ members.Perm event.members

/-- A well-formed booking event. -/
def WellFormed (valueDeserializer : ByteArray → Except Exc Json) (msg : ByteArray) : Prop :=
  ∃ value, valueDeserializer msg = .ok value ∧ IsEvent value

/-- The field is a string with a `T`. -/
def HasTime (event : List (Text × Json)) (key : String) : Prop :=
  ∃ s, Json.get event key (.string "") = .str s ∧ 'T'.toNat ∈ s

/-- A dictionary with an address that is a booking with two timestamps, or a cancellation. -/
def Mailable : Json → Prop
  | .obj event =>
    (Json.get event "user_email" (.string "")).truthy ∧
      ((Json.get event "type" .null).isString "booking_created" ∧ HasTime event "start_time" ∧
          HasTime event "end_time" ∨
        (Json.get event "type" .null).isString "booking_cancelled")
  | _ => False

/-! ### What makes a call -/

theorem hasTime_iff {event : List (Text × Json)} {key : String} :
    HasTime event key ↔ ∃ item, timestampPart event key 1 = .ok item :=
  (Json.splitItem_one_isOk 'T' _).symm

/-- A confirmation needs both timestamps. -/
theorem calls_sendBookingConfirmation (email : Json) (event : List (Text × Json)) :
    ((sendBookingConfirmation repr email event).run (exec sent) []).2 ≠ [] ↔
      HasTime event "start_time" ∧ HasTime event "end_time" := by
  constructor
  · intro hcalls
    rw [hasTime_iff, hasTime_iff]
    rw [sendBookingConfirmation] at hcalls
    cases hdate : timestampPart event "start_time" 0 with
    | error e => exact absurd (by rw [hdate]; rfl) hcalls
    | ok date =>
      cases hstart : timestampPart event "start_time" 1 with
      | error e => exact absurd (by rw [hdate, hstart]; rfl) hcalls
      | ok startTime =>
        cases hend : timestampPart event "end_time" 1 with
        | error e => exact absurd (by rw [hdate, hstart, hend]; rfl) hcalls
        | ok endTime => exact ⟨⟨startTime, rfl⟩, endTime, rfl⟩
  · rintro ⟨hstart, hend⟩
    obtain ⟨s, hs, -⟩ := id hstart
    obtain ⟨date, hdate⟩ := Json.splitItem_zero_str 'T' s
    rw [← hs] at hdate
    obtain ⟨startTime, hstart⟩ := hasTime_iff.mp hstart
    obtain ⟨endTime, hend⟩ := hasTime_iff.mp hend
    rw [run_sendBookingConfirmation hdate hstart hend]
    exact List.cons_ne_nil _ _

/-- A value is not both. -/
theorem isString_inj {v : Json} {s t : String} (hs : v.isString s) (ht : v.isString t) : s = t := by
  cases v with
  | str u =>
    have hsu := of_decide_eq_true hs
    have htu := of_decide_eq_true ht
    exact Text.ofString_injective (hsu.symm.trans htu)
  | _ => cases hs

/-- **What the worker makes a call for.** -/
theorem calls_ne_nil_iff (repr : Json → Text) (sent : Email → Bool) (value : Json) :
    (process repr sent value).2 ≠ [] ↔ Mailable value := by
  cases value with
  | obj event =>
    by_cases hemail : (Json.get event "user_email" (.string "")).truthy
    · by_cases hcreated : (Json.get event "type" .null).isString "booking_created"
      · have hcancelled : ¬ (Json.get event "type" .null).isString "booking_cancelled" :=
          fun hcancelled => absurd (isString_inj hcreated hcancelled) (by decide)
        rw [process_created hemail hcreated, calls_sendBookingConfirmation]
        simp only [Mailable, hemail, hcreated, hcancelled, true_and, Bool.false_eq_true, or_false]
      · by_cases hcancelled : (Json.get event "type" .null).isString "booking_cancelled"
        · rw [process_cancelled hemail hcancelled (eq_false_of_ne_true hcreated)]
          simp [Mailable, hemail, hcancelled]
        · rw [process, processEvent, if_neg (by simp [hemail]), if_neg hcreated, if_neg hcancelled]
          simp [Mailable, hcreated, hcancelled]
    · rw [process, processEvent, if_pos (eq_false_of_ne_true hemail)]
      simp [Mailable, hemail]
  | _ => exact ⟨fun h => absurd rfl h, False.elim⟩

/-! ### The loop -/

open Classical in
/-- **Bad messages.**  The worker makes the calls that it would make without the messages that are
not well-formed events, and is still consuming after each message, exactly when all messages decode
and none that is not a well-formed event has enough of one for a mail. -/
theorem runWorker_filter_iff (valueDeserializer : ByteArray → Except Exc Json)
    (repr : Json → Text) (sent : Email → Bool) (messages : List ByteArray) :
    ((runWorker valueDeserializer repr sent messages).calls
        = (runWorker valueDeserializer repr sent
            (messages.filter fun msg => WellFormed valueDeserializer msg)).calls ∧
      ∀ earlier, earlier <+: messages →
        (runWorker valueDeserializer repr sent earlier).stopped = none) ↔
    ∀ msg ∈ messages, ∃ value, valueDeserializer msg = .ok value ∧
      (Mailable value → IsEvent value) := by
  simp only [runWorker_eq]
  rw [Consumer.run_filter_iff fun msg _ hmsg => ?_]
  · refine forall₂_congr fun msg _ => exists_congr fun value => and_congr_right fun hvalue => ?_
    have hformed : WellFormed valueDeserializer msg ↔ IsEvent value := by
      simp only [WellFormed, hvalue, Except.ok.injEq, exists_eq_left']
    rw [decide_eq_false_iff_not, hformed, ← calls_ne_nil_iff repr sent value]
    exact ⟨fun h hcalls => not_not.mp fun hevent => hcalls (h hevent), fun h hevent =>
      not_not.mp fun hcalls => hevent (h hcalls)⟩
  · obtain ⟨value, hvalue, -⟩ := of_decide_eq_true hmsg
    exact ⟨value, hvalue⟩

namespace Scenario

/-- An opening brace, which is no JSON text. -/
def brace : ByteArray := "\x7b".toUTF8

/-- The event of a cancellation. -/
def cancelled : ByteArray :=
  Kafka.serialize (.obj (BookingEvent.bookingCancelled 1 1 "ann@example.com" "Red").members)

end Scenario

open Classical Scenario in
/-- The worker stops at a message that is no JSON text. -/
theorem exists_stopping_message :
    ¬ ((runWorker Kafka.deserialize (fun _ => []) (fun _ => true) [brace, cancelled]).calls
        = (runWorker Kafka.deserialize (fun _ => []) (fun _ => true)
            ([brace, cancelled].filter fun msg => WellFormed Kafka.deserialize msg)).calls ∧
      ∀ earlier, earlier <+: [brace, cancelled] →
        (runWorker Kafka.deserialize (fun _ => []) (fun _ => true) earlier).stopped = none) := by
  rintro ⟨-, hrunning⟩
  have hstopped := hrunning [brace] (List.prefix_append _ [cancelled])
  have hloads : Json.loads "\x7b" = none := by decide
  rw [runWorker_eq, Consumer.stopped_eq_none_iff] at hstopped
  obtain ⟨value, hvalue⟩ := hstopped brace (List.mem_singleton_self _)
  rw [Kafka.deserialize, brace, Kafka.fromUTF8?_toUTF8] at hvalue
  simp only [hloads] at hvalue
  cases hvalue

end BookingApi.Worker
