import BookingApi.Async.Program
import BookingApi.Json.Values

/-!
# Mails

`app/services/notification_service.py`.  `send_email` logs every exception and returns whether the
mail was sent, so all that its callers see is that they have called it: a program over `MailOp`
leaves the list of its calls behind.
-/

namespace BookingApi.NotificationService

open Async

/-- The arguments of `send_email`. -/
structure Email where
  «to» : Json
  subject : Text
  body : Text

inductive MailOp : Type → Type 1
  /-- `send_email(to, subject, body)`. -/
  | sendEmail (email : Email) : MailOp Bool

abbrev Mailer := Program MailOp Exc

def sendEmail (email : Email) : Mailer Bool := .perform (.sendEmail email)

/-- A call is recorded; `sent` says what it returns. -/
def exec (sent : Email → Bool) : ∀ β : Type, MailOp β → List Email → Except Exc β × List Email
  | _, .sendEmail email, calls => (.ok (sent email), calls ++ [email])

/-! ### The two mails -/

def confirmationBody (hallName date startTime endTime totalPrice : Text) : Text :=
  .ofString "\nHello!\n\nYour booking has been confirmed!\n\nBooking Details:\n- Hall: "
    ++ hallName ++ .ofString "\n- Date: " ++ date ++ .ofString "\n- Time: " ++ startTime
    ++ .ofString " - " ++ endTime ++ .ofString "\n- Total Price: $" ++ totalPrice
    ++ .ofString ("\n\nThank you for using our service!\n\nBest regards,\nBooking API Team\n")

def cancellationBody (hallName bookingId : Text) : Text :=
  .ofString "\nHello!\n\nYour booking has been cancelled.\n\nBooking Details:\n- Hall: "
    ++ hallName ++ .ofString "\n- Booking ID: " ++ bookingId
    ++ .ofString ("\n\nIf you didn't request this cancellation, please contact support.\n\n"
      ++ "Best regards,\nBooking API Team\n")

/-- `data.get(key, "").split("T")[i]`. -/
def timestampPart (data : List (Text × Json)) (key : String) (i : ℕ) : Except Exc Text :=
  (Json.get data key (.string "")).splitItem 'T' i

/-- The text of `data.get(key)`. -/
def field (repr : Json → Text) (data : List (Text × Json)) (key : String) : Text :=
  (Json.get data key .null).format repr

def sendBookingConfirmation (repr : Json → Text) (email : Json) (data : List (Text × Json)) :
    Mailer Bool := do
  let subject := .ofString "Booking Confirmed #" ++ field repr data "booking_id"
  -- an index that `split` does not have raises before anything is sent
  let date ← .ofExcept (timestampPart data "start_time" 0)
  let startTime ← .ofExcept (timestampPart data "start_time" 1)
  let endTime ← .ofExcept (timestampPart data "end_time" 1)
  let body := confirmationBody (field repr data "hall_name") date (startTime.take 5)
    (endTime.take 5) (field repr data "total_price")
  sendEmail ⟨email, subject, body⟩

def sendBookingCancellation (repr : Json → Text) (email : Json) (data : List (Text × Json)) :
    Mailer Bool :=
  let subject := .ofString "Booking Cancelled #" ++ field repr data "booking_id"
  let body := cancellationBody (field repr data "hall_name") (field repr data "booking_id")
  sendEmail ⟨email, subject, body⟩

/-! ### The calls of a program -/

variable {sent : Email → Bool} {α β : Type}

/-- The calls of a program come after the calls before it. -/
theorem run_append (p : Mailer α) (calls : List Email) :
    p.run (exec sent) calls
      = ((p.run (exec sent) []).1, calls ++ (p.run (exec sent) []).2) := by
  induction p generalizing calls with
  | ret a => simp only [Program.run_ret, List.append_nil]
  | raise e => simp only [Program.run_raise, List.append_nil]
  | call op next ih =>
    cases op with
    | sendEmail email =>
      rw [Program.run_call, Program.run_call, exec, exec, ih, ih _ ([] ++ [email])]
      simp only [List.nil_append, List.append_assoc]

/-- A confirmation is called for exactly when both timestamps have a `T`. -/
theorem run_sendBookingConfirmation {repr : Json → Text} {email : Json}
    {data : List (Text × Json)} {date startTime endTime : Text}
    (hdate : timestampPart data "start_time" 0 = .ok date)
    (hstart : timestampPart data "start_time" 1 = .ok startTime)
    (hend : timestampPart data "end_time" 1 = .ok endTime) :
    (sendBookingConfirmation repr email data).run (exec sent) []
      = let mail : Email := ⟨email, .ofString "Booking Confirmed #" ++ field repr data "booking_id",
          confirmationBody (field repr data "hall_name") date (startTime.take 5) (endTime.take 5)
            (field repr data "total_price")⟩
        (.ok (sent mail), [mail]) := by
  simp only [sendBookingConfirmation, hdate, hstart, hend, Program.ofExcept_ok, Program.bind_eq,
    Program.ret_bind, sendEmail, Program.run_perform, exec, List.nil_append]

end BookingApi.NotificationService
