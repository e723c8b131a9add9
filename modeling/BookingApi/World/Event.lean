import BookingApi.DateTime.Basic

/-!
# Booking events

The two payloads that `send_booking_event` is called with.
-/

namespace BookingApi

inductive BookingEvent
  | bookingCreated (bookingId userId : ℤ) (userEmail hallName startTime endTime totalPrice : String)
  | bookingCancelled (bookingId userId : ℤ) (userEmail hallName : String)
deriving DecidableEq

namespace BookingEvent

def bookingId : BookingEvent → ℤ
  | bookingCreated id .. => id
  | bookingCancelled id .. => id

def isCreated : BookingEvent → Bool
  | bookingCreated .. => true
  | bookingCancelled .. => false

end BookingEvent

end BookingApi
