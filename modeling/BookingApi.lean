import BookingApi.Api.AllOrNothing
import BookingApi.Api.Authentication
import BookingApi.Api.Mails
import BookingApi.Api.NonInterference
import BookingApi.Api.Privilege
import BookingApi.Api.SlotCache
import BookingApi.Api.Status
import BookingApi.CachedSlots.Order
import BookingApi.Concurrent.ActiveSeats
import BookingApi.Concurrent.AllOrNothing
import BookingApi.Concurrent.Cancellation
import BookingApi.Concurrent.DoubleBooking
import BookingApi.Concurrent.Handover
import BookingApi.Concurrent.Lock
import BookingApi.Concurrent.LockCoverage
import BookingApi.Concurrent.Notification
import BookingApi.Concurrent.SignupRace
import BookingApi.Concurrent.UpdateOrder
import BookingApi.Kafka.Startup
import BookingApi.Serial.Availability
import BookingApi.Serial.BookingPages
import BookingApi.Serial.Charge
import BookingApi.Serial.Durability
import BookingApi.Serial.HourlyCount
import BookingApi.Serial.InactiveHalls
import BookingApi.Serial.Offsets
import BookingApi.Serial.Patches
import BookingApi.Serial.Rates
import BookingApi.Serial.SeatPositions
import BookingApi.Serial.SeatValidation
import BookingApi.Serial.SlotLoop
import BookingApi.UserService.Pages
import BookingApi.Worker.BadMessages
import BookingApi.Worker.Events
