import BookingApi.BookingService.CreateBooking
import BookingApi.DateTime.Isoformat

/-!
# The keys in Redis

The key of a lock determines the hall, the date and the hour that it was built from
(`lockKey_eq_iff`), for any integers and dates.
-/

namespace BookingApi.BookingService

/-- What follows the prefix of a lock key. -/
def lockFields (hallId : ℤ) (startTime : DateTime) : String :=
  toString hallId ++ String.singleton ':'
    ++ (startTime.date.isoformat ++ String.singleton ':' ++ toString startTime.hour.val)

theorem lockKey_eq (hallId : ℤ) (startTime : DateTime) :
    lockKey hallId startTime = "lock:hall:" ++ lockFields hallId startTime := by
  simp only [lockKey, lockFields, String.append_assoc]
  rfl

theorem lockKey_eq_iff {hallId hallId' : ℤ} {startTime startTime' : DateTime} :
    lockKey hallId startTime = lockKey hallId' startTime' ↔
      hallId = hallId' ∧ startTime.date = startTime'.date ∧ startTime.hour = startTime'.hour := by
  constructor
  · intro h
    rw [lockKey_eq, lockKey_eq, String.append_right_inj] at h
    obtain ⟨hhall, h⟩ := eq_of_separated (notMem_toString_int rfl (by decide) _)
      (notMem_toString_int rfl (by decide) _) h
    obtain ⟨hdate, hhour⟩ := eq_of_separated (Date.notMem_isoformat rfl (by decide) _)
      (Date.notMem_isoformat rfl (by decide) _) h
    exact ⟨toString_int_injective hhall, Date.isoformat_injective hdate,
      Fin.ext (toString_nat_injective hhour)⟩
  · rintro ⟨rfl, hdate, hhour⟩
    rw [lockKey_eq, lockKey_eq, lockFields, lockFields, hdate, hhour]

end BookingApi.BookingService
