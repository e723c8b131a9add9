import BookingApi.BookingService.Availability
import BookingApi.BookingService.Keys
import BookingApi.Json.RoundTrip

/-!
# The cache of available slots

`get_available_slots` of `app/services/booking_service.py` and the route
`GET /bookings/halls/:id/availability`: the slots of a hall and a day are kept in Redis as a JSON
text.  `run_getAvailableSlots` says what a call does that is not interrupted.
-/

namespace BookingApi.BookingService

open Async

/-- `CACHE_TTL`, in seconds. -/
def cacheTtl : ℕ := 300

/-- `CACHE_PREFIX`. -/
def cachePrefix : String := "slots:hall:"

def cacheKey (hallId : ℤ) (targetDate : Date) : String :=
  cachePrefix ++ s!"{hallId}:{targetDate.isoformat}"

/-- The dictionary of a slot. -/
def Slot.toJson (slot : Slot) : Json :=
  .obj [(.ofString "hour", .int slot.hour), (.ofString "available", .bool slot.available),
    (.ofString "total_seats", .int slot.totalSeats), (.ofString "free_seats", .int slot.freeSeats),
    (.ofString "booked_seats", .int slot.bookedSeats)]

/-- `list(v)` for a value that was read from JSON. -/
def listOfJson : Json → Except Exc (List Json)
  | .arr items => .ok items
  | .str s => .ok (s.map fun c => .str [c])
  | .obj members => .ok (members.map fun m => .str m.1)
  | _ => .error .typeError

/-- `list(json.loads(cached))`. -/
def cachedSlots (cached : String) : Except Exc (List Json) :=
  match Json.loads cached with
  | none => .error .jsonDecodeError
  | some v => listOfJson v

def getAvailableSlots (settings : Settings) (hallId : ℤ) (targetDate : Date) :
    App (List Json) := do
  let key := cacheKey hallId targetDate
  let calculate : App (List Json) := do
    let slots ← calculateSlots settings hallId targetDate
    let items := slots.map Slot.toJson
    redisCall (.setex key cacheTtl (Json.dumps (.arr items)))
    return items
  -- `if cached` is false for an empty value too
  match ← redisCall (.get key) with
  | none => calculate
  | some cached => if cached = "" then calculate else .ofExcept (cachedSlots cached)

/-- `TimeSlotResponse(**slot)`; what `pydantic` converts from other types is left out. -/
def timeSlotResponse : Json → Except Exc Slot
  | .obj members =>
    match Json.lookup members (.ofString "hour"), Json.lookup members (.ofString "available"),
      Json.lookup members (.ofString "total_seats"), Json.lookup members (.ofString "free_seats"),
      Json.lookup members (.ofString "booked_seats") with
    | some (.int hour), some (.bool available), some (.int totalSeats), some (.int freeSeats),
      some (.int bookedSeats) => .ok ⟨hour, available, totalSeats, freeSeats, bookedSeats⟩
    | _, _, _, _, _ => .error .validationError
  | _ => .error .typeError

def getAvailabilityRoute (settings : Settings) (hallId : ℤ) (date : Date) : App (List Slot) := do
  let slots ← getAvailableSlots settings hallId date
  .ofExcept (slots.mapM timeSlotResponse)

/-! ### The operations of the route -/

section

variable {P : ∀ β : Type, Op β → Prop} (hP : AllowsQueries P) {settings : Settings} {hallId : ℤ}
include hP

theorem uses_calculateSlots (targetDate : Date) :
    (calculateSlots settings hallId targetDate).Uses P := by
  refine .bind (uses_execute hP _) fun row => ?_
  cases row with
  | none => trivial
  | some _ =>
    exact .bind (uses_execute hP _) fun _ => .bind (Program.uses_ofExcept _) fun _ =>
      .bind (Program.uses_ofExcept _) fun _ => .bind (uses_execute hP _) fun _ =>
        Program.uses_ofExcept _

theorem uses_getAvailabilityRoute {date : Date} (hget : P _ (.redis (.get (cacheKey hallId date))))
    (hset : ∀ items, P _ (.redis (.setex (cacheKey hallId date) cacheTtl
      (Json.dumps (.arr items))))) :
    (getAvailabilityRoute settings hallId date).Uses P := by
  have hcalculate : ((calculateSlots settings hallId date).bind fun slots =>
      (redisCall (.setex (cacheKey hallId date) cacheTtl
        (Json.dumps (.arr (slots.map Slot.toJson))))).bind fun _ =>
          (.ret (slots.map Slot.toJson) : App (List Json))).Uses P :=
    .bind (uses_calculateSlots hP date) fun _ =>
      .bind (Program.uses_perform (hset _)) fun _ => trivial
  refine .bind (.bind (Program.uses_perform hget) fun cached => ?_)
    fun _ => Program.uses_ofExcept _
  cases cached with
  | none => exact hcalculate
  | some cached =>
    show Program.Uses _ (if _ then _ else _)
    split_ifs
    · exact hcalculate
    · exact Program.uses_ofExcept _

end

/-! ### The key -/

theorem cacheKey_eq (hallId : ℤ) (targetDate : Date) : cacheKey hallId targetDate
    = "slots:hall:" ++ (toString hallId ++ String.singleton ':' ++ targetDate.isoformat) := rfl

/-- **The key of the slots** determines the hall and the day. -/
theorem cacheKey_eq_iff {hallId hallId' : ℤ} {targetDate targetDate' : Date} :
    cacheKey hallId targetDate = cacheKey hallId' targetDate' ↔
      hallId = hallId' ∧ targetDate = targetDate' := by
  constructor
  · intro h
    rw [cacheKey_eq, cacheKey_eq, String.append_right_inj] at h
    obtain ⟨hhall, hdate⟩ := eq_of_separated (notMem_toString_int rfl (by decide) _)
      (notMem_toString_int rfl (by decide) _) h
    exact ⟨toString_int_injective hhall, Date.isoformat_injective hdate⟩
  · rintro ⟨rfl, rfl⟩
    rfl

/-- Slots and locks have different keys. -/
theorem cacheKey_ne_lockKey (hallId hallId' : ℤ) (targetDate : Date) (startTime : DateTime) :
    cacheKey hallId targetDate ≠ lockKey hallId' startTime := by
  intro h
  rw [cacheKey_eq, lockKey_eq] at h
  have hhead := congrArg List.head? (congrArg String.toList h)
  simp at hhead

/-! ### What is stored is read back -/

theorem timeSlotResponse_toJson (slot : Slot) : timeSlotResponse slot.toJson = .ok slot := rfl

theorem plain_toJson (slot : Slot) : Json.Plain slot.toJson := by
  have hkeys : (["hour", "available", "total_seats", "free_seats", "booked_seats"].map
      Text.ofString).Nodup := by decide
  refine .obj hkeys (fun m hm => ?_) fun m hm => ?_
  all_goals
    simp only [List.mem_cons, List.not_mem_nil, or_false] at hm
    rcases hm with rfl | rfl | rfl | rfl | rfl
  all_goals first
    | exact Text.scalar_ofString _
    | exact .int _
    | exact .bool _

theorem cachedSlots_dumps (slots : List Slot) :
    cachedSlots (Json.dumps (.arr (slots.map Slot.toJson))) = .ok (slots.map Slot.toJson) := by
  have hplain : Json.Plain (.arr (slots.map Slot.toJson)) := by
    refine .arr fun v hv => ?_
    obtain ⟨slot, -, rfl⟩ := List.mem_map.mp hv
    exact plain_toJson slot
  rw [cachedSlots, Json.loads_dumps hplain]
  rfl

/-- A stored text begins with a bracket. -/
theorem mem_dumps_arr (items : List Json) : '[' ∈ (Json.dumps (.arr items)).toList := by
  cases items <;> simp [Json.dumps, Json.encode]

theorem dumps_arr_ne_empty (items : List Json) : Json.dumps (.arr items) ≠ "" := by
  intro h
  have hmem := mem_dumps_arr items
  rw [h] at hmem
  cases hmem

/-! ### A call alone -/

/-- What `_calculate_slots` returns or raises on a state of the tables. -/
def slotsOf (settings : Settings) (hallId : ℤ) (targetDate : Date) (db : Db) :
    Except Exc (List Slot) :=
  match selectActiveHall hallId db with
  | none => .error .hallNotFound
  | some _ => do
    let startDatetime ← sessionBoundary targetDate settings.sessionStartHour
    let endDatetime ← sessionBoundary targetDate settings.sessionEndHour
    slots settings (selectSeatsOfHall hallId db).length
      (selectBookingsBetween hallId startDatetime endDatetime db)

variable {settings : Settings} {hallId : ℤ} {targetDate : Date} {r : RequestId} {w : World}

theorem run_calculateSlots (hidle : w.writesOf r = []) :
    (calculateSlots settings hallId targetDate).run (World.exec r) w
      = (slotsOf settings hallId targetDate w.db, w) := by
  have hview : w.view r = w.db := World.view_of_writesOf_nil hidle
  rw [calculateSlots, slotsOf]
  simp only [Program.bind_eq, Program.run_bind, run_execute, hview]
  cases selectActiveHall hallId w.db with
  | none => rfl
  | some hall =>
    simp only [Program.run_bind, run_execute, hview]
    cases sessionBoundary targetDate settings.sessionStartHour with
    | error e => rfl
    | ok startDatetime =>
      cases sessionBoundary targetDate settings.sessionEndHour with
      | error e => rfl
      | ok endDatetime =>
        simp only [Program.ofExcept_ok, Program.run_ret, hview]
        show (Program.ofExcept (slots settings _ _)).run (World.exec r) w
          = (slots settings _ _, w)
        cases slots settings (selectSeatsOfHall hallId w.db).length
          (selectBookingsBetween hallId startDatetime endDatetime w.db) <;> rfl

/-- The world in which the slots of a hall and a day are in the cache. -/
def cacheSlots (w : World) (hallId : ℤ) (targetDate : Date) (slots : List Slot) : World :=
  w.setRedis (Function.update w.redis (cacheKey hallId targetDate)
    (some ⟨Json.dumps (.arr (slots.map Slot.toJson)), cacheTtl⟩))

theorem redis_cacheSlots (w : World) (hallId : ℤ) (targetDate : Date) (slots : List Slot) :
    (cacheSlots w hallId targetDate slots).redis (cacheKey hallId targetDate)
      = some ⟨Json.dumps (.arr (slots.map Slot.toJson)), cacheTtl⟩ :=
  Function.update_self _ _ _

/-- A call finds its key, or calculates the slots and stores them. -/
theorem run_getAvailableSlots (hidle : w.writesOf r = [])
    (hne : w.redis.lookup (cacheKey hallId targetDate) ≠ some "") :
    (getAvailableSlots settings hallId targetDate).run (World.exec r) w
      = match w.redis.lookup (cacheKey hallId targetDate) with
        | some cached => (cachedSlots cached, w)
        | none => match slotsOf settings hallId targetDate w.db with
          | .error e => (.error e, w)
          | .ok slots => (.ok (slots.map Slot.toJson), cacheSlots w hallId targetDate slots) := by
  have hget : (redisCall (.get (cacheKey hallId targetDate))).run (World.exec r) w
      = (.ok (w.redis.lookup (cacheKey hallId targetDate)), w) := run_redisCall _ _ _
  rw [getAvailableSlots]
  simp only [Program.bind_eq, Program.run_bind, hget]
  cases hcached : w.redis.lookup (cacheKey hallId targetDate) with
  | none =>
    simp only [Program.run_bind, run_calculateSlots hidle]
    cases slotsOf settings hallId targetDate w.db with
    | error e => rfl
    | ok slots => rfl
  | some cached =>
    have hcached' : cached ≠ "" := fun h => hne (by rw [hcached, h])
    simp only [if_neg hcached']
    cases cachedSlots cached <;> rfl

end BookingApi.BookingService
