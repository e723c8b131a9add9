import BookingApi.Decimal.Basic
import BookingApi.World.Handler

/-!
# Halls

`get_hall_or_raise` of `app/services/hall_service.py`, and the routes of `app/routers/halls.py`.
-/

namespace BookingApi

/-- A field of a `PATCH` body: absent, an explicit null, or a value. -/
abbrev PatchField (α : Type) := Option (Option α)

/-- The column that `setattr` and a flush write for a field: none if the field is absent or has the
loaded value, and an `IntegrityError` if it is null, since all columns are NOT NULL. -/
def PatchField.column {α : Type} [DecidableEq α] (loaded : α) :
    PatchField α → Except Exc (Option α)
  | none => .ok none
  | some none => .error .integrityError
  | some (some value) => .ok (if value = loaded then none else some value)

/-- A number that an `INTEGER` column can hold. -/
def FitsInteger (n : ℤ) : Prop := -2 ^ 31 ≤ n ∧ n < 2 ^ 31

instance (n : ℤ) : Decidable (FitsInteger n) := inferInstanceAs (Decidable (_ ∧ _))

/-- A text that PostgreSQL can hold: one without the character of code 0. -/
def FitsText (s : String) : Prop := Char.ofNat 0 ∉ s.toList

instance (s : String) : Decidable (FitsText s) := inferInstanceAs (Decidable (¬ _))

end BookingApi

namespace BookingApi.HallService

open Async

/-- A valid `HallCreate` body. -/
structure HallCreate where
  name : String
  capacity : ℤ
  hourlyRate : Decimal
  name_length : 1 ≤ name.length ∧ name.length ≤ 100
  capacity_pos : 0 < capacity
  hourlyRate_pos : hourlyRate.isPositive

/-- A valid `HallUpdate` body. -/
structure HallUpdate where
  name : PatchField String
  capacity : PatchField ℤ
  hourlyRate : PatchField Decimal
  isActive : PatchField Bool
  name_length : ∀ n, name = some (some n) → 1 ≤ n.length ∧ n.length ≤ 100
  capacity_pos : ∀ c, capacity = some (some c) → 0 < c
  hourlyRate_pos : ∀ r, hourlyRate = some (some r) → r.isPositive

structure HallResponse where
  id : ℤ
  name : String
  capacity : ℤ
  /-- In hundredths. -/
  hourlyRate : ℤ
  isActive : Bool
  createdAt : Instant
  totalSeats : ℕ
  freeSeats : ℕ
deriving DecidableEq

/-- `HallResponse.model_validate(hall)`, with the seat counts at their default 0. -/
def HallResponse.ofHall (h : Hall) : HallResponse :=
  ⟨h.id, h.name, h.capacity, h.hourlyRate, h.isActive, h.createdAt, 0, 0⟩

/-- The `INSERT` of a `Hall` object. -/
def insertHall (name : String) (capacity : ℤ) (hourlyRate : Decimal) : Statement ℤ :=
  fun now seqs _ =>
    let seqs' := { seqs with halls := seqs.halls + 1 }
    if FitsText name ∧ FitsInteger capacity then
      match storeNumeric hourlyRate with
      | .error e => (.error e, seqs')
      | .ok rate =>
        (.ok (seqs.halls, [.insertHall ⟨seqs.halls, name, capacity, rate, true, now⟩]), seqs')
    else (.error .dbapiError, seqs)

/-- A new hall, or a value that does not fit; a rate that does not fit has used up the id. -/
theorem insertHall_cases (name : String) (capacity : ℤ) (hourlyRate : Decimal) (now : Instant)
    (seqs : Sequences) (db : Db) :
    (∃ halls, seqs.halls ≤ halls ∧ insertHall name capacity hourlyRate now seqs db
      = (.error .dbapiError, { seqs with halls })) ∨
    ∃ rate, storeNumeric hourlyRate = .ok rate ∧ insertHall name capacity hourlyRate now seqs db
      = (.ok (seqs.halls, [.insertHall ⟨seqs.halls, name, capacity, rate, true, now⟩]),
        { seqs with halls := seqs.halls + 1 }) := by
  rw [insertHall]
  split_ifs with hfits
  · cases hrate : storeNumeric hourlyRate with
    | error e =>
      obtain rfl := storeNumeric_eq_error hrate
      exact .inl ⟨seqs.halls + 1, by omega, rfl⟩
    | ok rate => exact .inr ⟨rate, rfl, rfl⟩
  · exact .inl ⟨seqs.halls, le_rfl, rfl⟩

/-- The name and the capacity of the body, if it has them, are values that the columns can hold. -/
def HallUpdate.fits (data : HallUpdate) : Bool :=
  data.name.join.all (FitsText ·) && data.capacity.join.all (FitsInteger ·)

/-- The values of the body as arguments of the `UPDATE`.  One that equals the loaded value is not
sent, but it fits its column like any other value that is stored. -/
def HallUpdate.encode (data : HallUpdate) : Except Exc Unit :=
  if data.fits then .ok () else .error .dbapiError

/-- The columns that the body sets on a loaded hall; the rate is compared as a `Decimal`. -/
def hallPatch (hall : Hall) (data : HallUpdate) : Except Exc HallPatch := do
  data.encode
  let name ← data.name.column hall.name
  let capacity ← data.capacity.column hall.capacity
  let hourlyRate ← match data.hourlyRate with
    | none => .ok none
    | some none => .error .integrityError
    | some (some rate) =>
      if rate.mantissa * 100 = hall.hourlyRate * 10 ^ rate.scale then .ok none
      else (storeNumeric rate).map some
  let isActive ← data.isActive.column hall.isActive
  return ⟨name, capacity, hourlyRate, isActive⟩

/-- The `UPDATE` of a hall: nothing is sent if no column changes. -/
def updateHallRow (hallId : ℤ) (patch : HallPatch) : List Write :=
  if patch = ⟨none, none, none, none⟩ then [] else [.updateHall hallId patch]

/-- A hall with the number of its active seats. -/
def hallWithSeats (db : Db) (hall : Hall) : HallResponse :=
  let totalSeats := (db.seats.rows.filter fun s => s.hallId = hall.id ∧ s.isActive).length
  { HallResponse.ofHall hall with totalSeats, freeSeats := totalSeats }

/-- The route `GET /halls`. -/
def listHalls : App (List HallResponse) :=
  execute fun db => ((db.halls.rows.filter Hall.isActive).mergeSort fun h h' => h.id ≤ h'.id).map
    (hallWithSeats db)

/-- The route `GET /halls/:id`. -/
def getHall (hallId : ℤ) : App HallResponse := do
  match ← execute fun db => (db.halls.find? hallId).map (hallWithSeats db) with
  | none => .raise .hallNotFound
  | some response => return response

def getHallOrRaise (hallId : ℤ) : App Hall := do
  match ← execute fun db => db.halls.find? hallId with
  | none => .raise .hallNotFound
  | some hall => return hall

/-- The route `POST /halls`. -/
def createHall (data : HallCreate) : App HallResponse := do
  let hallId ← flush (insertHall data.name data.capacity data.hourlyRate)
  match ← execute fun db => db.halls.find? hallId with
  | none => .raise .noResultFound
  | some hall => return .ofHall hall

/-- The flush of a loaded hall with the fields of the body. -/
def updateLoadedHall (hallId : ℤ) (data : HallUpdate) (hall : Hall) : Statement Unit :=
  fun _ seqs _ =>
    (match hallPatch hall data with
      | .error e => .error e
      | .ok patch => .ok ((), updateHallRow hallId patch), seqs)

/-- The route `PATCH /halls/:id`.  The refresh loads the seats of the hall as well. -/
def updateHall (hallId : ℤ) (data : HallUpdate) : App HallResponse := do
  let hall ← getHallOrRaise hallId
  flush (updateLoadedHall hallId data hall)
  match ← execute fun db => (db.halls.find? hallId).map
      (·, (db.seats.rows.filter fun s => s.hallId = hallId ∧ s.isActive).length) with
  | none => .raise .noResultFound
  | some (hall, totalSeats) =>
    return { HallResponse.ofHall hall with totalSeats, freeSeats := totalSeats }

/-- The flush of `hall.is_active = False`. -/
def deactivateHall (hallId : ℤ) (hall : Hall) : Statement Unit := fun _ seqs _ =>
  (.ok ((), if hall.isActive then [.updateHall hallId ⟨none, none, none, some false⟩] else []),
    seqs)

/-- The route `DELETE /halls/:id`. -/
def deleteHall (hallId : ℤ) : App Unit := do
  let hall ← getHallOrRaise hallId
  flush (deactivateHall hallId hall)

/-! ### The statements -/

theorem mem_insertHall {name : String} {capacity : ℤ} {hourlyRate : Decimal} {now : Instant}
    {seqs : Sequences} {db : Db} {b : ℤ} {ws : List Write}
    (h : (insertHall name capacity hourlyRate now seqs db).1 = .ok (b, ws)) {x : Write}
    (hx : x ∈ ws) :
    ∃ hall, x = .insertHall hall ∧ storeNumeric hourlyRate = .ok hall.hourlyRate := by
  rcases insertHall_cases name capacity hourlyRate now seqs db with
    ⟨halls, -, hs⟩ | ⟨rate, hrate, hs⟩ <;> rw [hs] at h
  · cases h
  · obtain ⟨-, rfl⟩ := Prod.mk.inj (Except.ok.inj h)
    exact ⟨_, List.mem_singleton.mp hx, hrate⟩

theorem mem_updateLoadedHall {hallId : ℤ} {data : HallUpdate} {hall : Hall} {now : Instant}
    {seqs : Sequences} {db : Db} {b : Unit} {ws : List Write}
    (h : (updateLoadedHall hallId data hall now seqs db).1 = .ok (b, ws)) {x : Write}
    (hx : x ∈ ws) : ∃ patch, hallPatch hall data = .ok patch ∧ x = .updateHall hallId patch := by
  rw [updateLoadedHall] at h
  cases hpatch : hallPatch hall data with
  | error e => simp [hpatch] at h
  | ok patch =>
    simp only [hpatch] at h
    obtain ⟨-, rfl⟩ := Prod.mk.inj (Except.ok.inj h)
    rw [updateHallRow] at hx
    split_ifs at hx
    · exact absurd hx List.not_mem_nil
    · exact ⟨patch, rfl, List.mem_singleton.mp hx⟩

theorem mem_deactivateHall {hallId : ℤ} {hall : Hall} {now : Instant} {seqs : Sequences} {db : Db}
    {b : Unit} {ws : List Write} (h : (deactivateHall hallId hall now seqs db).1 = .ok (b, ws))
    {x : Write} (hx : x ∈ ws) : x = .updateHall hallId ⟨none, none, none, some false⟩ := by
  obtain ⟨-, rfl⟩ := Prod.mk.inj (Except.ok.inj h)
  split_ifs at hx
  · exact List.mem_singleton.mp hx
  · exact absurd hx List.not_mem_nil

theorem concerns_insertHall (name : String) (capacity : ℤ) (hourlyRate : Decimal) :
    Concerns [.halls] (insertHall name capacity hourlyRate) := by
  refine ⟨fun now seqs db table htable => ?_, fun now seqs db b ws h x hx => ?_⟩
  · rcases insertHall_cases name capacity hourlyRate now seqs db with
      ⟨halls, -, hs⟩ | ⟨rate, -, hs⟩ <;> rw [hs] <;> cases table <;>
        first | rfl | exact absurd (List.mem_singleton_self _) htable
  · obtain ⟨hall, rfl, -⟩ := mem_insertHall h hx
    exact List.mem_singleton_self _

theorem concerns_updateLoadedHall (hallId : ℤ) (data : HallUpdate) (hall : Hall) :
    Concerns [.halls] (updateLoadedHall hallId data hall) := by
  refine ⟨fun _ _ _ _ _ => rfl, fun now seqs db b ws h x hx => ?_⟩
  obtain ⟨patch, -, rfl⟩ := mem_updateLoadedHall h hx
  exact List.mem_singleton_self _

theorem concerns_deactivateHall (hallId : ℤ) (hall : Hall) :
    Concerns [.halls] (deactivateHall hallId hall) := by
  refine ⟨fun _ _ _ _ _ => rfl, fun now seqs db b ws h x hx => ?_⟩
  rw [mem_deactivateHall h hx]
  exact List.mem_singleton_self _

/-! ### The operations of the routes -/

section

variable {P : ∀ β : Type, Op β → Prop} (hP : AllowsQueries P)
include hP

theorem uses_getHallOrRaise (hallId : ℤ) : (getHallOrRaise hallId).Uses P :=
  .bind (uses_execute hP _) fun row => by cases row <;> trivial

theorem uses_getHall (hallId : ℤ) : (getHall hallId).Uses P :=
  .bind (uses_execute hP _) fun row => by cases row <;> trivial

theorem uses_createHall {data : HallCreate}
    (hinsert : P _ (.flush (insertHall data.name data.capacity data.hourlyRate))) :
    (createHall data).Uses P :=
  .bind (uses_flush hinsert) fun _ => .bind (uses_execute hP _) fun row => by cases row <;> trivial

theorem uses_updateHall {hallId : ℤ} {data : HallUpdate}
    (hupdate : ∀ hall, P _ (.flush (updateLoadedHall hallId data hall))) :
    (updateHall hallId data).Uses P :=
  .bind (uses_getHallOrRaise hP hallId) fun hall => .bind (uses_flush (hupdate hall)) fun _ =>
    .bind (uses_execute hP _) fun row => by cases row <;> trivial

theorem uses_deleteHall {hallId : ℤ}
    (hdeactivate : ∀ hall, P _ (.flush (deactivateHall hallId hall))) :
    (deleteHall hallId).Uses P :=
  .bind (uses_getHallOrRaise hP hallId) fun hall => uses_flush (hdeactivate hall)

end

end BookingApi.HallService
