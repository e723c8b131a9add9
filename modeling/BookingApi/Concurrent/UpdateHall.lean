import BookingApi.Async.Interleaving
import BookingApi.HallService.Basic

/-!
# The control points of `PATCH /halls/:id`

An update of a hall, cut at its awaits, and the theorem that these are the awaits of the program
`getDb (updateHall ...)`.
-/

namespace BookingApi

open Async HallService

/-- Where an update of a hall stands. -/
inductive UpdatePc
  | select
  /-- Before the `UPDATE`: the loaded hall. -/
  | flush (hall : Hall)
  | refresh
  | commit (answer : HallResponse)
  | rollback (e : Exc)
  | done (result : Except Exc HallResponse)
deriving DecidableEq

/-- A `PATCH /halls/:id` at a control point. -/
structure Update where
  hallId : ℤ
  data : HallUpdate
  pc : UpdatePc

namespace Update

/-- What an update awaits, and where it goes with the outcome. -/
def next : Update → Await Op Exc HallResponse Update
  | ⟨hallId, data, .select⟩ => .call (.execute fun db => db.halls.find? hallId) fun
    | .error e => ⟨hallId, data, .rollback e⟩
    | .ok none => ⟨hallId, data, .rollback .hallNotFound⟩
    | .ok (some hall) => ⟨hallId, data, .flush hall⟩
  | ⟨hallId, data, .flush hall⟩ => .call (.flush (updateLoadedHall hallId data hall)) fun
    | .error e => ⟨hallId, data, .rollback e⟩
    | .ok _ => ⟨hallId, data, .refresh⟩
  | ⟨hallId, data, .refresh⟩ =>
    .call (.execute fun db => (db.halls.find? hallId).map
      (·, (db.seats.rows.filter fun s => s.hallId = hallId ∧ s.isActive).length)) fun
    | .error e => ⟨hallId, data, .rollback e⟩
    | .ok none => ⟨hallId, data, .rollback .noResultFound⟩
    | .ok (some (hall, totalSeats)) =>
      ⟨hallId, data, .commit { HallResponse.ofHall hall with totalSeats, freeSeats := totalSeats }⟩
  | ⟨hallId, data, .commit answer⟩ => .call .commit fun
    | .error e => ⟨hallId, data, .rollback e⟩
    | .ok _ => ⟨hallId, data, .done (.ok answer)⟩
  | ⟨hallId, data, .rollback e⟩ => .call .rollback fun
    | .error e' => ⟨hallId, data, .done (.error e')⟩
    | .ok _ => ⟨hallId, data, .done (.error e)⟩
  | ⟨_, _, .done result⟩ => .ended result

/-! ### The machine is the program -/

variable {hallId : ℤ} {data : HallUpdate}

theorem presents_rollback (e : Exc) :
    Presents next (do Program.perform .rollback; Program.raise e : App HallResponse)
      ⟨hallId, data, .rollback e⟩ := by
  refine .call rfl ?_
  rintro (e' | _)
  · exact .raise rfl
  · exact .raise rfl

/-- **The control points of `PATCH /halls/:id`** make up the program inside `get_db`. -/
theorem presents (hallId : ℤ) (data : HallUpdate) :
    Presents next (getDb (updateHall hallId data)) ⟨hallId, data, .select⟩ := by
  refine .call rfl ?_
  rintro (e | _ | hall)
  · exact presents_rollback e
  · exact presents_rollback _
  refine .call rfl ?_
  rintro (e | _)
  · exact presents_rollback e
  refine .call rfl ?_
  rintro (e | _ | ⟨hall, totalSeats⟩)
  · exact presents_rollback e
  · exact presents_rollback _
  refine .call rfl ?_
  rintro (e | _)
  · exact presents_rollback e
  · exact .ret rfl

end Update

end BookingApi
