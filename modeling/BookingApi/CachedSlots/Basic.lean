import BookingApi.Async.Run
import BookingApi.BookingService.AvailableSlots

/-!
# Interleaved calls for the slots of one hall and day

Any number of calls of `get_available_slots` for one hall and day run in steps: the `GET`, the reads
of `_calculate_slots` on one committed state, the `SETEX`, and the return.  In between other
requests commit, and keys expire.  Committed states are numbered, and each call carries the number
of the state whose slots it has, which the program does not know.

`run_program_of_step`: the steps of a call are those of the program.
-/

namespace BookingApi.CachedSlots

open Async BookingService

/-- Where a call stands. -/
inductive Call
  | idle
  | looking
  | calculating
  | storing (slots : List Slot) (version : ℕ)
  | returning (items : List Json) (version : ℕ)
  | returned (items : List Json) (version : ℕ)
  | raised (e : Exc)

structure Config where
  world : World
  /-- The number of the current committed state. -/
  version : ℕ
  /-- The committed states by their numbers. -/
  states : ℕ → Db
  /-- The state whose slots were stored last. -/
  source : ℕ
  /-- The newest state whose slots were ever stored. -/
  newest : ℕ
  calls : ℕ → Call

inductive Action
  | start (i : ℕ)
  | look (i : ℕ)
  /-- `_calculate_slots` returns. -/
  | calculate (i : ℕ)
  /-- `_calculate_slots` raises. -/
  | raise (i : ℕ)
  | store (i : ℕ)
  | ret (i : ℕ)
  | commit (db : Db)
  | env (e : World.Env)

def Config.set (c : Config) (i : ℕ) (call : Call) : Config :=
  { c with calls := Function.update c.calls i call }

variable (settings : Settings) (hallId : ℤ) (date : Date)

/-- The answer to the `GET`. -/
def afterGet (source : ℕ) : Option String → Call
  | none => .calculating
  | some cached =>
    if cached = "" then .calculating
    else match cachedSlots cached with
      | .error e => .raised e
      | .ok items => .returning items source

def step (c : Config) : Action → Option Config
  | .start i =>
    match c.calls i with
    | .idle => some (c.set i .looking)
    | _ => none
  | .look i =>
    match c.calls i with
    | .looking => some (c.set i (afterGet c.source (c.world.redis.lookup (cacheKey hallId date))))
    | _ => none
  -- the queries read one committed state, with its version
  | .calculate i =>
    match c.calls i, slotsOf settings hallId date c.world.db with
    | .calculating, .ok slots => some (c.set i (.storing slots c.version))
    | _, _ => none
  | .raise i =>
    match c.calls i, slotsOf settings hallId date c.world.db with
    | .calculating, .error e => some (c.set i (.raised e))
    | _, _ => none
  | .store i =>
    match c.calls i with
    | .storing slots v =>
      some { c.set i (.returning (slots.map Slot.toJson) v) with
        world := cacheSlots c.world hallId date slots, source := v, newest := max c.newest v }
    | _ => none
  | .ret i =>
    match c.calls i with
    | .returning items v => some (c.set i (.returned items v))
    | _ => none
  -- any transaction: the cache is not told
  | .commit db =>
    some { c with
      world := { c.world with db }, version := c.version + 1,
      states := Function.update c.states (c.version + 1) db }
  | .env e => some { c with world := World.env e c.world }

/-- No call has started, and the cache is empty. -/
def start (db : Db) : Config where
  world := { World.initial with db }
  version := 0
  states _ := db
  source := 0
  newest := 0
  calls _ := .idle

/-- What a call has still to do. -/
def Call.program : Call → App (List Json)
  | idle => getAvailableSlots settings hallId date
  | looking => getAvailableSlots settings hallId date
  | calculating =>
    (calculateSlots settings hallId date).bind fun slots =>
      (redisCall (.setex (cacheKey hallId date) cacheTtl
        (Json.dumps (.arr (slots.map Slot.toJson))))).bind fun _ => .ret (slots.map Slot.toJson)
  | storing slots _ =>
    (redisCall (.setex (cacheKey hallId date) cacheTtl
      (Json.dumps (.arr (slots.map Slot.toJson))))).bind fun _ => .ret (slots.map Slot.toJson)
  | returning items _ => .ret items
  | returned items _ => .ret items
  | raised e => .raise e

variable {settings hallId date} {c c' : Config} {r : RequestId}

/-- The action is a step of the call. -/
def Action.isOf (i : ℕ) : Action → Prop
  | .start j | .look j | .calculate j | .raise j | .store j | .ret j => j = i
  | .commit _ | .env _ => False

/-- After the `GET`. -/
theorem run_afterGet (source : ℕ) (w : World) :
    ((afterGet source (w.redis.lookup (cacheKey hallId date))).program settings hallId date).run
        (World.exec r) w
      = (getAvailableSlots settings hallId date).run (World.exec r) w := by
  rw [getAvailableSlots]
  simp only [Program.bind_eq, Program.run_bind, run_redisCall, Redis.exec]
  cases w.redis.lookup (cacheKey hallId date) with
  | none => rfl
  | some cached =>
    simp only [afterGet]
    split_ifs
    · rfl
    · cases cachedSlots cached <;> rfl

/-! ### What a step does -/

/-- The world in which a call has stored its slots. -/
def Config.stored (c : Config) (hallId : ℤ) (date : Date) (i : ℕ) (slots : List Slot) (v : ℕ) :
    Config :=
  { c.set i (.returning (slots.map Slot.toJson) v) with
    world := cacheSlots c.world hallId date slots, source := v, newest := max c.newest v }

/-- Another request commits. -/
def Config.committed (c : Config) (db : Db) : Config :=
  { c with
    world := { c.world with db }, version := c.version + 1,
    states := Function.update c.states (c.version + 1) db }

/-- The steps by kind. -/
inductive Steps (settings : Settings) (hallId : ℤ) (date : Date) (c : Config) :
    Action → Config → Prop
  | start {i : ℕ} : c.calls i = .idle → Steps settings hallId date c (.start i) (c.set i .looking)
  | look {i : ℕ} : c.calls i = .looking → Steps settings hallId date c (.look i)
      (c.set i (afterGet c.source (c.world.redis.lookup (cacheKey hallId date))))
  | calculate {i : ℕ} {slots : List Slot} : c.calls i = .calculating →
      slotsOf settings hallId date c.world.db = .ok slots →
      Steps settings hallId date c (.calculate i) (c.set i (.storing slots c.version))
  | raise {i : ℕ} {e : Exc} : c.calls i = .calculating →
      slotsOf settings hallId date c.world.db = .error e →
      Steps settings hallId date c (.raise i) (c.set i (.raised e))
  | store {i : ℕ} {slots : List Slot} {v : ℕ} : c.calls i = .storing slots v →
      Steps settings hallId date c (.store i) (c.stored hallId date i slots v)
  | ret {i : ℕ} {items : List Json} {v : ℕ} : c.calls i = .returning items v →
      Steps settings hallId date c (.ret i) (c.set i (.returned items v))
  | commit (db : Db) : Steps settings hallId date c (.commit db) (c.committed db)
  | env (e : World.Env) :
      Steps settings hallId date c (.env e) { c with world := World.env e c.world }

theorem steps_of_step {a : Action} (h : step settings hallId date c a = some c') :
    Steps settings hallId date c a c' := by
  cases a with
  | commit db =>
    obtain rfl := Option.some.inj h
    exact .commit db
  | env e =>
    obtain rfl := Option.some.inj h
    exact .env e
  | _ =>
    rw [step] at h
    split at h
    · obtain rfl := Option.some.inj h
      constructor <;> assumption
    · cases h

/-- **The steps of a call** are those of the program: what is left to do after a step, alone, ends
as what was left to do before it. -/
theorem run_program_of_step {a : Action} {i : ℕ} (ha : a.isOf i)
    (hidle : c.world.writesOf r = []) (h : step settings hallId date c a = some c') :
    ((c'.calls i).program settings hallId date).run (World.exec r) c'.world
      = ((c.calls i).program settings hallId date).run (World.exec r) c.world := by
  have hcall (call : Call) : (c.set i call).calls i = call := Function.update_self _ _ _
  cases steps_of_step h with
  | commit db => exact ha.elim
  | env e => exact ha.elim
  | start hi =>
    obtain rfl := ha
    rw [hcall, hi]
    rfl
  | look hi =>
    obtain rfl := ha
    rw [hcall, hi]
    exact run_afterGet c.source c.world
  | calculate hi hslots =>
    obtain rfl := ha
    rw [hcall, hi, Call.program, Call.program, Program.run_bind _ (calculateSlots _ _ _),
      run_calculateSlots hidle, hslots]
    rfl
  | raise hi hslots =>
    obtain rfl := ha
    rw [hcall, hi, Call.program, Call.program, Program.run_bind, run_calculateSlots hidle, hslots]
    rfl
  | @store j slots v hi =>
    obtain rfl := ha
    have hstored : (c.stored hallId date j slots v).calls j
        = .returning (slots.map Slot.toJson) v := Function.update_self _ _ _
    rw [hstored, hi]
    rfl
  | ret hi =>
    obtain rfl := ha
    rw [hcall, hi]
    rfl

end BookingApi.CachedSlots
