import BookingApi.BookingService.Queries
import BookingApi.Concurrent.Basic

/-!
# What a step can do

Every transition of a request as a relation between worlds and control points: `CreateStep` for a
request that creates a booking, `CancelStep` for one that cancels one.  The relations are complete
(`createStep_of_exec`, `createStep_of_fault` and their siblings), and `step_cases` collects what a
step of the system can be; `dbStep_of_step` says what it can do to the committed tables.  The
invariants are derived from these and do not unfold the machines.
-/

namespace BookingApi.Concurrent

open Async BookingService

variable {settings : Settings}

/-! ### Creating -/

/-- The control points before the lock is asked for. -/
def Early : CreatePc → Prop
  | .load | .selectHall _ | .selectUser _ _ | .selectSeats _ _ | .checkConflicts _ _ => True
  | _ => False

/-- The control points inside the `try` block. -/
def Locked : CreatePc → Prop
  | .recheck _ _ | .flushBooking _ _ _ | .flushSeats _ _ _ _ | .refresh _ _ _ _
  | .reload _ _ _ _ | .send _ _ _ _ _ => True
  | _ => False

/-- The control points after the lock was released. -/
def Late : CreatePc → Prop
  | .response _ | .commit _ => True
  | _ => False

/-- A step of a request that creates a booking: of its own accord (`none`), or by a fault. -/
inductive CreateStep (settings : Settings) (args : CreateArgs) (i : RequestId) :
    Option World.Fault → World → CreatePc → World → CreatePc → Prop
  | load {w : World} : CreateStep settings args i none w .load w
      (.selectHall (.load args.userId (w.view i)))
  | selectHall {w : World} {session : Session} {hall : Hall} :
      selectActiveHall args.hallId (w.view i) = some hall →
      CreateStep settings args i none w (.selectHall session) w (.selectUser session hall)
  | selectUser {w : World} {session : Session} {hall : Hall} {row : User} :
      (w.view i).users.find? args.userId = some row →
      validateTimeSlot settings args.startTime args.endTime = .ok () →
      CreateStep settings args i none w (.selectUser session hall) w
        (.selectSeats hall (session.user row))
  | selectSeats {w : World} {hall : Hall} {user : User} :
      (selectActiveSeats args.hallId args.seatIds (w.view i)).length = args.seatIds.length →
      CreateStep settings args i none w (.selectSeats hall user) w (.checkConflicts hall user)
  | checkConflicts {w : World} {hall : Hall} {user : User} :
      selectConflictingSeats args.hallId args.seatIds args.startTime.instant args.endTime.instant
        none (w.view i) = [] →
      CreateStep settings args i none w (.checkConflicts hall user) w (.acquire hall user)
  | acquire {w : World} {hall : Hall} {user : User} :
      w.redis args.lockKey = none →
      CreateStep settings args i none w (.acquire hall user)
        (w.setRedis (Function.update w.redis args.lockKey
          (some ⟨args.token.text, settings.redisLockTimeout⟩))) (.recheck hall user)
  -- the lock is taken, or the call fails
  | acquireFail {f : Option World.Fault} {w : World} {hall : Hall} {user : User} {e : Exc} :
      (f = none → (w.redis args.lockKey).isSome) →
      CreateStep settings args i f w (.acquire hall user) w (.rollback e)
  -- an exception, or a fault, before the lock is asked for
  | abortEarly {f : Option World.Fault} {w : World} {pc : CreatePc} {e : Exc} : Early pc →
      CreateStep settings args i f w pc w (.rollback e)
  | recheck {w : World} {hall : Hall} {user : User} {price : Decimal} :
      selectConflictingSeats args.hallId args.seatIds args.startTime.instant args.endTime.instant
        none (w.view i) = [] →
      CreateStep settings args i none w (.recheck hall user) w (.flushBooking hall user price)
  | flushBooking {w : World} {hall : Hall} {user : User} {price : Decimal} {b : Booking}
      {seqs : Sequences} :
      insertBooking args.userId args.hallId args.startTime.instant args.endTime.instant price
        .confirmed w.now w.sequences (w.view i) = (.ok (b.id, [.insertBooking b]), seqs) →
      CreateStep settings args i none w (.flushBooking hall user price)
        ((w.setSequences seqs).stage i [.insertBooking b])
        (.flushSeats hall user price b.id)
  | flushSeats {w : World} {hall : Hall} {user : User} {price : Decimal} {id : ℤ}
      {ws : List Write} {seqs : Sequences} :
      insertBookingSeats id args.seatIds w.now w.sequences (w.view i) = (.ok ((), ws), seqs) →
      CreateStep settings args i none w (.flushSeats hall user price id)
        ((w.setSequences seqs).stage i ws) (.refresh hall user price id)
  | refresh {w : World} {hall : Hall} {user : User} {price : Decimal} {id : ℤ} :
      CreateStep settings args i none w (.refresh hall user price id) w
        (.reload hall user price id)
  | reload {w : World} {hall : Hall} {user : User} {price : Decimal} {id : ℤ} {b : Booking} :
      (w.view i).bookings.find? id = some b →
      CreateStep settings args i none w (.reload hall user price id) w
        (.send hall user price b ((w.view i).seatsOf id))
  | send {w : World} {hall : Hall} {user : User} {price : Decimal} {b : Booking}
      {bookingSeats : List BookingSeat} :
      CreateStep settings args i none w (.send hall user price b bookingSeats)
        (w.publish i (args.event hall user price b.id))
        (.release (.ok ⟨b, some hall, bookingSeats⟩))
  -- the event is appended, but its acknowledgement is lost
  | sendLost {w : World} {hall : Hall} {user : User} {price : Decimal} {b : Booking}
      {bookingSeats : List BookingSeat} {e : Exc} :
      CreateStep settings args i (some .acknowledgementLost) w
        (.send hall user price b bookingSeats)
        (w.publish i (args.event hall user price b.id)) (.release (.error e))
  -- an exception, or a fault, inside the `try` block; a flush that raises uses up ids
  | abortLocked {f : Option World.Fault} {w : World} {pc : CreatePc} {e : Exc}
      {seqs : Sequences} : Locked pc → w.sequences.bookings ≤ seqs.bookings →
      w.sequences.bookingSeats ≤ seqs.bookingSeats →
      CreateStep settings args i f w pc (w.setSequences seqs) (.release (.error e))
  | release {w : World} {outcome : Except Exc LoadedBooking} :
      CreateStep settings args i none w (.release outcome)
        (w.setRedis (w.redis.lockReleaseScript args.lockKey args.token.text).2)
        (match outcome with
          | .error e => .rollback e
          | .ok booking => .response booking)
  | releaseFault {w : World} {outcome : Except Exc LoadedBooking} {e : Exc} :
      CreateStep settings args i (some .noEffect) w (.release outcome) w (.rollback e)
  | response {w : World} {booking : LoadedBooking} {answer : BookingResponse} :
      bookingResponse booking (selectSeatsOf booking (w.view i)) = .ok answer →
      CreateStep settings args i none w (.response booking) w (.commit answer)
  | responseError {w : World} {booking : LoadedBooking} {e : Exc} :
      bookingResponse booking (selectSeatsOf booking (w.view i)) = .error e →
      CreateStep settings args i none w (.response booking) w (.rollback e)
  | lateFault {f : World.Fault} {w : World} {pc : CreatePc} {e : Exc} : Late pc →
      CreateStep settings args i (some f) w pc w (.rollback e)
  | commit {w : World} {answer : BookingResponse} :
      CreateStep settings args i none w (.commit answer) (w.commit i) (.done (.ok answer))
  | rollback {f : Option World.Fault} {w : World} {e e' : Exc} :
      CreateStep settings args i f w (.rollback e) (w.close i) (.done (.error e'))

/-- An operation that returns or raises of its own accord takes one of the steps. -/
theorem createStep_of_exec {args : CreateArgs} {i : RequestId} {w : World} {pc : CreatePc}
    {β : Type} {op : Op β} {resume : Except Exc β → CreatePc}
    (h : pc.next settings args = .call op resume) :
    CreateStep settings args i none w pc (World.exec i β op w).2
      (resume (World.exec i β op w).1) := by
  cases pc <;> simp only [CreatePc.next, reduceCtorEq] at h <;> cases h
  case load => exact .load
  case selectHall session =>
    simp only [World.exec]
    rcases hh : selectActiveHall args.hallId (w.view i) with _ | hall
    · exact .abortEarly trivial
    · exact .selectHall hh
  case selectUser session hall =>
    simp only [World.exec]
    rcases hu : (w.view i).users.find? args.userId with _ | user
    · exact .abortEarly trivial
    · rcases hv : validateTimeSlot settings args.startTime args.endTime with e | _
      · exact .abortEarly trivial
      · exact .selectUser hu hv
  case selectSeats hall user =>
    simp only [World.exec]
    split_ifs with hs
    · exact .abortEarly trivial
    · exact .selectSeats (not_not.mp hs)
  case checkConflicts hall user =>
    simp only [World.exec]
    split_ifs with hs
    · exact .abortEarly trivial
    · exact .checkConflicts (not_not.mp hs)
  case acquire hall user =>
    simp only [World.exec, Redis.exec]
    rcases hk : w.redis args.lockKey with _ | entry
    · exact .acquire hk
    · exact .acquireFail fun _ => by rw [hk]; rfl
  case recheck hall user =>
    simp only [World.exec]
    split_ifs with hs
    · exact .abortLocked trivial le_rfl le_rfl
    · rcases args.endTime.sub args.startTime with e | duration
      · exact .abortLocked trivial le_rfl le_rfl
      · exact .recheck (not_not.mp hs)
  case flushBooking hall user price =>
    simp only [World.exec]
    rcases h : insertBooking args.userId args.hallId args.startTime.instant args.endTime.instant
      price .confirmed w.now w.sequences (w.view i) with ⟨e | ⟨id, ws⟩, seqs⟩
    · refine .abortLocked trivial ?_ ?_ <;> rw [insertBooking_eq_error h]
      simp
    · obtain ⟨b, -, -, -, -, -, -, -, -, -, -, rfl, rfl, -⟩ := insertBooking_eq_ok h
      exact .flushBooking h
  case flushSeats hall user price id =>
    simp only [World.exec]
    rcases h : insertBookingSeats id args.seatIds w.now w.sequences (w.view i) with
      ⟨e | ⟨u, ws⟩, seqs⟩
    · refine .abortLocked trivial ?_ ?_ <;> rw [insertBookingSeats_eq_error h]
      simp
    · exact .flushSeats h
  case refresh hall user price id =>
    simp only [World.exec]
    rcases (w.view i).bookings.find? id with _ | b
    · exact .abortLocked trivial le_rfl le_rfl
    · exact .refresh
  case reload hall user price id =>
    simp only [World.exec]
    rcases hb : (w.view i).bookings.find? id with _ | b
    · exact .abortLocked trivial le_rfl le_rfl
    · exact .reload hb
  case send hall user price b bookingSeats => exact .send
  case release outcome =>
    cases outcome with
    | error e => exact .release
    | ok b => exact .release
  case response booking =>
    simp only [World.exec]
    rcases hr : bookingResponse booking (selectSeatsOf booking (w.view i)) with e | answer
    · exact .responseError hr
    · exact .response hr
  case commit answer => exact .commit
  case rollback e => exact .rollback

/-- So does an operation that is hit by a fault. -/
theorem createStep_of_fault {args : CreateArgs} {i : RequestId} {w w' : World} {pc : CreatePc}
    {β : Type} {op : Op β} {resume : Except Exc β → CreatePc} {f : World.Fault} {e : Exc}
    (h : pc.next settings args = .call op resume) (hf : World.fault i β op f w = some (e, w')) :
    CreateStep settings args i (some f) w pc w' (resume (.error e)) := by
  cases pc <;> simp only [CreatePc.next, reduceCtorEq] at h <;> cases h <;> cases f <;>
    simp only [World.fault, Option.some.injEq, Prod.mk.injEq, reduceCtorEq] at hf <;>
    obtain ⟨-, rfl⟩ := hf
  case rollback.refl.noEffect => exact .rollback
  case send.refl.acknowledgementLost => exact .sendLost
  case acquire.refl.noEffect => exact .acquireFail (by simp)
  case release.refl.noEffect => exact .releaseFault
  all_goals first
    | exact .abortEarly trivial
    | exact .abortLocked trivial le_rfl le_rfl
    | exact .lateFault trivial

/-! ### Cancelling -/

/-- The control points before the outcome is known. -/
def Open : CancelPc → Prop
  | .load | .select _ | .flush _ _ _ | .refresh _ _ _ | .send _ _ _ | .commit => True
  | _ => False

/-- A step of a request that cancels a booking. -/
inductive CancelStep (args : CancelArgs) (i : RequestId) :
    Option World.Fault → World → CancelPc → World → CancelPc → Prop
  | load {w : World} :
      CancelStep args i none w .load w (.select (.load args.userId (w.view i)))
  -- the object of the session decides, not the row
  | select {w : World} {session : Session} {row : Booking} {userEmail hallName : String} :
      (w.view i).bookings.find? args.bookingId = some row →
      (session.booking row).userId = args.userId → (session.booking row).status = .confirmed →
      CancelStep args i none w (.select session) w
        (.flush (session.booking row) userEmail hallName)
  | selectNone {w : World} {session : Session} {e : Exc} :
      (w.view i).bookings.find? args.bookingId = none →
      CancelStep args i none w (.select session) w (.rollback e)
  | selectForeign {w : World} {session : Session} {row : Booking} {e : Exc} :
      (w.view i).bookings.find? args.bookingId = some row →
      (session.booking row).userId ≠ args.userId →
      CancelStep args i none w (.select session) w (.rollback e)
  | selectCancelled {w : World} {session : Session} {row : Booking} :
      (w.view i).bookings.find? args.bookingId = some row →
      (session.booking row).userId = args.userId → (session.booking row).status = .cancelled →
      CancelStep args i none w (.select session) w (.rollback alreadyCancelled)
  | flush {w : World} {b : Booking} {userEmail hallName : String} :
      CancelStep args i none w (.flush b userEmail hallName)
        (w.stage i [.updateBooking b.id .cancelled]) (.refresh b userEmail hallName)
  | refresh {w : World} {b b' : Booking} {userEmail hallName : String} :
      (w.view i).bookings.find? b.id = some b' →
      CancelStep args i none w (.refresh b userEmail hallName) w (.send b' userEmail hallName)
  | refreshNone {w : World} {b : Booking} {userEmail hallName : String} {e : Exc} :
      (w.view i).bookings.find? b.id = none →
      CancelStep args i none w (.refresh b userEmail hallName) w (.rollback e)
  | send {w : World} {b : Booking} {userEmail hallName : String} :
      CancelStep args i none w (.send b userEmail hallName)
        (w.publish i (.bookingCancelled b.id args.userId userEmail hallName)) .commit
  | sendLost {w : World} {b : Booking} {userEmail hallName : String} {e : Exc} :
      CancelStep args i (some .acknowledgementLost) w (.send b userEmail hallName)
        (w.publish i (.bookingCancelled b.id args.userId userEmail hallName)) (.rollback e)
  | fault {f : World.Fault} {w : World} {pc : CancelPc} {e : Exc} : Open pc →
      CancelStep args i (some f) w pc w (.rollback e)
  | commit {w : World} : CancelStep args i none w .commit (w.commit i) (.done (.ok ()))
  | rollback {f : Option World.Fault} {w : World} {e e' : Exc} : (f = none → e' = e) →
      CancelStep args i f w (.rollback e) (w.close i) (.done (.error e'))

theorem cancelStep_of_exec {args : CancelArgs} {i : RequestId} {w : World} {pc : CancelPc}
    {β : Type} {op : Op β} {resume : Except Exc β → CancelPc} (h : pc.next args = .call op resume) :
    CancelStep args i none w pc (World.exec i β op w).2 (resume (World.exec i β op w).1) := by
  cases pc <;> simp only [CancelPc.next, reduceCtorEq] at h <;> cases h
  case load => exact .load
  case select session =>
    simp only [World.exec, selectBookingWithOwner]
    rcases hb : (w.view i).bookings.find? args.bookingId with _ | row
    · exact .selectNone hb
    · simp only [Option.map_some]
      split_ifs with hu hc
      · exact .selectForeign hb hu
      · exact .selectCancelled hb (not_not.mp hu) hc
      · have hs : (session.booking row).status = .confirmed := by
          cases hs : (session.booking row).status
          · rfl
          · exact absurd hs hc
        exact .select hb (not_not.mp hu) hs
  case flush b userEmail hallName => exact .flush
  case refresh b userEmail hallName =>
    simp only [World.exec]
    rcases hb : (w.view i).bookings.find? b.id with _ | b'
    · exact .refreshNone hb
    · exact .refresh hb
  case send b userEmail hallName => exact .send
  case commit => exact .commit
  case rollback e => exact .rollback fun _ => rfl

theorem cancelStep_of_fault {args : CancelArgs} {i : RequestId} {w w' : World} {pc : CancelPc}
    {β : Type} {op : Op β} {resume : Except Exc β → CancelPc} {f : World.Fault} {e : Exc}
    (h : pc.next args = .call op resume) (hf : World.fault i β op f w = some (e, w')) :
    CancelStep args i (some f) w pc w' (resume (.error e)) := by
  cases pc <;> simp only [CancelPc.next, reduceCtorEq] at h <;> cases h <;> cases f <;>
    simp only [World.fault, Option.some.injEq, Prod.mk.injEq, reduceCtorEq] at hf <;>
    obtain ⟨-, rfl⟩ := hf
  case rollback.refl.noEffect => exact .rollback (by simp)
  case send.refl.acknowledgementLost => exact .sendLost
  all_goals exact .fault trivial

/-! ### Bystanders -/

/-- What a step of a bystander does to the world. -/
inductive BystanderStep (i : RequestId) (w : World) : World → Prop
  | quiet : BystanderStep i w w
  | flush {ws : List Write} {seqs : Sequences} : seqs.bookings = w.sequences.bookings →
      seqs.bookingSeats = w.sequences.bookingSeats →
      (∀ x ∈ ws, x.table ≠ .bookings ∧ x.table ≠ .bookingSeats) →
      BystanderStep i w ((w.setSequences seqs).stage i ws)
  | setex {key value : String} {ttl : ℕ} :
      (∀ hallId startTime, key ≠ lockKey hallId startTime) → (∀ token : Token, value ≠ token.text) →
      BystanderStep i w (w.setRedis (Function.update w.redis key (some ⟨value, ttl⟩)))
  | commit : BystanderStep i w (w.commit i)
  | rollback : BystanderStep i w (w.close i)

theorem stage_nil (w : World) (i : RequestId) : w.stage i [] = w := by
  simp [World.stage]

theorem bystanderStep_of_exec {i : RequestId} {w : World} {β : Type} {op : Op β}
    (h : BookingFree β op) : BystanderStep i w (World.exec i β op w).2 := by
  cases op with
  | execute query => exact .quiet
  | flush statement =>
    obtain ⟨h1, h2, h3⟩ := h w.now w.sequences (w.view i)
    rcases World.exec_flush (w := w) (r := i) statement with
      ⟨b, ws, seqs, hs, he⟩ | ⟨e, seqs, hs, he⟩ <;> rw [he] <;> rw [hs] at h1 h2 h3
    · exact .flush h1 h2 (h3 b ws rfl)
    · rw [← stage_nil (w.setSequences seqs) i]
      exact .flush h1 h2 (by simp)
  | commit => exact .commit
  | rollback => exact .rollback
  | redis command =>
    cases command with
    | get key => exact .quiet
    | setex key ttl value => exact .setex h.1 h.2
    | setNx key value ex => exact h.elim
    | evalRelease key token => exact h.elim
  | send event => exact h.elim

theorem bystanderStep_of_fault {i : RequestId} {w w' : World} {β : Type} {op : Op β}
    {f : World.Fault} {e : Exc} (h : BookingFree β op)
    (hf : World.fault i β op f w = some (e, w')) : BystanderStep i w w' := by
  cases op <;> cases f <;>
    simp only [World.fault, Option.some.injEq, Prod.mk.injEq, reduceCtorEq] at hf
  case rollback.noEffect =>
    obtain ⟨-, rfl⟩ := hf
    exact .rollback
  case send.noEffect => exact h.elim
  case send.acknowledgementLost => exact h.elim
  all_goals
    obtain ⟨-, rfl⟩ := hf
    exact .quiet

/-! ### The system -/

/-- The action by which a request takes a step. -/
def actionOf (i : RequestId) : Option World.Fault → Action
  | none => .run i
  | some f => .fault i f

theorem actionOf_injective {i i' : RequestId} {f f' : Option World.Fault}
    (h : actionOf i f = actionOf i' f') : i = i' ∧ f = f' := by
  cases f <;> cases f' <;> simp_all [actionOf]

/-- What a step of the system can be. -/
inductive SystemStep (settings : Settings) (c c' : Config) : Action → Prop
  | create {i : RequestId} {f : Option World.Fault} {args : CreateArgs} {pc pc' : CreatePc} :
      c.threads i = .create args pc → CreateStep settings args i f c.shared pc c'.shared pc' →
      c'.threads = Function.update c.threads i (.create args pc') →
      SystemStep settings c c' (actionOf i f)
  | cancel {i : RequestId} {f : Option World.Fault} {args : CancelArgs} {pc pc' : CancelPc} :
      c.threads i = .cancel args pc → CancelStep args i f c.shared pc c'.shared pc' →
      c'.threads = Function.update c.threads i (.cancel args pc') →
      SystemStep settings c c' (actionOf i f)
  | other {i : RequestId} {f : Option World.Fault} {b b' : Bystander} :
      c.threads i = .other b → BystanderStep i c.shared c'.shared →
      c'.threads = Function.update c.threads i (.other b') →
      SystemStep settings c c' (actionOf i f)
  | env {e : World.Env} : c'.shared = World.env e c.shared → c'.threads = c.threads →
      SystemStep settings c c' (.env e)

/-- The operation that a request awaits belongs to its own machine. -/
theorem call_cases {pc : Pc} {β : Type} {op : Op β} {resume : Except Exc β → Pc}
    (h : pc.next settings = .call op resume) :
    (∃ args cpc resume', pc = .create args cpc ∧ cpc.next settings args = .call op resume'
        ∧ resume = .create args ∘ resume') ∨
    (∃ args cpc resume', pc = .cancel args cpc ∧ cpc.next args = .call op resume'
        ∧ resume = .cancel args ∘ resume') ∨
    ∃ b resume', pc = .other b ∧ BookingFree β op ∧ resume = .other ∘ resume' := by
  cases pc with
  | create args cpc =>
    rw [Pc.next] at h
    cases hn : cpc.next settings args with
    | ended r => rw [hn] at h; cases h
    | call op' resume' => rw [hn] at h; cases h; exact .inl ⟨args, cpc, resume', rfl, hn, rfl⟩
  | cancel args cpc =>
    rw [Pc.next] at h
    cases hn : cpc.next args with
    | ended r => rw [hn] at h; cases h
    | call op' resume' =>
      rw [hn] at h; cases h; exact .inr (.inl ⟨args, cpc, resume', rfl, hn, rfl⟩)
  | other b =>
    obtain ⟨rest, hfree⟩ := b
    cases rest with
    | ret a => cases h
    | raise e => cases h
    | call op' k => cases h; exact .inr (.inr ⟨_, _, rfl, hfree.1, rfl⟩)

/-- **The steps of the system**: a request takes one of its steps, or the environment acts. -/
theorem step_cases {c c' : Config} {a : Action} (h : step settings c a = some c') :
    SystemStep settings c c' a := by
  cases a with
  | run i =>
    obtain ⟨β, op, resume, hn, -, hs, ht⟩ := step_run h
    obtain ⟨args, pc, resume', hpc, hn', rfl⟩ | ⟨args, pc, resume', hpc, hn', rfl⟩ |
      ⟨b, resume', hpc, hfree, rfl⟩ := call_cases hn
    · exact .create (f := none) hpc (hs ▸ createStep_of_exec hn') ht
    · exact .cancel (f := none) hpc (hs ▸ cancelStep_of_exec hn') ht
    · exact .other (f := none) hpc (hs ▸ bystanderStep_of_exec hfree) ht
  | fault i f =>
    obtain ⟨β, op, resume, e, hn, hs, ht⟩ := step_fault h
    obtain ⟨args, pc, resume', hpc, hn', rfl⟩ | ⟨args, pc, resume', hpc, hn', rfl⟩ |
      ⟨b, resume', hpc, hfree, rfl⟩ := call_cases hn
    · exact .create (f := some f) hpc (createStep_of_fault hn' hs) ht
    · exact .cancel (f := some f) hpc (cancelStep_of_fault hn' hs) ht
    · exact .other (f := some f) hpc (bystanderStep_of_fault hfree hs) ht
  | env e =>
    obtain rfl := step_env h
    exact .env rfl rfl

/-- What a step of the system can do to the committed tables: nothing, or it is a commit. -/
inductive DbStep (c c' : Config) : Action → Prop
  | keep {a : Action} : c'.shared.db = c.shared.db → DbStep c c' a
  | create {i : RequestId} {args : CreateArgs} {answer : BookingResponse} :
      c.threads i = .create args (.commit answer) →
      c'.threads = Function.update c.threads i (.create args (.done (.ok answer))) →
      c'.shared = c.shared.commit i → DbStep c c' (.run i)
  | cancel {i : RequestId} {args : CancelArgs} : c.threads i = .cancel args .commit →
      c'.threads = Function.update c.threads i (.cancel args (.done (.ok ()))) →
      c'.shared = c.shared.commit i → DbStep c c' (.run i)
  | other {a : Action} {i : RequestId} {b : Bystander} : c.threads i = .other b →
      c'.shared = c.shared.commit i → DbStep c c' a

theorem CreateStep.db_eq_or_commit {args : CreateArgs} {i : RequestId} {f : Option World.Fault}
    {w w' : World} {pc pc' : CreatePc} (hs : CreateStep settings args i f w pc w' pc') :
    w'.db = w.db ∨
      ∃ answer, pc = .commit answer ∧ f = none ∧ w' = w.commit i ∧ pc' = .done (.ok answer) := by
  cases hs with
  | @commit _ answer => exact .inr ⟨answer, rfl, rfl, rfl, rfl⟩
  | _ => exact .inl rfl

theorem CancelStep.db_eq_or_commit {args : CancelArgs} {i : RequestId} {f : Option World.Fault}
    {w w' : World} {pc pc' : CancelPc} (hs : CancelStep args i f w pc w' pc') :
    w'.db = w.db ∨ pc = .commit ∧ f = none ∧ w' = w.commit i ∧ pc' = .done (.ok ()) := by
  cases hs with
  | commit => exact .inr ⟨rfl, rfl, rfl, rfl⟩
  | _ => exact .inl rfl

theorem BystanderStep.db_eq_or_commit {i : RequestId} {w w' : World} (hs : BystanderStep i w w') :
    w'.db = w.db ∨ w' = w.commit i := by
  cases hs with
  | commit => exact .inr rfl
  | _ => exact .inl rfl

/-- **What a step does to the committed tables.** -/
theorem dbStep_of_step {c c' : Config} {a : Action} (h : step settings c a = some c') :
    DbStep c c' a := by
  cases step_cases h with
  | create hpc hs ht =>
    rcases hs.db_eq_or_commit with hdb | ⟨answer, rfl, rfl, hw, rfl⟩
    · exact .keep hdb
    · exact .create hpc ht hw
  | cancel hpc hs ht =>
    rcases hs.db_eq_or_commit with hdb | ⟨rfl, rfl, hw, rfl⟩
    · exact .keep hdb
    · exact .cancel hpc ht hw
  | other hpc hs ht => exact hs.db_eq_or_commit.elim .keep (.other hpc)
  | @env e hs ht =>
    refine .keep ?_
    rw [hs]
    cases e <;> rfl

/-- A step of a request that creates a booking. -/
theorem createStep_of_step {c c' : Config} {i : RequestId} {f : Option World.Fault}
    {args : CreateArgs} {pc : CreatePc} (h : step settings c (actionOf i f) = some c')
    (hpc : c.threads i = .create args pc) :
    ∃ pc', CreateStep settings args i f c.shared pc c'.shared pc' ∧
      c'.threads = Function.update c.threads i (.create args pc') := by
  generalize ha : actionOf i f = a at h
  cases step_cases h with
  | create hpc' hs ht =>
    obtain ⟨rfl, rfl⟩ := actionOf_injective ha
    obtain ⟨rfl, rfl⟩ := Pc.create.inj (hpc.symm.trans hpc')
    exact ⟨_, hs, ht⟩
  | cancel hpc' _ _ =>
    obtain ⟨rfl, rfl⟩ := actionOf_injective ha
    exact absurd (hpc.symm.trans hpc') nofun
  | other hpc' _ _ =>
    obtain ⟨rfl, rfl⟩ := actionOf_injective ha
    exact absurd (hpc.symm.trans hpc') nofun
  | env => cases f <;> cases ha

end BookingApi.Concurrent
