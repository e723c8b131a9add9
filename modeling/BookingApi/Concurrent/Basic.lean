import BookingApi.Concurrent.CancelBooking
import BookingApi.Concurrent.CreateBooking
import BookingApi.World.Frame

/-!
# Concurrent requests

Any number of requests run over one `World`, each inside its own `get_db`: requests that create a
booking, requests that cancel one, and bystanders, which are arbitrary programs that write no
bookings and touch no lock.  A run starts from a fresh installation (`start`); users, halls and
seats are created by bystanders.

`presents_start` says that the control points of a request are its program, and
`run_alone_request` that a request that runs alone does what its program says.
-/

namespace BookingApi

open Async BookingService

namespace Concurrent

/-! ### Bystanders -/

/-- A Redis command that touches no lock.  What it stores is not a token. -/
def SparesLocks {β : Type} : RedisCommand β → Prop
  | .get _ => True
  | .setex key _ value =>
    (∀ hallId startTime, key ≠ lockKey hallId startTime) ∧ ∀ token : Token, value ≠ token.text
  | .setNx .. => False
  | .evalRelease .. => False

/-- A flush that neither changes nor numbers a booking. -/
def WritesNoBooking {β : Type} (statement : Statement β) : Prop :=
  ∀ now seqs db, (statement now seqs db).2.bookings = seqs.bookings
    ∧ (statement now seqs db).2.bookingSeats = seqs.bookingSeats
    ∧ ∀ b ws, (statement now seqs db).1 = .ok (b, ws) →
      ∀ x ∈ ws, x.table ≠ .bookings ∧ x.table ≠ .bookingSeats

/-- An operation that has nothing to do with bookings. -/
def BookingFree : ∀ β : Type, Op β → Prop
  | _, .flush statement => WritesNoBooking statement
  | _, .redis command => SparesLocks command
  | _, .send _ => False
  | _, _ => True

/-- What is left of a request that has nothing to do with bookings. -/
structure Bystander where
  rest : App Unit
  bookingFree : rest.Uses BookingFree

/-! ### Requests and their control points -/

inductive Request : Type 1
  | createBooking (args : CreateArgs)
  | cancelBooking (args : CancelArgs)
  | other (request : Bystander)

inductive Reply
  | booking (answer : BookingResponse)
  | noContent
deriving DecidableEq

inductive Pc : Type 1
  | create (args : CreateArgs) (pc : CreatePc)
  | cancel (args : CancelArgs) (pc : CancelPc)
  | other (request : Bystander)

namespace Bystander

/-- What a bystander awaits. -/
def next : Bystander → Await Op Exc Unit Bystander
  | ⟨.ret _, _⟩ => .ended (.ok ())
  | ⟨.raise e, _⟩ => .ended (.error e)
  | ⟨.call op next, h⟩ => .call op fun r => ⟨next r, h.2 r⟩

theorem presents (p : App Unit) (h : p.Uses BookingFree) : Presents next p ⟨p, h⟩ := by
  induction p with
  | ret a => exact .ret rfl
  | raise e => exact .raise rfl
  | call op k ih => exact .call rfl fun r => ih r (h.2 r)

end Bystander

/-- What a request awaits. -/
def Pc.next (settings : Settings) : Pc → Await Op Exc Reply Pc
  | create args pc => (pc.next settings args).map .booking (create args)
  | cancel args pc => (pc.next args).map (fun _ => .noContent) (cancel args)
  | other request => request.next.map (fun _ => .noContent) other

/-- How a request has ended, if it has. -/
def Pc.result (settings : Settings) (pc : Pc) : Option (Except Exc Reply) :=
  match pc.next settings with
  | .ended r => some r
  | .call _ _ => none

theorem result_create {settings : Settings} {args : CreateArgs} {pc : CreatePc}
    {result : Except Exc Reply} (h : (Pc.create args pc).result settings = some result) :
    ∃ r, pc = .done r ∧ result = r.map .booking := by
  cases pc with
  | done r => exact ⟨r, rfl, (Option.some.inj h).symm⟩
  | _ => simp [Pc.result, Pc.next, CreatePc.next, Await.map] at h

theorem result_cancel {settings : Settings} {args : CancelArgs} {pc : CancelPc}
    {result : Except Exc Reply} (h : (Pc.cancel args pc).result settings = some result) :
    ∃ r, pc = .done r ∧ result = r.map fun _ => .noContent := by
  cases pc with
  | done r => exact ⟨r, rfl, (Option.some.inj h).symm⟩
  | _ => simp [Pc.result, Pc.next, CancelPc.next, Await.map] at h

namespace Request

def start : Request → Pc
  | createBooking args => .create args .load
  | cancelBooking args => .cancel args .load
  | other request => .other request

def program (settings : Settings) : Request → App Reply
  | createBooking args => (getDb (args.program settings)).bind (.ret ∘ .booking)
  | cancelBooking args => (getDb args.program).bind (.ret ∘ fun _ => .noContent)
  | other request => request.rest.bind (.ret ∘ fun _ => .noContent)

/-- The control points of a request make up its program. -/
theorem presents_start (settings : Settings) (request : Request) :
    Presents (Pc.next settings) (request.program settings) request.start := by
  cases request with
  | createBooking args =>
    have h (pc : CreatePc) : Pc.next settings (.create args pc)
        = (pc.next settings args).map .booking (.create args) := rfl
    exact (CreatePc.presents settings args).map h
  | cancelBooking args =>
    have h (pc : CancelPc) : Pc.next settings (.cancel args pc)
        = (pc.next args).map (fun _ => .noContent) (.cancel args) := rfl
    exact (CancelPc.presents args).map h
  | other request =>
    have h (b : Bystander) : Pc.next settings (.other b)
        = b.next.map (fun _ => .noContent) .other := rfl
    exact (Bystander.presents _ request.bookingFree).map h

end Request

/-! ### Runs -/

abbrev Config := Async.Config RequestId World Pc

abbrev Action := Async.Action RequestId World.Fault World.Env

def step (settings : Settings) : Config → Action → Option Config :=
  Async.step World.semantics (Pc.next settings)

/-- A fresh installation, with every request at its start. -/
def start (requests : RequestId → Request) : Config := ⟨.initial, fun r => (requests r).start⟩

/-- The token that a request draws, if it draws one. -/
def Request.token? : Request → Option Token
  | .createBooking args => some args.token
  | _ => none

/-- The tokens drawn by different requests are different. -/
def DistinctTokens (requests : RequestId → Request) : Prop :=
  ∀ r r' args args', requests r = .createBooking args → requests r' = .createBooking args' →
    args.token = args'.token → r = r'

/-- The transitions of a run, latest first. -/
abbrev Trace := List (Transition Config Action)

/-- A run of some requests from a fresh installation. -/
abbrev RunOf (settings : Settings) (requests : RequestId → Request) (tr : Trace) (c : Config) :
    Prop :=
  Run (step settings) (start requests) tr c

/-! ### A request alone -/

/-- No other request has an open transaction. -/
def OthersIdle (i : RequestId) (w : World) : Prop := ∀ p ∈ w.pending, p.1 = i

theorem OthersIdle.enabled {i : RequestId} {w : World} (h : OthersIdle i w) {β : Type}
    (op : Op β) : World.enabled i β op w = true := by
  cases op with
  | flush statement =>
    rw [World.enabled]
    split
    · -- only another request's transaction can hold a row lock
      rw [List.all_eq_true]
      intro x _
      rw [List.all_eq_true]
      intro p hp
      simp [h p hp]
    · rfl
  | _ => rfl

theorem OthersIdle.exec {i : RequestId} {w : World} (h : OthersIdle i w) {β : Type} (op : Op β) :
    OthersIdle i (World.exec i β op w).2 := by
  -- the end of a transaction leaves the others as they are
  have hclose : OthersIdle i (w.close i) := fun p hp => h p (List.mem_of_mem_filter hp)
  cases op with
  | flush statement =>
    rcases World.exec_flush (w := w) (r := i) statement with
      ⟨b, ws, seqs, -, he⟩ | ⟨e, seqs, -, he⟩
    · rw [he]
      intro p hp
      rcases List.mem_append.mp hp with hp | hp
      · exact h p hp
      · obtain ⟨x, -, rfl⟩ := List.mem_map.mp hp
        rfl
    · rw [he]
      exact h
  | commit => exact hclose
  | rollback => exact hclose
  | _ => exact h

theorem OthersIdle.run {i : RequestId} {w : World} (h : OthersIdle i w) {α : Type} (p : App α) :
    OthersIdle i (p.run (World.exec i) w).2 := by
  have huses : p.Uses fun _ _ => True := Program.uses_of_forall (fun _ _ => trivial) p
  exact huses.run_rel _ (R := fun w w' => OthersIdle i w → OthersIdle i w') (fun _ h => h)
    (fun h h' hw => h' (h hw)) (fun op _ _ h => h.exec op) w h

/-- The end of the only open transaction. -/
theorem OthersIdle.pending_close {i : RequestId} {w : World} (h : OthersIdle i w) :
    (w.close i).pending = [] := by
  rw [World.close, List.filter_eq_nil_iff]
  intro p hp
  simpa using h p hp

/-- **A request alone**: scheduled without interruption, a request ends as its program says. -/
theorem run_alone_request (settings : Settings) {c : Config} {i : RequestId} {request : Request}
    (hi : c.threads i = request.start) (h : OthersIdle i c.shared) :
    ∃ tr c', Run (step settings) c tr c' ∧ (∀ t ∈ tr, t.action = .run i) ∧
      c'.shared = ((request.program settings).run (World.exec i) c.shared).2 ∧
      (c'.threads i).next settings
        = .ended ((request.program settings).run (World.exec i) c.shared).1 ∧
      ∀ j, j ≠ i → c'.threads j = c.threads j := by
  have hp := request.presents_start settings
  rw [← hi] at hp
  have henabled (β : Type) (op : Op β) (w : World) (h : OthersIdle i w) :
      World.semantics.enabled i β op w = true := h.enabled op
  exact run_alone henabled (fun _ op _ h => h.exec op) hp h

/-- The program of a request that creates a booking, run alone, is the request served alone. -/
theorem run_program_createBooking (settings : Settings) (args : CreateArgs) (i : RequestId)
    (w : World) :
    ((Request.createBooking args).program settings).run (World.exec i) w
      = ((serve i (args.program settings) w).1.map .booking,
        (serve i (args.program settings) w).2) :=
  Program.run_map _ _ _ _

end Concurrent

end BookingApi
