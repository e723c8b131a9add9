import BookingApi.BookingService.Response
import BookingApi.Concurrent.Step
import BookingApi.World.Sound

/-!
# The invariant of concurrent requests

`Inv` holds in every configuration that a run reaches, whatever the requests are and whatever fails:
the shared world is sound, and the open transaction and the events of each request are those that
its control point says (`CreateInv`, `CancelInv`).
-/

namespace BookingApi.Concurrent

open Async BookingService World

/-! ### Creating -/

/-- The row that a request inserts. -/
structure IsDraft (args : CreateArgs) (b : Booking) : Prop where
  userId : b.userId = args.userId
  hallId : b.hallId = args.hallId
  startTime : b.startTime = args.startTime.instant
  endTime : b.endTime = args.endTime.instant
  status : b.status = .confirmed

/-- Nothing written, nothing sent. -/
def Idle (w : World) (r : RequestId) : Prop := w.writesOf r = [] ∧ w.sentBy r = []

/-- The requested seats are seats of the hall. -/
def Placed (w : World) (args : CreateArgs) : Prop :=
  ∀ seatId ∈ args.seatIds, ∃ s ∈ w.db.seats.rows, s.id = seatId ∧ s.hallId = args.hallId

/-- The seats attached to a booking exist. -/
def Seated (w : World) (bookingSeats : List BookingSeat) : Prop :=
  ∀ bs ∈ bookingSeats, ∃ s ∈ w.db.seats.rows, s.id = bs.seatId

/-- The open transaction has inserted the booking. -/
def Drafted (w : World) (r : RequestId) (args : CreateArgs) (id : ℤ) : Prop :=
  ∃ b, b.id = id ∧ IsDraft args b ∧ w.writesOf r = [.insertBooking b]

/-- The open transaction has inserted the booking and its seats. -/
def Filled (w : World) (r : RequestId) (args : CreateArgs) (id : ℤ) : Prop :=
  ∃ b k, b.id = id ∧ IsDraft args b ∧ w.writesOf r
    = .insertBooking b :: (bookingSeatRows id k args.seatIds).map .insertBookingSeat

/-- The request has announced the booking, and sent nothing else. -/
def Announced (w : World) (r : RequestId) (id : ℤ) : Prop :=
  ∃ e : BookingEvent, e.isCreated ∧ e.bookingId = id ∧ w.sentBy r = [⟨r, e⟩]

/-- The booking is committed. -/
def Stored (w : World) (id : ℤ) : Prop := ∃ b ∈ w.db.bookings.rows, b.id = id

/-- A request that creates a booking, at each control point. -/
def CreateInv (w : World) (r : RequestId) (args : CreateArgs) : CreatePc → Prop
  | .load | .selectHall _ | .selectUser _ _ | .selectSeats _ _ => Idle w r
  | .checkConflicts _ _ | .acquire _ _ | .recheck _ _ | .flushBooking _ _ _ =>
    Idle w r ∧ Placed w args
  | .flushSeats _ _ _ id => Drafted w r args id ∧ w.sentBy r = [] ∧ Placed w args
  | .refresh _ _ _ id | .reload _ _ _ id => Filled w r args id ∧ w.sentBy r = []
  | .send _ _ _ b bookingSeats => Filled w r args b.id ∧ w.sentBy r = [] ∧ Seated w bookingSeats
  | .release (.ok b) | .response b =>
    Filled w r args b.booking.id ∧ Announced w r b.booking.id ∧ Seated w b.bookingSeats
  | .commit answer => Filled w r args answer.id ∧ Announced w r answer.id
  | .release (.error _) | .rollback _ => True
  | .done (.ok answer) => w.writesOf r = [] ∧ Announced w r answer.id ∧ Stored w answer.id
  | .done (.error _) => w.writesOf r = []

/-! ### Cancelling -/

/-- The booking is committed and belongs to the user. -/
def Owned (w : World) (args : CancelArgs) : Prop :=
  ∃ b ∈ w.db.bookings.rows, b.id = args.bookingId ∧ b.userId = args.userId

/-- The request has reported the cancellation, and sent nothing else. -/
def Told (w : World) (r : RequestId) (id : ℤ) : Prop :=
  ∃ e : BookingEvent, e.isCreated = false ∧ e.bookingId = id ∧ w.sentBy r = [⟨r, e⟩]

/-- A request that cancels a booking, at each control point. -/
def CancelInv (w : World) (r : RequestId) (args : CancelArgs) : CancelPc → Prop
  | .load => Idle w r
  | .select session => Idle w r ∧ session.Kept w.db
  | .flush b _ _ => b.id = args.bookingId ∧ Idle w r ∧ Owned w args
  | .refresh b _ _ | .send b _ _ =>
    b.id = args.bookingId ∧ w.writesOf r = [.updateBooking args.bookingId .cancelled]
      ∧ w.sentBy r = [] ∧ Owned w args
  | .commit =>
    w.writesOf r = [.updateBooking args.bookingId .cancelled] ∧ Told w r args.bookingId
      ∧ Owned w args
  | .rollback _ => True
  | .done (.ok _) => w.writesOf r = [] ∧ Told w r args.bookingId ∧ Owned w args
  | .done (.error _) => w.writesOf r = []

/-- A bystander writes no bookings and sends nothing. -/
def BystanderInv (w : World) (r : RequestId) : Prop :=
  (∀ x ∈ w.writesOf r, x.table ≠ .bookings ∧ x.table ≠ .bookingSeats) ∧ w.sentBy r = []

def ThreadInv (w : World) (r : RequestId) : Pc → Prop
  | .create args pc => CreateInv w r args pc
  | .cancel args pc => CancelInv w r args pc
  | .other _ => BystanderInv w r

structure Inv (c : Config) : Prop where
  sound : c.shared.Sound
  thread : ∀ r, ThreadInv c.shared r (c.threads r)

theorem Inv.create {c : Config} (hi : Inv c) {r : RequestId} {args : CreateArgs} {pc : CreatePc}
    (h : c.threads r = .create args pc) : CreateInv c.shared r args pc := by
  have := hi.thread r
  rwa [h] at this

theorem Inv.cancel {c : Config} (hi : Inv c) {r : RequestId} {args : CancelArgs} {pc : CancelPc}
    (h : c.threads r = .cancel args pc) : CancelInv c.shared r args pc := by
  have := hi.thread r
  rwa [h] at this

theorem Inv.other {c : Config} (hi : Inv c) {r : RequestId} {b : Bystander}
    (h : c.threads r = .other b) : BystanderInv c.shared r := by
  have := hi.thread r
  rwa [h] at this

theorem inv_start (requests : RequestId → Request) : Inv (start requests) := by
  refine ⟨sound_initial, fun r => ?_⟩
  have hidle : Idle initial r := ⟨rfl, rfl⟩
  show ThreadInv initial r (requests r).start
  cases requests r with
  | createBooking args => exact hidle
  | cancelBooking args => exact hidle
  | other request => exact ⟨by simp [hidle.1], hidle.2⟩

/-! ### Steps of the other requests -/

variable {w w' : World} {r : RequestId}

theorem Placed.mono {args : CreateArgs} (hg : w.db.Grows w'.db) (h : Placed w args) :
    Placed w' args := by
  intro seatId hid
  obtain ⟨s, hs, rfl, hhall⟩ := h seatId hid
  obtain ⟨s', hs', hp⟩ := Table.exists_of_map_subset hg.seats hs
  exact ⟨s', hs', Seat.id_eq_of_place hp, (Seat.hallId_eq_of_place hp).trans hhall⟩

theorem Seated.mono {rows : List BookingSeat} (hg : w.db.Grows w'.db) (h : Seated w rows) :
    Seated w' rows := by
  intro bs hbs
  obtain ⟨s, hs, hid⟩ := h bs hbs
  obtain ⟨s', hs', hp⟩ := Table.exists_of_map_subset hg.seats hs
  exact ⟨s', hs', (Seat.id_eq_of_place hp).trans hid⟩

theorem Stored.mono {id : ℤ} (hg : w.db.Grows w'.db) (h : Stored w id) : Stored w' id := by
  obtain ⟨b, hb, hid⟩ := h
  obtain ⟨b', hb', ht⟩ := Table.exists_of_map_subset hg.bookings hb
  exact ⟨b', hb', (Booking.id_eq_of_terms ht).trans hid⟩

theorem Owned.mono {args : CancelArgs} (hg : w.db.Grows w'.db) (h : Owned w args) :
    Owned w' args := by
  obtain ⟨b, hb, hid, hu⟩ := h
  obtain ⟨b', hb', ht⟩ := Table.exists_of_map_subset hg.bookings hb
  exact ⟨b', hb', (Booking.id_eq_of_terms ht).trans hid, (congrArg (·.2.1) ht).trans hu⟩

/-- What holds of a request is kept by the steps of the others. -/
theorem ThreadInv.untouched {pc : Pc} (hu : Untouched r w w') (h : ThreadInv w r pc) :
    ThreadInv w' r pc := by
  have hg := hu.grows
  -- the transaction and the events are the request's own, and what is said of the tables lasts
  cases pc with
  | create args pc =>
    rcases pc with _ | _ | _ | _ | _ | _ | _ | _ | _ | _ | _ | _ | (e | b) | _ | _ | _ |
      (e | answer)
    all_goals
      simp only [ThreadInv, CreateInv, Idle, Drafted, Filled, Announced, hu.writes,
        hu.sent] at h ⊢ <;>
      first
      | exact h
      | exact ⟨h.1, h.2.mono hg⟩
      | exact ⟨h.1, h.2.1, h.2.2.mono hg⟩
  | cancel args pc =>
    rcases pc with _ | _ | _ | _ | _ | _ | _ | (e | u)
    all_goals
      simp only [ThreadInv, CancelInv, Idle, Told, hu.writes, hu.sent] at h ⊢ <;>
      first
      | exact h
      | exact ⟨h.1, h.2.mono hg⟩
      | exact ⟨h.1, h.2.1, h.2.2.mono hg⟩
      | exact ⟨h.1, h.2.1, h.2.2.1, h.2.2.2.mono hg⟩
  | other b =>
    rw [ThreadInv, BystanderInv, hu.writes, hu.sent]
    exact h

/-- A step of one request leaves the others alone. -/
theorem untouched_of_step {settings : Settings} {c c' : Config} {a : Action}
    (h : step settings c a = some c') (hr : ∀ f, a ≠ actionOf r f) :
    c'.threads r = c.threads r ∧ Untouched r c.shared c'.shared := by
  cases a with
  | run i =>
    obtain ⟨β, op, resume, -, -, hs, ht⟩ := step_run h
    have hne : r ≠ i := fun he => hr none (by rw [he]; rfl)
    exact ⟨by rw [ht, Function.update_of_ne hne], hs ▸ untouched_exec hne⟩
  | fault i f =>
    obtain ⟨β, op, resume, e, -, hs, ht⟩ := step_fault h
    have hne : r ≠ i := fun he => hr (some f) (by rw [he]; rfl)
    exact ⟨by rw [ht, Function.update_of_ne hne], untouched_fault hne hs⟩
  | env e =>
    obtain rfl := step_env h
    refine ⟨rfl, ?_⟩
    cases e <;> exact .of_eq rfl rfl rfl

/-! ### Steps of the request itself -/

variable {settings : Settings} {f : Option Fault}

theorem view_of_idle (h : Idle w r) : w.view r = w.db := view_of_writesOf_nil h.1

theorem Filled.mem {args : CreateArgs} {id : ℤ} (h : Filled w r args id) :
    ∃ b, b.id = id ∧ IsDraft args b ∧ .insertBooking b ∈ w.writesOf r := by
  obtain ⟨b, k, hid, hd, hws⟩ := h
  exact ⟨b, hid, hd, by rw [hws]; exact List.mem_cons_self ..⟩

/-- The seats that the transaction sees attached to a booking exist. -/
theorem seated_view (hw : w.Sound) (id : ℤ) : Seated w ((w.view r).seatsOf id) := by
  intro bs hbs
  rcases Db.mem_bookingSeats_applyAll (List.mem_of_mem_filter hbs) with hbs | hbs
  · obtain ⟨b, -, -, s, hs, hid, -⟩ := hw.linked bs hbs
    exact ⟨s, hs, hid⟩
  · obtain ⟨b, -, -, s, hs, hid, -⟩ := hw.draft_linked r bs hbs
    exact ⟨s, hs, hid⟩

/-- The answer for a booking whose seats exist can be built. -/
theorem exists_answer {b : LoadedBooking} (h : Seated w b.bookingSeats) :
    ∃ answer, bookingResponse b (selectSeatsOf b (w.view r)) = .ok answer := by
  have hview : Seated (w.commit r) b.bookingSeats := h.mono grows_commit
  exact exists_bookingResponse hview

/-- A booking that its request has announced has exactly this announcement. -/
theorem announcements_of_announced (hw : w.Sound) {b : Booking}
    (hb : .insertBooking b ∈ w.writesOf r) (ha : Announced w r b.id) :
    (w.announcements b.id).length = 1 := by
  obtain ⟨e, hc, hid, hsent⟩ := ha
  have : w.announcements b.id = w.sentBy r := by
    rw [announcements, sentBy]
    refine List.filter_congr fun m hm => ?_
    rw [decide_eq_decide]
    constructor
    · exact fun h => hw.draft_message r b hb m hm h.2
    · intro h
      have hm' : m ∈ w.sentBy r := mem_sentBy.mpr ⟨hm, h⟩
      rw [hsent, List.mem_singleton] at hm'
      exact hm' ▸ ⟨hc, hid⟩
  rw [this, hsent]
  rfl

/-- The ids of a new booking and its seats are not taken. -/
theorem fresh_of_filled (hw : w.Sound) {args : CreateArgs} {b : Booking} {k : ℤ}
    (hws : w.writesOf r
      = .insertBooking b :: (bookingSeatRows b.id k args.seatIds).map .insertBookingSeat) :
    (∀ b' ∈ w.db.bookings.rows, b'.id ≠ b.id) ∧
      ∀ bs ∈ bookingSeatRows b.id k args.seatIds, ∀ bs' ∈ w.db.bookingSeats.rows,
        bs'.id ≠ bs.id := by
  refine ⟨hw.draft_fresh r b (by rw [hws]; exact List.mem_cons_self ..), fun bs hbs => ?_⟩
  refine hw.draftSeat_fresh r bs ?_
  rw [hws]
  exact List.mem_cons_of_mem _ (List.mem_map_of_mem hbs)

/-- The commit of a new booking appends it and its seats. -/
theorem commit_filled (hw : w.Sound) {args : CreateArgs} {b : Booking} {k : ℤ}
    (hws : w.writesOf r
      = .insertBooking b :: (bookingSeatRows b.id k args.seatIds).map .insertBookingSeat) :
    (w.commit r).db.bookings.rows = w.db.bookings.rows ++ [b] ∧
      (w.commit r).db.bookingSeats.rows
        = w.db.bookingSeats.rows ++ bookingSeatRows b.id k args.seatIds := by
  obtain ⟨hb, hfresh⟩ := fresh_of_filled hw hws
  have := Db.applyAll_newBooking hb (nodup_bookingSeatRows _ _ _) hfresh
  rwa [← hws] at this

/-- The new booking has exactly the requested seats. -/
theorem seatsOf_commit_filled (hw : w.Sound) {args : CreateArgs} {b : Booking} {k : ℤ}
    (hws : w.writesOf r
      = .insertBooking b :: (bookingSeatRows b.id k args.seatIds).map .insertBookingSeat) :
    ((w.commit r).db.seatsOf b.id).map BookingSeat.seatId = args.seatIds := by
  obtain ⟨hb, hfresh⟩ := fresh_of_filled hw hws
  have hold : ∀ bs ∈ w.db.bookingSeats.rows, bs.bookingId ≠ b.id := by
    intro bs hbs hid
    obtain ⟨b', hb', hid', -⟩ := hw.linked bs hbs
    exact hb b' hb' (hid'.symm.trans hid)
  have := Db.seatsOf_newBooking (nodup_bookingSeatRows b.id k args.seatIds) hfresh hold
    fun bs hbs => (mem_bookingSeatRows hbs).2.2.1
  rw [← hws] at this
  show ((w.db.applyAll (w.writesOf r)).seatsOf b.id).map BookingSeat.seatId = args.seatIds
  rw [this]
  exact map_seatId_bookingSeatRows ..

/-- The first flush adds the booking to the open transaction. -/
theorem createInv_flushBooking {args : CreateArgs} {hall : Hall} {user : User} {price : Decimal}
    {b : Booking} {seqs : Sequences} (hw : w.Sound)
    (h : CreateInv w r args (.flushBooking hall user price))
    (hins : insertBooking args.userId args.hallId args.startTime.instant args.endTime.instant price
      .confirmed w.now w.sequences (w.view r) = (.ok (b.id, [.insertBooking b]), seqs)) :
    ((w.setSequences seqs).stage r [.insertBooking b]).Sound ∧
      CreateInv ((w.setSequences seqs).stage r [.insertBooking b]) r args
        (.flushSeats hall user price b.id) := by
  obtain ⟨⟨hnil, hsent⟩, hplaced⟩ := h
  obtain ⟨b', hid, hu, hh, hst, hen, -, hstatus, -, -, -, -, hws, rfl⟩ := insertBooking_eq_ok hins
  obtain rfl : b = b' := by simpa using hws
  have hdraft : IsDraft args b := ⟨hu, hh, hst, hen, hstatus⟩
  have hstage : Stageable w r [.insertBooking b]
      { w.sequences with bookings := w.sequences.bookings + 1 } := by
    refine ⟨?_, le_rfl, ?_, by simp, by simp⟩
    · simp
    · -- the id of the booking is the number that the sequence gave out
      intro b'' hb''
      obtain rfl : b'' = b := by simpa using hb''
      simp [hid]
  have hwrites : (((w.setSequences { w.sequences with bookings := w.sequences.bookings + 1 }).stage
      r [.insertBooking b]).writesOf r) = [.insertBooking b] := by
    rw [writesOf_stage_self]
    exact congrArg (· ++ _) hnil
  exact ⟨hw.stage hstage, ⟨b, rfl, hdraft, hwrites⟩, hsent, hplaced⟩

/-- The second flush adds the seats. -/
theorem createInv_flushSeats {args : CreateArgs} {hall : Hall} {user : User} {price : Decimal}
    {id : ℤ} {ws : List Write} {seqs : Sequences} (hw : w.Sound)
    (h : CreateInv w r args (.flushSeats hall user price id))
    (hins : insertBookingSeats id args.seatIds w.now w.sequences (w.view r)
      = (.ok ((), ws), seqs)) :
    ((w.setSequences seqs).stage r ws).Sound ∧
      CreateInv ((w.setSequences seqs).stage r ws) r args (.refresh hall user price id) := by
  obtain ⟨⟨b, rfl, hd, hdraft⟩, hsent, hplaced⟩ := h
  obtain ⟨-, -, rfl, rfl⟩ := insertBookingSeats_eq_ok hins
  refine ⟨hw.stage ⟨le_rfl, ?_, by simp, ?_, by simp⟩,
    ⟨b, w.sequences.bookingSeats, rfl, hd, ?_⟩, hsent⟩
  · simp
  · -- a new row attaches a requested seat of the hall to the booking of the same transaction
    intro bs hbs
    obtain ⟨hge, hlt, hbid, hseat⟩ := mem_bookingSeatRows (by simpa using hbs)
    obtain ⟨s, hs, hsid, hhall⟩ := hplaced _ hseat
    have hb : .insertBooking b ∈ w.writesOf r := by
      rw [hdraft]
      exact List.mem_singleton_self _
    exact ⟨hge, hlt, b, hb, hbid, s, hs, hsid, hhall.trans hd.hallId.symm⟩
  · rw [writesOf_stage_self]
    exact congrArg (· ++ _) hdraft

/-- The commit stores the booking, which the request has announced. -/
theorem createInv_commit {args : CreateArgs} {answer : BookingResponse} (hw : w.Sound)
    (h : CreateInv w r args (.commit answer)) :
    (w.commit r).Sound ∧ CreateInv (w.commit r) r args (.done (.ok answer)) := by
  obtain ⟨⟨b, k, hid, hd, hws⟩, ha⟩ := h
  have hmem : .insertBooking b ∈ w.writesOf r := by
    rw [hws]
    exact List.mem_cons_self ..
  rw [← hid] at hws
  have hstored : b ∈ (w.commit r).db.bookings.rows := by
    rw [(commit_filled hw hws).1]
    simp
  refine ⟨hw.commit ?_ ?_, writesOf_close_self _ _, ha, b, hstored, hid⟩
  · intro x hx
    rw [hws] at hx
    rcases List.mem_cons.mp hx with rfl | hx
    · exact ⟨hd.status, announcements_of_announced hw hmem (hid ▸ ha)⟩
    · obtain ⟨bs, -, rfl⟩ := List.mem_map.mp hx
      trivial
  · intro b' hb'
    rw [hws] at hb'
    obtain rfl : b' = b := by simpa using hb'
    exact ⟨b', hstored, rfl⟩

theorem createInv_step {args : CreateArgs} {pc pc' : CreatePc} (hw : w.Sound)
    (h : CreateInv w r args pc) (hs : CreateStep settings args r f w pc w' pc') :
    w'.Sound ∧ CreateInv w' r args pc' := by
  cases hs with
  | load => exact ⟨hw, h⟩
  | selectHall => exact ⟨hw, h⟩
  | selectUser => exact ⟨hw, h⟩
  | selectSeats hlen =>
    -- the count of the active seats says that all requested seats are seats of the hall
    refine ⟨hw, h, fun seatId hid => ?_⟩
    rw [view_of_idle h, length_selectActiveSeats_eq_iff] at hlen
    obtain ⟨s, hs, hsid, hhall, -⟩ := hlen.2 seatId hid
    exact ⟨s, hs, hsid, hhall⟩
  | checkConflicts => exact ⟨hw, h⟩
  | acquire => exact ⟨hw.setRedis _, h⟩
  | acquireFail => exact ⟨hw, trivial⟩
  | abortEarly => exact ⟨hw, trivial⟩
  | recheck => exact ⟨hw, h⟩
  | flushBooking hins => exact createInv_flushBooking hw h hins
  | flushSeats hins => exact createInv_flushSeats hw h hins
  | refresh => exact ⟨hw, h⟩
  | @reload _ _ _ _ id b hb =>
    obtain rfl : b.id = id := (Table.find?_eq_some_iff.mp hb).2
    exact ⟨hw, h.1, h.2, seated_view hw _⟩
  | @send _ hall user price b bookingSeats =>
    obtain ⟨hfilled, hsent, hseated⟩ := h
    obtain ⟨d, hid, -, hd⟩ := hfilled.mem
    have hannounced : Announced (w.publish r (args.event hall user price b.id)) r b.id := by
      refine ⟨args.event hall user price b.id, rfl, rfl, ?_⟩
      rw [sentBy_publish_self, hsent]
      rfl
    exact ⟨hw.publish_created hd hid.symm rfl, hfilled, hannounced, hseated⟩
  | sendLost =>
    -- the event is in the topic, but the request goes on to fail
    obtain ⟨d, hid, -, hd⟩ := h.1.mem
    exact ⟨hw.publish_created hd hid.symm rfl, trivial⟩
  | abortLocked _ hb hseq => exact ⟨hw.setSequences hb hseq, trivial⟩
  | @release _ outcome =>
    refine ⟨hw.setRedis _, ?_⟩
    cases outcome with
    | error e => trivial
    | ok b => exact h
  | releaseFault => exact ⟨hw, trivial⟩
  | response hr =>
    rw [CreateInv, id_of_bookingResponse hr]
    exact ⟨hw, h.1, h.2.1⟩
  | responseError => exact ⟨hw, trivial⟩
  | lateFault => exact ⟨hw, trivial⟩
  | commit => exact createInv_commit hw h
  | rollback => exact ⟨hw.close r, writesOf_close_self w r⟩

theorem cancelInv_step {args : CancelArgs} {pc pc' : CancelPc} (hw : w.Sound)
    (h : CancelInv w r args pc) (hs : CancelStep args r f w pc w' pc') :
    w'.Sound ∧ CancelInv w' r args pc' := by
  cases hs with
  | load =>
    rw [view_of_idle h]
    exact ⟨hw, h, Session.kept_load _ _⟩
  | @select _ session row _ _ hb hu =>
    obtain ⟨hidle, hkept⟩ := h
    rw [view_of_idle hidle, Table.find?_eq_some_iff] at hb
    -- the row is of the same user as the object
    have hu' : row.userId = args.userId :=
      (congrArg (·.2.1) (hkept.terms_booking hb.1)).symm.trans hu
    exact ⟨hw, (session.id_booking row).trans hb.2, hidle, row, hb.1, hb.2, hu'⟩
  | selectNone => exact ⟨hw, trivial⟩
  | selectForeign => exact ⟨hw, trivial⟩
  | selectCancelled => exact ⟨hw, trivial⟩
  | @flush _ b =>
    obtain ⟨hid, ⟨hnil, hsent⟩, howned⟩ := h
    have hstage : Stageable w r [.updateBooking b.id .cancelled] w.sequences :=
      ⟨le_rfl, le_rfl, by simp, by simp, by simp⟩
    refine ⟨hw.stage hstage, hid, ?_, hsent, howned⟩
    rw [writesOf_stage_self, hnil, hid]
    rfl
  | refresh hb =>
    obtain ⟨hid, h⟩ := h
    exact ⟨hw, (Table.find?_eq_some_iff.mp hb).2.trans hid, h⟩
  | refreshNone => exact ⟨hw, trivial⟩
  | @send _ b userEmail hallName =>
    obtain ⟨hid, hws, hsent, howned⟩ := h
    obtain ⟨b', hb', hid', -⟩ := id howned
    refine ⟨hw.publish_cancelled hb' (hid.trans hid'.symm) rfl, hws,
      ⟨.bookingCancelled b.id args.userId userEmail hallName, rfl, hid, ?_⟩, howned⟩
    rw [sentBy_publish_self, hsent]
    rfl
  | sendLost =>
    obtain ⟨hid, -, -, b', hb', hid', -⟩ := h
    exact ⟨hw.publish_cancelled hb' (hid.trans hid'.symm) rfl, trivial⟩
  | fault => exact ⟨hw, trivial⟩
  | commit =>
    obtain ⟨hws, htold, howned⟩ := h
    refine ⟨hw.commit ?_ ?_, writesOf_close_self _ _, htold, howned.mono grows_commit⟩
    · intro x hx
      rw [hws, List.mem_singleton] at hx
      obtain ⟨e, hc, hid, hsent⟩ := htold
      have hm : (⟨r, e⟩ : Message) ∈ w.sentBy r := by rw [hsent]; exact List.mem_singleton_self _
      exact hx ▸ ⟨_, (mem_sentBy.mp hm).1, hc, hid⟩
    · intro b hb
      rw [hws] at hb
      simp at hb
  | rollback => exact ⟨hw.close r, writesOf_close_self w r⟩

theorem bystanderInv_step (hw : w.Sound) (h : BystanderInv w r) (hs : BystanderStep r w w') :
    w'.Sound ∧ BystanderInv w' r := by
  cases hs with
  | quiet => exact ⟨hw, h⟩
  | @flush ws seqs h1 h2 h3 =>
    refine ⟨hw.stage ⟨h1.ge, h2.ge, ?_, ?_, ?_⟩, ?_, h.2⟩
    · exact fun b hb => absurd rfl (h3 _ hb).1
    · exact fun bs hbs => absurd rfl (h3 _ hbs).2
    · exact fun id status hu => absurd rfl (h3 _ hu).1
    · intro x hx
      rcases mem_writesOf_stage hx with hx | ⟨-, hx⟩
      · exact h.1 x hx
      · exact h3 x hx
  | setex => exact ⟨hw.setRedis _, h⟩
  | commit =>
    refine ⟨hw.commit ?_ ?_, fun x hx => h.1 x (mem_writesOf_close hx).1, h.2⟩
    · intro x hx
      obtain ⟨h1, h2⟩ := h.1 x hx
      cases x with
      | insertBooking b => exact absurd rfl h1
      | updateBooking id status => exact absurd rfl h1
      | _ => trivial
    · exact fun b hb => absurd rfl (h.1 _ hb).1
  | rollback => exact ⟨hw.close r, fun x hx => h.1 x (mem_writesOf_close hx).1, h.2⟩

/-! ### Runs -/

/-- To show something of every request after a step: show that the steps of the other requests keep
it, and that it holds after each step of the request itself. -/
theorem forall_threads {c c' : Config} {a : Action} (h : step settings c a = some c')
    {Q : RequestId → Pc → Prop}
    (untouched : ∀ r, (∀ f, a ≠ actionOf r f) → Untouched r c.shared c'.shared →
      Q r (c.threads r))
    (create : ∀ {i f args pc pc'}, a = actionOf i f → c.threads i = .create args pc →
      CreateStep settings args i f c.shared pc c'.shared pc' → Q i (.create args pc'))
    (cancel : ∀ {i f args pc pc'}, a = actionOf i f → c.threads i = .cancel args pc →
      CancelStep args i f c.shared pc c'.shared pc' → Q i (.cancel args pc'))
    (other : ∀ {i f b b'}, a = actionOf i f → c.threads i = .other b →
      BystanderStep i c.shared c'.shared → Q i (.other b')) :
    ∀ r, Q r (c'.threads r) := by
  have key {i : RequestId} {f : Option Fault} {pc : Pc} (ha : a = actionOf i f)
      (ht : c'.threads = Function.update c.threads i pc) (hpc : Q i pc) :
      ∀ r, Q r (c'.threads r) := by
    intro r
    by_cases hr : r = i
    · rwa [hr, ht, Function.update_self]
    · have hne (g : Option Fault) : a ≠ actionOf r g := by
        rw [ha]
        cases f <;> cases g <;> simp [actionOf, Ne.symm hr]
      obtain ⟨hthread, hu⟩ := untouched_of_step h hne
      rw [hthread]
      exact untouched r hne hu
  cases step_cases h with
  | create hpc hs ht => exact key rfl ht (create rfl hpc hs)
  | cancel hpc hs ht => exact key rfl ht (cancel rfl hpc hs)
  | other hpc hs ht => exact key rfl ht (other rfl hpc hs)
  | @env e hs ht =>
    intro r
    have hne (f : Option Fault) : .env e ≠ actionOf r f := by cases f <;> simp [actionOf]
    obtain ⟨hthread, hu⟩ := untouched_of_step h hne
    rw [hthread]
    exact untouched r hne hu

theorem sound_step {c c' : Config} {a : Action} (hi : Inv c)
    (h : step settings c a = some c') : c'.shared.Sound := by
  cases step_cases h with
  | create hpc hs _ => exact (createInv_step hi.sound (hi.create hpc) hs).1
  | cancel hpc hs _ => exact (cancelInv_step hi.sound (hi.cancel hpc) hs).1
  | other hpc hs _ => exact (bystanderInv_step hi.sound (hi.other hpc) hs).1
  | env hs _ => exact hs ▸ hi.sound.env _

theorem inv_step {c c' : Config} {a : Action} (hi : Inv c)
    (h : step settings c a = some c') : Inv c' := by
  refine ⟨sound_step hi h, forall_threads h ?_ ?_ ?_ ?_⟩
  · exact fun r _ hu => (hi.thread r).untouched hu
  · exact fun _ hpc hs => (createInv_step hi.sound (hi.create hpc) hs).2
  · exact fun _ hpc hs => (cancelInv_step hi.sound (hi.cancel hpc) hs).2
  · exact fun _ hpc hs => (bystanderInv_step hi.sound (hi.other hpc) hs).2

/-- **The invariant of concurrent requests** holds in every configuration that a run reaches. -/
theorem RunOf.inv {requests : RequestId → Request} {tr : Trace} {c : Config}
    (h : RunOf settings requests tr c) : Inv c :=
  h.invariant_of_step (inv_start requests) inv_step

/-- Every transition of a run is a step between configurations that the invariant holds in. -/
theorem RunOf.of_mem {requests : RequestId → Request} {tr : Trace} {c : Config}
    (h : RunOf settings requests tr c) {t : Transition Config Action} (ht : t ∈ tr) :
    step settings t.before t.action = some t.after ∧ Inv t.before ∧ Inv t.after := by
  obtain ⟨hstep, tr', hrun, -⟩ := Run.of_mem h ht
  exact ⟨hstep, RunOf.inv hrun, inv_step (RunOf.inv hrun) hstep⟩

/-- No step confirms a booking again. -/
theorem cancelled_of_step {c c' : Config} (hi : Inv c) {a : Action}
    (h : step settings c a = some c') {id : ℤ} (hc : c.shared.Cancelled id) :
    c'.shared.Cancelled id := by
  cases a with
  | run i =>
    obtain ⟨β, op, resume, -, -, hs, -⟩ := step_run h
    exact hs ▸ hi.sound.cancelled_exec hc op
  | fault i f =>
    obtain ⟨β, op, resume, e, -, hs, -⟩ := step_fault h
    rwa [World.Cancelled, db_fault hs]
  | env e =>
    obtain rfl := step_env h
    cases e <;> exact hc

/-! ### Which request a control point belongs to -/

variable {requests : RequestId → Request} {tr : Trace} {c : Config}

/-- The control point is one of the request. -/
def Serves : Request → Pc → Prop
  | .createBooking args, .create args' _ => args' = args
  | .cancelBooking args, .cancel args' _ => args' = args
  | .other _, .other _ => True
  | _, _ => False

theorem RunOf.serves (h : RunOf settings requests tr c) :
    ∀ r, Serves (requests r) (c.threads r) := by
  refine Run.invariant_of_step (I := fun c => ∀ r, Serves (requests r) (c.threads r)) ?_ ?_ h
  · intro r
    show Serves (requests r) (requests r).start
    cases requests r <;> trivial
  · intro c a c' ih hstep
    have keep {i : RequestId} {pc pc' : Pc} (hpc : c.threads i = pc)
        (hsame : ∀ request, Serves request pc → Serves request pc') : Serves (requests i) pc' :=
      hsame _ (hpc ▸ ih i)
    refine forall_threads hstep (fun r _ _ => ih r) ?_ ?_ ?_
    · exact fun _ hpc _ => keep hpc fun request h => by cases request <;> exact h
    · exact fun _ hpc _ => keep hpc fun request h => by cases request <;> exact h
    · exact fun _ hpc _ => keep hpc fun request h => by cases request <;> exact h

theorem Serves.create_iff {request : Request} {pc : Pc} (h : Serves request pc)
    {args : CreateArgs} : request = .createBooking args ↔ ∃ pc', pc = .create args pc' := by
  cases request <;> cases pc <;> first | exact h.elim | simp
  rw [show _ = _ from h]

theorem Serves.cancel_iff {request : Request} {pc : Pc} (h : Serves request pc)
    {args : CancelArgs} : request = .cancelBooking args ↔ ∃ pc', pc = .cancel args pc' := by
  cases request <;> cases pc <;> first | exact h.elim | simp
  rw [show _ = _ from h]

theorem RunOf.create_iff (h : RunOf settings requests tr c) {r : RequestId} {args : CreateArgs} :
    requests r = .createBooking args ↔ ∃ pc, c.threads r = .create args pc :=
  (RunOf.serves h r).create_iff

theorem RunOf.cancel_iff (h : RunOf settings requests tr c) {r : RequestId} {args : CancelArgs} :
    requests r = .cancelBooking args ↔ ∃ pc, c.threads r = .cancel args pc :=
  (RunOf.serves h r).cancel_iff

end BookingApi.Concurrent
