import BookingApi.Concurrent.Invariant

/-!
# What the events say

An event is made of what its request has read: the hall, the user and the price when a booking is
created, the names when one is cancelled.

* `row_of_step`: a booking appears in the tables or in a transaction only by the insert of a request
  that creates it.
* `RunOf.says`: the events of a request name rows that were in the tables at some point of the run,
  and the price in them is the one that the booking is stored with.
-/

namespace BookingApi.Concurrent

open Async BookingService World

variable {settings : Settings} {requests : RequestId → Request} {tr : Trace} {c c' : Config}

/-! ### Rows of bookings -/

/-- The booking is committed, or a transaction has inserted it. -/
def Row (w : World) (b : Booking) : Prop :=
  b ∈ w.db.bookings.rows ∨ ∃ r, .insertBooking b ∈ w.writesOf r

theorem row_stage {w : World} {r : RequestId} {seqs : Sequences} {ws : List Write} {b : Booking}
    (hb : Row ((w.setSequences seqs).stage r ws) b) : Row w b ∨ .insertBooking b ∈ ws := by
  rcases hb with hb | ⟨r', hb⟩
  · exact .inl (.inl hb)
  · exact (mem_writesOf_stage hb).imp (fun hb => .inr ⟨r', hb⟩) And.right

theorem row_close {w : World} {r : RequestId} {b : Booking} (hb : Row (w.close r) b) : Row w b :=
  hb.imp_right fun ⟨r', hb⟩ => ⟨r', (mem_writesOf_close hb).1⟩

theorem row_commit {w : World} {r : RequestId} {b : Booking} (hb : Row (w.commit r) b) :
    ∃ b₀, Row w b₀ ∧ b.terms = b₀.terms := by
  rcases hb with hb | ⟨r', hb⟩
  · obtain ⟨b₀, hb₀, hterms, -⟩ := mem_bookings_commit hb
    exact ⟨b₀, hb₀.imp_right fun hb₀ => ⟨r, hb₀⟩, hterms⟩
  · exact ⟨b, .inr ⟨r', (mem_writesOf_close hb).1⟩, rfl⟩

theorem Row.lt {w : World} (hw : w.Sound) {b : Booking} (hb : Row w b) :
    b.id < w.sequences.bookings :=
  hb.elim (hw.booking_lt b) fun ⟨r, hb⟩ => hw.draft_lt r b hb

/-- The flush of a new booking. -/
def Inserts (args : CreateArgs) (price : Decimal) (w : World) (r : RequestId) (b : Booking) :
    Prop :=
  ∃ seqs, insertBooking args.userId args.hallId args.startTime.instant args.endTime.instant price
    .confirmed w.now w.sequences (w.view r) = (.ok (b.id, [.insertBooking b]), seqs)

/-- **A new row** is the one that a request inserts. -/
theorem row_of_step (hi : Inv c) {a : Action} (h : step settings c a = some c') {b : Booking}
    (hb : Row c'.shared b) : (∃ b₀, Row c.shared b₀ ∧ b.terms = b₀.terms) ∨
      ∃ r args hall user price, a = .run r ∧
        c.threads r = .create args (.flushBooking hall user price) ∧
        Inserts args price c.shared r b := by
  have same {w : World} (hdb : w.db = c.shared.db) (hpending : w.pending = c.shared.pending)
      (hb : Row w b) : ∃ b₀, Row c.shared b₀ ∧ b.terms = b₀.terms := by
    refine ⟨b, ?_, rfl⟩
    rw [Row, hdb] at hb
    exact hb.imp_right fun ⟨r, hb⟩ => ⟨r, writesOf_congr hpending r ▸ hb⟩
  have staged {r : RequestId} {seqs : Sequences} {ws : List Write} (hws : .insertBooking b ∉ ws)
      (hb : Row ((c.shared.setSequences seqs).stage r ws) b) :
      ∃ b₀, Row c.shared b₀ ∧ b.terms = b₀.terms :=
    ⟨b, (row_stage hb).resolve_right hws, rfl⟩
  cases step_cases h with
  | @create i f args pc pc' hpc hs ht =>
    have hinv := hi.create hpc
    generalize hw' : c'.shared = w' at *
    generalize hw : c.shared = w at *
    cases hs with
    -- the only step that inserts a booking
    | @flushBooking _ hall user price b' seqs hins =>
      rcases row_stage hb with hb | hb
      · exact .inl ⟨b, hb, rfl⟩
      · obtain rfl : b = b' := by simpa using hb
        exact .inr ⟨i, args, hall, user, price, rfl, hpc, seqs, hins⟩
    | @flushSeats _ hall user price id ws seqs hins =>
      obtain ⟨-, -, rfl, -⟩ := insertBookingSeats_eq_ok hins
      exact .inl (staged (by simp) hb)
    | commit => exact .inl (row_commit hb)
    | rollback => exact .inl ⟨b, row_close hb, rfl⟩
    | _ => exact .inl (same rfl rfl hb)
  | @cancel i f args pc pc' hpc hs ht =>
    generalize hw' : c'.shared = w' at *
    generalize hw : c.shared = w at *
    cases hs with
    | flush => exact .inl ⟨b, (row_stage hb).resolve_right (by simp), rfl⟩
    | commit => exact .inl (row_commit hb)
    | rollback => exact .inl ⟨b, row_close hb, rfl⟩
    | _ => exact .inl (same rfl rfl hb)
  | @other i f b' b'' hpc hs ht =>
    generalize hw' : c'.shared = w' at *
    generalize hw : c.shared = w at *
    cases hs with
    | flush h1 h2 h3 => exact .inl (staged (fun hmem => (h3 _ hmem).1 rfl) hb)
    | commit => exact .inl (row_commit hb)
    | rollback => exact .inl ⟨b, row_close hb, rfl⟩
    | _ => exact .inl (same rfl rfl hb)
  | @env e hs ht =>
    rw [hs] at hb
    cases e <;> exact .inl (same rfl rfl hb)

theorem grows_of_step {a : Action} (h : step settings c a = some c') :
    c.shared.db.Grows c'.shared.db := by
  cases a with
  | run i =>
    obtain ⟨β, op, resume, -, -, hs, -⟩ := step_run h
    exact hs ▸ (untouched_exec (Nat.succ_ne_self i)).grows
  | fault i f =>
    obtain ⟨β, op, resume, e, -, hs, -⟩ := step_fault h
    exact (db_fault hs) ▸ .refl _
  | env e =>
    obtain rfl := step_env h
    cases e <;> exact .refl _

/-! ### Users and halls of bookings -/

/-- The user and the hall of the booking are in the tables. -/
def Referenced (db : Db) (b : Booking) : Prop :=
  (∃ user ∈ db.users.rows, user.id = b.userId) ∧ ∃ hall ∈ db.halls.rows, hall.id = b.hallId

theorem Referenced.mono {db db' : Db} (hgrows : db.Grows db') {b b' : Booking}
    (hterms : b'.terms = b.terms) (h : Referenced db b) : Referenced db' b' := by
  obtain ⟨⟨user, huser, huid⟩, hall, hhall, hhid⟩ := h
  obtain ⟨user', huser', huid'⟩ := Table.exists_of_map_subset hgrows.users huser
  obtain ⟨hall', hhall', hhid'⟩ := Table.exists_of_map_subset hgrows.halls hhall
  have hu : b'.userId = b.userId := congrArg (·.2.1) hterms
  refine ⟨⟨user', huser', ?_⟩, hall', hhall', ?_⟩
  · exact huid'.trans (huid.trans hu.symm)
  · exact hhid'.trans (hhid.trans (Booking.hallId_eq_of_terms hterms).symm)

/-- The foreign keys of `bookings`. -/
theorem RunOf.referenced (h : RunOf settings requests tr c) :
    ∀ b, Row c.shared b → Referenced c.shared.db b := by
  refine Run.trace_invariant (I := fun _ c => ∀ b, Row c.shared b → Referenced c.shared.db b)
    (A := fun _ _ => True) ?_ ?_ h fun _ _ => trivial
  · rintro b (hb | ⟨r, hb⟩)
    · exact absurd hb List.not_mem_nil
    · exact absurd hb List.not_mem_nil
  · intro tr c a c' hrun ih _ hstep b hb
    have hi := RunOf.inv hrun
    have hgrows := grows_of_step hstep
    rcases row_of_step hi hstep hb with ⟨b₀, hb₀, hterms⟩ |
      ⟨r, args, hall, user, price, -, hpc, seqs, hins⟩
    · exact (ih b₀ hb₀).mono hgrows hterms
    · have hview := view_of_idle (hi.create hpc).1
      obtain ⟨b', -, hu, hh, -, -, -, -, -, huser, hhall, -, hws, -⟩ := insertBooking_eq_ok hins
      obtain rfl : b = b' := by simpa using hws
      rw [hview] at huser hhall
      obtain ⟨user', huser⟩ := Option.isSome_iff_exists.mp huser
      obtain ⟨hall', hhall⟩ := Option.isSome_iff_exists.mp hhall
      obtain ⟨humem, huid⟩ := Table.find?_eq_some_iff.mp huser
      obtain ⟨hhmem, hhid⟩ := Table.find?_eq_some_iff.mp hhall
      refine Referenced.mono hgrows rfl ⟨⟨user', humem, ?_⟩, hall', hhmem, ?_⟩
      · exact huid.trans hu.symm
      · exact hhid.trans hh.symm

/-! ### The row of an event -/

/-- The booking is the one that was asked for, at this price. -/
structure Books (args : CreateArgs) (price : Decimal) (b : Booking) : Prop where
  userId : b.userId = args.userId
  hallId : b.hallId = args.hallId
  startTime : b.startTime = args.startTime.instant
  endTime : b.endTime = args.endTime.instant
  totalPrice : b.totalPrice = price.toHundredths

theorem Books.congr {args : CreateArgs} {price : Decimal} {b b' : Booking}
    (hterms : b'.terms = b.terms) (h : Books args price b) : Books args price b' := by
  simp only [Booking.terms, Prod.mk.injEq] at hterms
  obtain ⟨-, hu, hh, hstart, hend, hprice, -⟩ := hterms
  exact ⟨hu.trans h.userId, hh.trans h.hallId, hstart.trans h.startTime, hend.trans h.endTime,
    hprice.trans h.totalPrice⟩

theorem Inserts.books {args : CreateArgs} {price : Decimal} {w : World} {r : RequestId}
    {b : Booking} (h : Inserts args price w r b) :
    Books args price b ∧ b.id = w.sequences.bookings := by
  obtain ⟨seqs, hins⟩ := h
  obtain ⟨b', hid, hu, hh, hstart, hend, hprice, -, -, -, -, -, hws, -⟩ := insertBooking_eq_ok hins
  obtain rfl : b = b' := by simpa using hws
  exact ⟨⟨hu, hh, hstart, hend, hprice⟩, hid⟩

/-- Whatever row has the id, it is the booking. -/
def RowBooks (w : World) (id : ℤ) (args : CreateArgs) (price : Decimal) : Prop :=
  ∀ b, Row w b → b.id = id → Books args price b

/-- An id that was handed out is not handed out again. -/
theorem RowBooks.step {id : ℤ} {args : CreateArgs} {price : Decimal} (hi : Inv c)
    (hlt : id < c.shared.sequences.bookings) (hrow : RowBooks c.shared id args price) {a : Action}
    (h : step settings c a = some c') : RowBooks c'.shared id args price := by
  intro b hb hid
  rcases row_of_step hi h hb with ⟨b₀, hb₀, hterms⟩ | ⟨r, args', hall, user, price', -, -, hins⟩
  · exact (hrow b₀ hb₀ ((Booking.id_eq_of_terms hterms).symm.trans hid)).congr hterms
  · have hnew := hins.books.2
    omega

/-- The row of a new booking. -/
theorem rowBooks_of_inserts {r : RequestId} {args : CreateArgs} {hall : Hall} {user : User}
    {price : Decimal} {b : Booking} (hi : Inv c)
    (hpc : c.threads r = .create args (.flushBooking hall user price))
    (hins : Inserts args price c.shared r b) (h : step settings c (.run r) = some c') :
    RowBooks c'.shared b.id args price := by
  intro b' hb' hid
  have hnew := hins.books.2
  rcases row_of_step hi h hb' with ⟨b₀, hb₀, hterms⟩ |
    ⟨r', args', hall', user', price', ha, hpc', hins'⟩
  · have hlt := hb₀.lt hi.sound
    rw [← Booking.id_eq_of_terms hterms, hid, hnew] at hlt
    exact absurd hlt (lt_irrefl _)
  · obtain rfl : r = r' := Action.run.inj ha
    rw [hpc] at hpc'
    cases hpc'
    exact hins'.books.1

/-! ### What a request has read -/

/-- In some state of the run. -/
def Once (tr : Trace) (c : Config) (P : Db → Prop) : Prop :=
  P c.shared.db ∨ ∃ t ∈ tr, P t.before.shared.db

theorem Once.cons {P : Db → Prop} (h : Once tr c P) (a : Action) (c' : Config) :
    Once (⟨c, a, c'⟩ :: tr) c' P := by
  right
  rcases h with h | ⟨t, ht, h⟩
  · exact ⟨_, List.mem_cons_self .., h⟩
  · exact ⟨t, List.mem_cons_of_mem _ ht, h⟩

/-- The hall was read for the id. -/
def WasHall (tr : Trace) (c : Config) (id : ℤ) (hall : Hall) : Prop :=
  hall.id = id ∧ Once tr c fun db => hall ∈ db.halls.rows

/-- The user was read for the id. -/
def WasUser (tr : Trace) (c : Config) (id : ℤ) (user : User) : Prop :=
  user.id = id ∧ Once tr c fun db => user ∈ db.users.rows

theorem WasHall.cons {id : ℤ} {hall : Hall} (h : WasHall tr c id hall) (a : Action) (c' : Config) :
    WasHall (⟨c, a, c'⟩ :: tr) c' id hall :=
  ⟨h.1, h.2.cons a c'⟩

theorem WasUser.cons {id : ℤ} {user : User} (h : WasUser tr c id user) (a : Action) (c' : Config) :
    WasUser (⟨c, a, c'⟩ :: tr) c' id user :=
  ⟨h.1, h.2.cons a c'⟩

/-- The users of the session were read with the authenticated user. -/
def WasSession (tr : Trace) (c : Config) (id : ℤ) (session : Session) : Prop :=
  ∀ user ∈ session.users, WasUser tr c id user

theorem WasSession.cons {id : ℤ} {session : Session} (h : WasSession tr c id session) (a : Action)
    (c' : Config) : WasSession (⟨c, a, c'⟩ :: tr) c' id session :=
  fun user huser => (h user huser).cons a c'

theorem wasSession_load (id : ℤ) : WasSession tr c id (.load id c.shared.db) := by
  intro user huser
  obtain ⟨hmem, hid⟩ := List.mem_filter.mp huser
  exact ⟨of_decide_eq_true hid, .inl hmem⟩

/-- The object for a row was read as well. -/
theorem WasSession.user {id : ℤ} {session : Session} (h : WasSession tr c id session) {row : User}
    (hrow : WasUser tr c id row) : WasUser tr c id (session.user row) := by
  rcases identityMap_cases session.users row with ⟨-, heq⟩ | ⟨hmem, -⟩
  · rwa [Session.user, heq]
  · exact h _ hmem

/-- The price of the booking. -/
def PriceOf (args : CreateArgs) (hall : Hall) (price : Decimal) : Prop :=
  ∃ duration, args.endTime.sub args.startTime = .ok duration ∧ price = bookingPrice hall duration

/-- What a request that creates a booking has read. -/
structure Priced (tr : Trace) (c : Config) (args : CreateArgs) (hall : Hall) (user : User)
    (price : Decimal) : Prop where
  wasHall : WasHall tr c args.hallId hall
  wasUser : WasUser tr c args.userId user
  priceOf : PriceOf args hall price

theorem Priced.cons {args : CreateArgs} {hall : Hall} {user : User} {price : Decimal}
    (h : Priced tr c args hall user price) (a : Action) (c' : Config) :
    Priced (⟨c, a, c'⟩ :: tr) c' args hall user price :=
  ⟨h.wasHall.cons a c', h.wasUser.cons a c', h.priceOf⟩

/-- The names in the report of a cancellation. -/
structure Named (tr : Trace) (c : Config) (args : CancelArgs) (userEmail hallName : String) :
    Prop where
  owner : ∃ user, WasUser tr c args.userId user ∧ userEmail = user.email
  hall : ∃ b ∈ c.shared.db.bookings.rows, b.id = args.bookingId ∧ b.userId = args.userId ∧
    ∃ hall, WasHall tr c b.hallId hall ∧ hallName = hall.name

theorem Named.cons {args : CancelArgs} {userEmail hallName : String}
    (h : Named tr c args userEmail hallName) {a : Action} (hstep : step settings c a = some c') :
    Named (⟨c, a, c'⟩ :: tr) c' args userEmail hallName := by
  obtain ⟨⟨user, huser, hemail⟩, b, hb, hid, hu, hall, hhall, hname⟩ := h
  obtain ⟨b', hb', hterms⟩ := Table.exists_of_map_subset (grows_of_step hstep).bookings hb
  have hhall' := hhall.cons a c'
  rw [← Booking.hallId_eq_of_terms hterms] at hhall'
  exact ⟨⟨user, huser.cons a c', hemail⟩, b', hb', (Booking.id_eq_of_terms hterms).trans hid,
    (congrArg (·.2.1) hterms).trans hu, hall, hhall', hname⟩

/-- What is known at each control point of a request that creates a booking. -/
def CreateKnows (tr : Trace) (c : Config) (args : CreateArgs) : CreatePc → Prop
  | .selectHall session => WasSession tr c args.userId session
  | .selectUser session hall => WasHall tr c args.hallId hall ∧ WasSession tr c args.userId session
  | .selectSeats hall user | .checkConflicts hall user | .acquire hall user
  | .recheck hall user => WasHall tr c args.hallId hall ∧ WasUser tr c args.userId user
  | .flushBooking hall user price => Priced tr c args hall user price
  | .flushSeats hall user price id | .refresh hall user price id | .reload hall user price id =>
    Priced tr c args hall user price ∧ RowBooks c.shared id args price
  | .send hall user price b _ =>
    Priced tr c args hall user price ∧ RowBooks c.shared b.id args price
  | _ => True

/-- The same for a request that cancels one. -/
def CancelKnows (tr : Trace) (c : Config) (args : CancelArgs) : CancelPc → Prop
  | .select session => WasSession tr c args.userId session
  | .flush _ userEmail hallName | .refresh _ userEmail hallName | .send _ userEmail hallName =>
    Named tr c args userEmail hallName
  | _ => True

/-- The event of a new booking. -/
def Announces (tr : Trace) (c : Config) (args : CreateArgs) (event : BookingEvent) : Prop :=
  ∃ hall user price id, Priced tr c args hall user price ∧ RowBooks c.shared id args price ∧
    event = args.event hall user price id

/-- The event of a cancellation. -/
def Reports (tr : Trace) (c : Config) (args : CancelArgs) (event : BookingEvent) : Prop :=
  ∃ userEmail hallName, Named tr c args userEmail hallName ∧
    event = .bookingCancelled args.bookingId args.userId userEmail hallName

theorem Announces.cons {args : CreateArgs} {event : BookingEvent} (hi : Inv c)
    (h : Announces tr c args event) (hlt : event.bookingId < c.shared.sequences.bookings)
    {a : Action} (hstep : step settings c a = some c') :
    Announces (⟨c, a, c'⟩ :: tr) c' args event := by
  obtain ⟨hall, user, price, id, hpriced, hrow, rfl⟩ := h
  exact ⟨hall, user, price, id, hpriced.cons a c', hrow.step hi hlt hstep, rfl⟩

theorem Reports.cons {args : CancelArgs} {event : BookingEvent} (h : Reports tr c args event)
    {a : Action} (hstep : step settings c a = some c') :
    Reports (⟨c, a, c'⟩ :: tr) c' args event := by
  obtain ⟨userEmail, hallName, hnamed, rfl⟩ := h
  exact ⟨userEmail, hallName, hnamed.cons hstep, rfl⟩

/-! ### Creating -/

/-- A request goes on with the outcome of what it awaits. -/
theorem exists_resume {i : RequestId} {f : Option Fault}
    (hstep : step settings c (actionOf i f) = some c') :
    ∃ (β : Type) (op : Op β) (resume : Except Exc β → Pc) (r : Except Exc β),
      (c.threads i).next settings = .call op resume ∧ c'.threads i = resume r := by
  cases f with
  | none =>
    obtain ⟨β, op, resume, hn, -, -, ht⟩ := step_run hstep
    exact ⟨β, op, resume, _, hn, by rw [ht, Function.update_self]⟩
  | some f =>
    obtain ⟨β, op, resume, e, hn, -, ht⟩ := step_fault hstep
    exact ⟨β, op, resume, _, hn, by rw [ht, Function.update_self]⟩

/-- The price is calculated after the second check for conflicts. -/
theorem priceOf_of_recheck {i : RequestId} {f : Option Fault} {args : CreateArgs}
    {hall hall' : Hall} {user user' : User} {price : Decimal}
    (hstep : step settings c (actionOf i f) = some c')
    (hpc : c.threads i = .create args (.recheck hall user))
    (hpc' : c'.threads i = .create args (.flushBooking hall' user' price)) :
    PriceOf args hall' price := by
  obtain ⟨β, op, resume, r, hn, hr⟩ := exists_resume hstep
  rw [hpc] at hn
  rw [hpc'] at hr
  cases hn
  rcases r with e | seats
  · cases hr
  · simp only [Function.comp_apply, Pc.create.injEq, true_and] at hr
    split_ifs at hr
    cases hduration : args.endTime.sub args.startTime with
    | error e =>
      rw [hduration] at hr
      cases hr
    | ok duration =>
      rw [hduration] at hr
      cases hr
      exact ⟨duration, hduration, rfl⟩

/-- What is known stays known. -/
theorem CreateKnows.cons {r : RequestId} {args : CreateArgs} {pc : CreatePc} (hi : Inv c)
    (hpc : c.threads r = .create args pc) (h : CreateKnows tr c args pc) {a : Action}
    (hstep : step settings c a = some c') : CreateKnows (⟨c, a, c'⟩ :: tr) c' args pc := by
  have hinv := hi.create hpc
  have hrow {id : ℤ} {price : Decimal} {b : Booking} (hb : .insertBooking b ∈ c.shared.writesOf r)
      (hid : b.id = id) (hrow : RowBooks c.shared id args price) :
      RowBooks c'.shared id args price :=
    hrow.step hi (hid ▸ hi.sound.draft_lt r b hb) hstep
  cases pc with
  | selectHall session => exact WasSession.cons h a c'
  | flushBooking hall user price => exact Priced.cons h a c'
  | flushSeats hall user price id =>
    obtain ⟨⟨b, hid, -, hws⟩, -⟩ := hinv
    exact ⟨h.1.cons a c', hrow (by rw [hws]; exact List.mem_singleton_self _) hid h.2⟩
  | refresh hall user price id =>
    obtain ⟨b, hid, -, hb⟩ := hinv.1.mem
    exact ⟨h.1.cons a c', hrow hb hid h.2⟩
  | reload hall user price id =>
    obtain ⟨b, hid, -, hb⟩ := hinv.1.mem
    exact ⟨h.1.cons a c', hrow hb hid h.2⟩
  | send hall user price b bookingSeats =>
    obtain ⟨b', hid, -, hb'⟩ := hinv.1.mem
    exact ⟨h.1.cons a c', hrow hb' hid h.2⟩
  | _ => first | exact ⟨h.1.cons a c', h.2.cons a c'⟩ | trivial

theorem createKnows_step {i : RequestId} {f : Option Fault} {args : CreateArgs} {pc pc' : CreatePc}
    (hi : Inv c) (hstep : step settings c (actionOf i f) = some c')
    (hpc : c.threads i = .create args pc) (h : CreateKnows tr c args pc)
    (hs : CreateStep settings args i f c.shared pc c'.shared pc')
    (hpc' : c'.threads i = .create args pc') :
    CreateKnows (⟨c, actionOf i f, c'⟩ :: tr) c' args pc' := by
  have hinv := hi.create hpc
  have hknows := h.cons hi hpc hstep
  generalize hw : c.shared = w at hs
  generalize hw' : c'.shared = w' at hs
  cases hs with
  | load =>
    rw [← hw, view_of_idle hinv]
    exact (wasSession_load args.userId).cons _ _
  | selectHall hhall =>
    rw [← hw, view_of_idle hinv] at hhall
    obtain ⟨hmem, hid, -⟩ := selectActiveHall_eq_some hhall
    exact ⟨⟨hid, Once.cons (.inl hmem) _ _⟩, hknows⟩
  | selectUser huser hslot =>
    rw [← hw, view_of_idle hinv] at huser
    obtain ⟨hmem, hid⟩ := Table.find?_eq_some_iff.mp huser
    exact ⟨hknows.1, hknows.2.user ⟨hid, Once.cons (.inl hmem) _ _⟩⟩
  | recheck => exact ⟨hknows.1, hknows.2, priceOf_of_recheck hstep hpc hpc'⟩
  | flushBooking hins =>
    subst hw
    exact ⟨hknows, rowBooks_of_inserts hi hpc ⟨_, hins⟩ hstep⟩
  | @reload _ _ _ _ id b hfind =>
    obtain rfl : b.id = id := (Table.find?_eq_some_iff.mp hfind).2
    exact hknows
  | @release _ outcome => cases outcome <;> trivial
  | _ => first | exact hknows | trivial

/-- A request that creates a booking sends one event. -/
theorem sent_of_createStep {i : RequestId} {f : Option Fault} {args : CreateArgs} {w w' : World}
    {pc pc' : CreatePc} (hs : CreateStep settings args i f w pc w' pc') :
    w'.sentBy i = w.sentBy i ∨ ∃ hall user price b bookingSeats,
      pc = .send hall user price b bookingSeats ∧
        w'.sentBy i = w.sentBy i ++ [⟨i, args.event hall user price b.id⟩] := by
  cases hs with
  | send => exact .inr ⟨_, _, _, _, _, rfl, sentBy_publish_self _ _ _⟩
  | sendLost => exact .inr ⟨_, _, _, _, _, rfl, sentBy_publish_self _ _ _⟩
  | _ => exact .inl rfl

/-! ### Cancelling -/

/-- The names are those of the booking that was read, and of its user and its hall. -/
theorem names_of_select {i : RequestId} {f : Option Fault} {args : CancelArgs} {session : Session}
    {b : Booking} {userEmail hallName : String} (hi : Inv c)
    (hstep : step settings c (actionOf i f) = some c')
    (hpc : c.threads i = .cancel args (.select session))
    (hpc' : c'.threads i = .cancel args (.flush b userEmail hallName)) :
    ∃ row owner hall, selectBookingWithOwner args.bookingId c.shared.db = some (row, owner, hall) ∧
      row.userId = args.userId ∧
      userEmail = ((owner.map session.user).map User.email).getD "" ∧
      hallName = (hall.map Hall.name).getD "Unknown" := by
  cases f with
  | none =>
    obtain ⟨β, op, resume, hn, -, -, ht⟩ := step_run hstep
    rw [hpc] at hn
    cases hn
    have hexec : (World.semantics.exec i _ (.execute (selectBookingWithOwner args.bookingId))
        c.shared).1 = .ok (selectBookingWithOwner args.bookingId (c.shared.view i)) := rfl
    obtain ⟨hidle, hkept⟩ : Idle c.shared i ∧ session.Kept c.shared.db := hi.cancel hpc
    rw [ht, Function.update_self, hexec, view_of_idle hidle] at hpc'
    rcases hselect : selectBookingWithOwner args.bookingId c.shared.db with _ | ⟨row, owner, hall⟩
    · rw [hselect] at hpc'
      cases hpc'
    · rw [hselect] at hpc'
      simp only [Function.comp_apply, Pc.cancel.injEq, true_and] at hpc'
      split_ifs at hpc' with hu hs
      cases hpc'
      obtain ⟨row', hfind, hrow⟩ := Option.map_eq_some_iff.mp hselect
      cases hrow
      -- the object of the session has the owner of the row
      have howner := congrArg (·.2.1) (hkept.terms_booking (Table.find?_eq_some_iff.mp hfind).1)
      exact ⟨_, _, _, rfl, howner.symm.trans (not_not.mp hu), rfl, rfl⟩
  | some f =>
    obtain ⟨β, op, resume, e, hn, -, ht⟩ := step_fault hstep
    rw [hpc] at hn
    cases hn
    rw [ht, Function.update_self] at hpc'
    cases hpc'

theorem named_of_select {i : RequestId} {f : Option Fault} {args : CancelArgs} {session : Session}
    {b : Booking} {userEmail hallName : String}
    (hrefs : ∀ b, Row c.shared b → Referenced c.shared.db b) (hi : Inv c)
    (hstep : step settings c (actionOf i f) = some c')
    (hsession : WasSession tr c args.userId session)
    (hpc : c.threads i = .cancel args (.select session))
    (hpc' : c'.threads i = .cancel args (.flush b userEmail hallName)) :
    Named tr c args userEmail hallName := by
  obtain ⟨row, owner, hall, hselect, hu, rfl, rfl⟩ := names_of_select hi hstep hpc hpc'
  obtain ⟨row', hfind, hrow⟩ := Option.map_eq_some_iff.mp hselect
  cases hrow
  obtain ⟨hmem, hid⟩ := Table.find?_eq_some_iff.mp hfind
  -- the user and the hall are found, since the booking refers to them
  obtain ⟨⟨user, huser, huid⟩, hall, hhall, hhid⟩ := hrefs row (.inl hmem)
  have hfindUser : c.shared.db.users.find? row.userId = some user :=
    Table.find?_eq_some_iff.mpr ⟨huser, huid⟩
  have hfindHall : c.shared.db.halls.find? row.hallId = some hall :=
    Table.find?_eq_some_iff.mpr ⟨hhall, hhid⟩
  refine ⟨⟨session.user user, hsession.user ⟨huid.trans hu, .inl huser⟩, ?_⟩, row, hmem, hid, hu,
    hall, ⟨hhid, .inl hhall⟩, ?_⟩
  · rw [hfindUser]
    rfl
  · rw [hfindHall]
    rfl

theorem cancelKnows_step {i : RequestId} {f : Option Fault} {args : CancelArgs} {pc pc' : CancelPc}
    (hrefs : ∀ b, Row c.shared b → Referenced c.shared.db b) (hi : Inv c)
    (hstep : step settings c (actionOf i f) = some c') (hpc : c.threads i = .cancel args pc)
    (h : CancelKnows tr c args pc) (hs : CancelStep args i f c.shared pc c'.shared pc')
    (hpc' : c'.threads i = .cancel args pc') :
    CancelKnows (⟨c, actionOf i f, c'⟩ :: tr) c' args pc' := by
  generalize hw : c.shared = w at hs
  generalize hw' : c'.shared = w' at hs
  cases hs with
  | load =>
    have hidle : Idle c.shared i := hi.cancel hpc
    rw [← hw, view_of_idle hidle]
    exact (wasSession_load args.userId).cons _ _
  | select => exact (named_of_select hrefs hi hstep h hpc hpc').cons hstep
  | flush => exact h.cons hstep
  | refresh => exact h.cons hstep
  | _ => trivial

/-- A request that cancels a booking sends one event. -/
theorem sent_of_cancelStep {i : RequestId} {f : Option Fault} {args : CancelArgs} {w w' : World}
    {pc pc' : CancelPc} (hs : CancelStep args i f w pc w' pc') :
    w'.sentBy i = w.sentBy i ∨ ∃ b userEmail hallName, pc = .send b userEmail hallName ∧
      w'.sentBy i = w.sentBy i ++ [⟨i, .bookingCancelled b.id args.userId userEmail hallName⟩] := by
  cases hs with
  | send => exact .inr ⟨_, _, _, rfl, sentBy_publish_self _ _ _⟩
  | sendLost => exact .inr ⟨_, _, _, rfl, sentBy_publish_self _ _ _⟩
  | _ => exact .inl rfl

/-! ### Runs -/

/-- What is known to a request, and what its events say. -/
def Says (tr : Trace) (c : Config) (r : RequestId) : Pc → Prop
  | .create args pc =>
    CreateKnows tr c args pc ∧ ∀ m ∈ c.shared.sentBy r, Announces tr c args m.event
  | .cancel args pc =>
    CancelKnows tr c args pc ∧ ∀ m ∈ c.shared.sentBy r, Reports tr c args m.event
  | .other _ => True

theorem Says.untouched {r : RequestId} {pc : Pc} (hi : Inv c) (hpc : c.threads r = pc)
    (h : Says tr c r pc) {a : Action} (hstep : step settings c a = some c')
    (hu : Untouched r c.shared c'.shared) : Says (⟨c, a, c'⟩ :: tr) c' r pc := by
  cases pc with
  | create args pc =>
    obtain ⟨hknows, hsent⟩ := h
    refine ⟨hknows.cons hi hpc hstep, fun m hm => ?_⟩
    rw [hu.sent] at hm
    exact (hsent m hm).cons hi (hi.sound.message_lt m (mem_sentBy.mp hm).1) hstep
  | cancel args pc =>
    obtain ⟨hknows, hsent⟩ := h
    refine ⟨?_, fun m hm => ?_⟩
    · cases pc with
      | select session => exact WasSession.cons hknows a c'
      | flush _ _ _ => exact Named.cons hknows hstep
      | refresh _ _ _ => exact Named.cons hknows hstep
      | send _ _ _ => exact Named.cons hknows hstep
      | _ => trivial
    · rw [hu.sent] at hm
      exact (hsent m hm).cons hstep
  | other request => trivial

theorem says_start : ∀ r, Says [] (start requests) r ((start requests).threads r) := by
  intro r
  show Says [] (start requests) r (requests r).start
  cases requests r with
  | createBooking args => exact ⟨trivial, fun m hm => absurd hm List.not_mem_nil⟩
  | cancelBooking args => exact ⟨trivial, fun m hm => absurd hm List.not_mem_nil⟩
  | other request => trivial

theorem says_createStep {i : RequestId} {f : Option Fault} {args : CreateArgs} {pc pc' : CreatePc}
    (hi : Inv c) (hstep : step settings c (actionOf i f) = some c')
    (hpc : c.threads i = .create args pc) (h : Says tr c i (.create args pc))
    (hs : CreateStep settings args i f c.shared pc c'.shared pc')
    (hpc' : c'.threads i = .create args pc') :
    Says (⟨c, actionOf i f, c'⟩ :: tr) c' i (.create args pc') := by
  obtain ⟨hknows, hearlier⟩ := h
  have hkept (m : Message) (hm : m ∈ c.shared.sentBy i) :
      Announces (⟨c, actionOf i f, c'⟩ :: tr) c' args m.event :=
    (hearlier m hm).cons hi (hi.sound.message_lt m (mem_sentBy.mp hm).1) hstep
  refine ⟨createKnows_step hi hstep hpc hknows hs hpc', fun m hm => ?_⟩
  rcases sent_of_createStep hs with hsent | ⟨hall, user, price, b, bookingSeats, rfl, hsent⟩
  · rw [hsent] at hm
    exact hkept m hm
  · rw [hsent, List.mem_append, List.mem_singleton] at hm
    rcases hm with hm | rfl
    · exact hkept m hm
    · obtain ⟨b', hid, -, hb'⟩ := (hi.create hpc).1.mem
      have hlt : b.id < c.shared.sequences.bookings := hid ▸ hi.sound.draft_lt i b' hb'
      exact Announces.cons hi ⟨hall, user, price, b.id, hknows.1, hknows.2, rfl⟩ hlt hstep

theorem says_cancelStep {i : RequestId} {f : Option Fault} {args : CancelArgs} {pc pc' : CancelPc}
    (hrefs : ∀ b, Row c.shared b → Referenced c.shared.db b) (hi : Inv c)
    (hstep : step settings c (actionOf i f) = some c') (hpc : c.threads i = .cancel args pc)
    (h : Says tr c i (.cancel args pc)) (hs : CancelStep args i f c.shared pc c'.shared pc')
    (hpc' : c'.threads i = .cancel args pc') :
    Says (⟨c, actionOf i f, c'⟩ :: tr) c' i (.cancel args pc') := by
  obtain ⟨hknows, hearlier⟩ := h
  refine ⟨cancelKnows_step hrefs hi hstep hpc hknows hs hpc', fun m hm => ?_⟩
  rcases sent_of_cancelStep hs with hsent | ⟨b, userEmail, hallName, rfl, hsent⟩
  · rw [hsent] at hm
    exact (hearlier m hm).cons hstep
  · rw [hsent, List.mem_append, List.mem_singleton] at hm
    rcases hm with hm | rfl
    · exact (hearlier m hm).cons hstep
    · refine Reports.cons ⟨userEmail, hallName, hknows, ?_⟩ hstep
      rw [(hi.cancel hpc).1]

/-- **What the events say.** -/
theorem RunOf.says (h : RunOf settings requests tr c) : ∀ r, Says tr c r (c.threads r) := by
  refine Run.trace_invariant (I := fun tr c => ∀ r, Says tr c r (c.threads r))
    (A := fun _ _ => True) says_start ?_ h fun _ _ => trivial
  intro tr c a c' hrun ih _ hstep
  have hi := RunOf.inv hrun
  have hrefs := RunOf.referenced hrun
  -- a step of the request itself leads to its new control point
  refine fun r => forall_threads hstep
    (Q := fun r pc => c'.threads r = pc → Says (⟨c, a, c'⟩ :: tr) c' r pc) ?_ ?_ ?_ ?_ r rfl
  · exact fun r _ hu _ => (ih r).untouched hi rfl hstep hu
  · rintro i f args pc pc' rfl hpc hs hpc'
    exact says_createStep hi hstep hpc (hpc ▸ ih i) hs hpc'
  · rintro i f args pc pc' rfl hpc hs hpc'
    exact says_cancelStep hrefs hi hstep hpc (hpc ▸ ih i) hs hpc'
  · exact fun _ _ _ _ => trivial

/-- The events of the topic are those of its requests. -/
theorem RunOf.announces_or_reports (h : RunOf settings requests tr c) {m : Message}
    (hm : m ∈ c.shared.topic) :
    (m.event.isCreated ∧
      ∃ args, requests m.sender = .createBooking args ∧ Announces tr c args m.event) ∨
    (m.event.isCreated = false ∧
      ∃ args, requests m.sender = .cancelBooking args ∧ Reports tr c args m.event) := by
  have hsaid := RunOf.says h m.sender
  have hsent : m ∈ c.shared.sentBy m.sender := mem_sentBy.mpr ⟨hm, rfl⟩
  cases hpc : c.threads m.sender with
  | create args pc =>
    rw [hpc] at hsaid
    obtain ⟨hall, user, price, id, hpriced, hrow, hevent⟩ := hsaid.2 m hsent
    refine .inl ⟨by rw [hevent]; rfl, args, (RunOf.create_iff h).mpr ⟨pc, hpc⟩, ?_⟩
    exact ⟨hall, user, price, id, hpriced, hrow, hevent⟩
  | cancel args pc =>
    rw [hpc] at hsaid
    obtain ⟨userEmail, hallName, hnamed, hevent⟩ := hsaid.2 m hsent
    refine .inr ⟨by rw [hevent]; rfl, args, (RunOf.cancel_iff h).mpr ⟨pc, hpc⟩, ?_⟩
    exact ⟨userEmail, hallName, hnamed, hevent⟩
  | other request =>
    rw [((RunOf.inv h).other hpc).2] at hsent
    cases hsent

end BookingApi.Concurrent
