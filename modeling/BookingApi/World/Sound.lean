import BookingApi.World.Frame

/-!
# The invariant of the shared world

`World.Sound` says what holds of the tables, the open transactions and the topic whatever the
requests are doing: ids are handed out once, the rows of a booking hang together, every committed
booking was announced once and every cancelled one was reported, after its announcement.

Each operation has its own lemma (`Sound.stage`, `Sound.publish_created`, `Sound.commit`, ...),
which names what the operation needs from the request that performs it.
-/

namespace BookingApi.World

/-- The announcements of a booking. -/
def announcements (w : World) (id : ℤ) : List Message :=
  w.topic.filter fun m => m.event.isCreated ∧ m.event.bookingId = id

/-- The cancellation of a booking was reported. -/
def Reported (w : World) (id : ℤ) : Prop :=
  ∃ m ∈ w.topic, m.event.isCreated = false ∧ m.event.bookingId = id

/-- A row of `booking_seats` refers to a seat of the hall of its booking. -/
def Linked (seats : List Seat) (b : Booking) (bs : BookingSeat) : Prop :=
  bs.bookingId = b.id ∧ ∃ s ∈ seats, s.id = bs.seatId ∧ s.hallId = b.hallId

theorem Linked.mono {db db' : Db} (hgrows : db.Grows db') {b b' : Booking} {bs : BookingSeat}
    (ht : b'.terms = b.terms) (h : Linked db.seats.rows b bs) : Linked db'.seats.rows b' bs := by
  obtain ⟨hid, s, hs, hsid, hhall⟩ := h
  obtain ⟨s', hs', hp⟩ := Table.exists_of_map_subset hgrows.seats hs
  refine ⟨hid.trans (Booking.id_eq_of_terms ht).symm, s', hs', ?_, ?_⟩
  · exact (Seat.id_eq_of_place hp).trans hsid
  · exact (Seat.hallId_eq_of_place hp).trans (hhall.trans (Booking.hallId_eq_of_terms ht).symm)

structure Sound (w : World) : Prop where
  /-- Bookings have ids that were handed out, committed or not. -/
  booking_lt : ∀ b ∈ w.db.bookings.rows, b.id < w.sequences.bookings
  draft_lt : ∀ r b, .insertBooking b ∈ w.writesOf r → b.id < w.sequences.bookings
  draft_fresh : ∀ r b, .insertBooking b ∈ w.writesOf r → ∀ b' ∈ w.db.bookings.rows, b'.id ≠ b.id
  draft_inj : ∀ r r' b b', .insertBooking b ∈ w.writesOf r → .insertBooking b' ∈ w.writesOf r' →
    b.id = b'.id → r = r'
  /-- So do the seats of bookings. -/
  seat_lt : ∀ bs ∈ w.db.bookingSeats.rows, bs.id < w.sequences.bookingSeats
  draftSeat_lt : ∀ r bs, .insertBookingSeat bs ∈ w.writesOf r → bs.id < w.sequences.bookingSeats
  draftSeat_fresh : ∀ r bs, .insertBookingSeat bs ∈ w.writesOf r →
    ∀ bs' ∈ w.db.bookingSeats.rows, bs'.id ≠ bs.id
  draftSeat_inj : ∀ r r' bs bs', .insertBookingSeat bs ∈ w.writesOf r →
    .insertBookingSeat bs' ∈ w.writesOf r' → bs.id = bs'.id → r = r'
  /-- A row of `booking_seats` belongs to a booking, and its seat to the hall. -/
  linked : ∀ bs ∈ w.db.bookingSeats.rows, ∃ b ∈ w.db.bookings.rows, Linked w.db.seats.rows b bs
  draft_linked : ∀ r bs, .insertBookingSeat bs ∈ w.writesOf r →
    ∃ b, .insertBooking b ∈ w.writesOf r ∧ Linked w.db.seats.rows b bs
  /-- No transaction confirms a booking again. -/
  update_cancelled : ∀ r id status, .updateBooking id status ∈ w.writesOf r → status = .cancelled
  /-- Events carry ids that were handed out, and a draft is only spoken of by its own request. -/
  message_lt : ∀ m ∈ w.topic, m.event.bookingId < w.sequences.bookings
  draft_message : ∀ r b, .insertBooking b ∈ w.writesOf r →
    ∀ m ∈ w.topic, m.event.bookingId = b.id → m.sender = r
  announced : ∀ b ∈ w.db.bookings.rows, (w.announcements b.id).length = 1
  reported : ∀ b ∈ w.db.bookings.rows, b.status = .cancelled → w.Reported b.id
  /-- A cancellation is reported after the announcement of a committed booking. -/
  report_after : ∀ before m after, w.topic = before ++ m :: after → m.event.isCreated = false →
    (∃ b ∈ w.db.bookings.rows, b.id = m.event.bookingId) ∧
      ∃ m' ∈ before, m'.event.isCreated ∧ m'.event.bookingId = m.event.bookingId

theorem sound_initial : initial.Sound := by
  constructor <;> simp [initial, Db.empty, writesOf]

variable {w : World} {r r' : RequestId} {x : Write}

/-- Redis and the clock play no part. -/
theorem Sound.setRedis (h : w.Sound) (redis : Redis) : (w.setRedis redis).Sound := { h with }

theorem Sound.env (h : w.Sound) (e : Env) : (World.env e w).Sound := by
  cases e with
  | expire key => exact h.setRedis _
  | tick micros => exact { h with }

/-! ### Flushes -/

theorem mem_writesOf_stage {ws : List Write} (h : x ∈ (w.stage r ws).writesOf r') :
    x ∈ w.writesOf r' ∨ r' = r ∧ x ∈ ws := by
  by_cases hr : r' = r
  · subst hr
    rw [writesOf_stage_self] at h
    exact (List.mem_append.mp h).imp_right fun h => ⟨rfl, h⟩
  · rw [writesOf_stage_of_ne w hr] at h
    exact .inl h

/-- What a flush of request `r` adds to its transaction: it numbers its rows from the sequences, and
attaches seats to a booking of its own only. -/
structure Stageable (w : World) (r : RequestId) (ws : List Write) (seqs : Sequences) : Prop where
  bookings_le : w.sequences.bookings ≤ seqs.bookings
  seats_le : w.sequences.bookingSeats ≤ seqs.bookingSeats
  booking : ∀ b, .insertBooking b ∈ ws →
    w.sequences.bookings ≤ b.id ∧ b.id < seqs.bookings
  seat : ∀ bs, .insertBookingSeat bs ∈ ws →
    w.sequences.bookingSeats ≤ bs.id ∧ bs.id < seqs.bookingSeats ∧
      ∃ b, .insertBooking b ∈ w.writesOf r ∧ Linked w.db.seats.rows b bs
  update : ∀ id status, .updateBooking id status ∈ ws → status = .cancelled

theorem Sound.stage (h : w.Sound) {ws : List Write} {seqs : Sequences}
    (hs : Stageable w r ws seqs) : ((w.setSequences seqs).stage r ws).Sound := by
  -- a row of some transaction is an old draft, or new and numbered from the old sequence on
  have hdraft {r' b} (hb : .insertBooking b ∈ ((w.setSequences seqs).stage r ws).writesOf r') :
      .insertBooking b ∈ w.writesOf r' ∨ r' = r ∧ w.sequences.bookings ≤ b.id
        ∧ b.id < seqs.bookings :=
    (mem_writesOf_stage hb).imp_right fun ⟨hr, hb⟩ => ⟨hr, hs.booking b hb⟩
  have hseat {r' bs} (hb : .insertBookingSeat bs ∈ ((w.setSequences seqs).stage r ws).writesOf r') :
      .insertBookingSeat bs ∈ w.writesOf r' ∨ r' = r ∧ w.sequences.bookingSeats ≤ bs.id
        ∧ bs.id < seqs.bookingSeats ∧
        ∃ b, .insertBooking b ∈ w.writesOf r ∧ Linked w.db.seats.rows b bs :=
    (mem_writesOf_stage hb).imp_right fun ⟨hr, hb⟩ => ⟨hr, hs.seat bs hb⟩
  -- nothing is taken out of a transaction
  have hmono {r' y} (hy : y ∈ w.writesOf r') :
      y ∈ ((w.setSequences seqs).stage r ws).writesOf r' := by
    by_cases hr : r' = r
    · subst hr
      rw [writesOf_stage_self]
      exact List.mem_append_left _ hy
    · rwa [writesOf_stage_of_ne _ hr]
  constructor
  case booking_lt => exact fun b hb => (h.booking_lt b hb).trans_le hs.bookings_le
  case draft_lt =>
    intro r' b hb
    rcases hdraft hb with hb | ⟨-, -, hb⟩
    · exact (h.draft_lt r' b hb).trans_le hs.bookings_le
    · exact hb
  case draft_fresh =>
    intro r' b hb b' hb'
    rcases hdraft hb with hb | ⟨-, hb, -⟩
    · exact h.draft_fresh r' b hb b' hb'
    · exact ((h.booking_lt b' hb').trans_le hb).ne
  case draft_inj =>
    -- an old draft and a new one have different numbers
    intro r₁ r₂ b₁ b₂ h₁ h₂ hid
    rcases hdraft h₁ with h₁' | ⟨hr₁, h₁', -⟩
    · rcases hdraft h₂ with h₂' | ⟨-, h₂', -⟩
      · exact h.draft_inj r₁ r₂ b₁ b₂ h₁' h₂' hid
      · exact absurd hid ((h.draft_lt r₁ b₁ h₁').trans_le h₂').ne
    · rcases hdraft h₂ with h₂' | ⟨hr₂, -, -⟩
      · exact absurd hid ((h.draft_lt r₂ b₂ h₂').trans_le h₁').ne'
      · exact hr₁.trans hr₂.symm
  case seat_lt => exact fun bs hbs => (h.seat_lt bs hbs).trans_le hs.seats_le
  case draftSeat_lt =>
    intro r' bs hbs
    rcases hseat hbs with hbs | ⟨-, -, hbs, -⟩
    · exact (h.draftSeat_lt r' bs hbs).trans_le hs.seats_le
    · exact hbs
  case draftSeat_fresh =>
    intro r' bs hbs bs' hbs'
    rcases hseat hbs with hbs | ⟨-, hbs, -⟩
    · exact h.draftSeat_fresh r' bs hbs bs' hbs'
    · exact ((h.seat_lt bs' hbs').trans_le hbs).ne
  case draftSeat_inj =>
    intro r₁ r₂ b₁ b₂ h₁ h₂ hid
    rcases hseat h₁ with h₁' | ⟨hr₁, h₁', -⟩
    · rcases hseat h₂ with h₂' | ⟨-, h₂', -⟩
      · exact h.draftSeat_inj r₁ r₂ b₁ b₂ h₁' h₂' hid
      · exact absurd hid ((h.draftSeat_lt r₁ b₁ h₁').trans_le h₂').ne
    · rcases hseat h₂ with h₂' | ⟨hr₂, -, -⟩
      · exact absurd hid ((h.draftSeat_lt r₂ b₂ h₂').trans_le h₁').ne'
      · exact hr₁.trans hr₂.symm
  case linked => exact h.linked
  case draft_linked =>
    intro r' bs hbs
    rcases hseat hbs with hbs | ⟨rfl, -, -, b, hb, hl⟩
    · obtain ⟨b, hb, hl⟩ := h.draft_linked r' bs hbs
      exact ⟨b, hmono hb, hl⟩
    · exact ⟨b, hmono hb, hl⟩
  case update_cancelled =>
    intro r' id status hu
    rcases mem_writesOf_stage hu with hu | ⟨-, hu⟩
    · exact h.update_cancelled r' id status hu
    · exact hs.update id status hu
  case message_lt => exact fun m hm => (h.message_lt m hm).trans_le hs.bookings_le
  case draft_message =>
    intro r' b hb m hm hid
    rcases hdraft hb with hb | ⟨-, hb, -⟩
    · exact h.draft_message r' b hb m hm hid
    · exact absurd hid ((h.message_lt m hm).trans_le hb).ne
  case announced => exact h.announced
  case reported => exact h.reported
  case report_after => exact h.report_after

/-- A flush that raises may use up ids. -/
theorem Sound.setSequences (h : w.Sound) {seqs : Sequences}
    (hb : w.sequences.bookings ≤ seqs.bookings)
    (hs : w.sequences.bookingSeats ≤ seqs.bookingSeats) : (w.setSequences seqs).Sound := by
  have hstage : Stageable w 0 [] seqs := ⟨hb, hs, by simp, by simp, by simp⟩
  simpa [World.stage] using h.stage hstage

/-! ### The end of a transaction -/

theorem mem_writesOf_close (h : x ∈ (w.close r).writesOf r') : x ∈ w.writesOf r' ∧ r' ≠ r := by
  by_cases hr : r' = r
  · subst hr
    simp at h
  · rw [writesOf_close_of_ne w hr] at h
    exact ⟨h, hr⟩

theorem Sound.close (h : w.Sound) (r : RequestId) : (w.close r).Sound := by
  have old {r' y} (hy : y ∈ (w.close r).writesOf r') : y ∈ w.writesOf r' :=
    (mem_writesOf_close hy).1
  exact
    { h with
      draft_lt := fun r' b hb => h.draft_lt r' b (old hb)
      draft_fresh := fun r' b hb => h.draft_fresh r' b (old hb)
      draft_inj := fun r₁ r₂ b₁ b₂ h₁ h₂ => h.draft_inj r₁ r₂ b₁ b₂ (old h₁) (old h₂)
      draftSeat_lt := fun r' bs hbs => h.draftSeat_lt r' bs (old hbs)
      draftSeat_fresh := fun r' bs hbs => h.draftSeat_fresh r' bs (old hbs)
      draftSeat_inj := fun r₁ r₂ b₁ b₂ h₁ h₂ => h.draftSeat_inj r₁ r₂ b₁ b₂ (old h₁) (old h₂)
      draft_linked := by
        intro r' bs hbs
        obtain ⟨hbs, hr⟩ := mem_writesOf_close hbs
        obtain ⟨b, hb, hl⟩ := h.draft_linked r' bs hbs
        exact ⟨b, by rwa [writesOf_close_of_ne w hr], hl⟩
      update_cancelled := fun r' id status hu => h.update_cancelled r' id status (old hu)
      draft_message := fun r' b hb => h.draft_message r' b (old hb) }

/-- What a commit needs of a change: a new booking is confirmed and announced, and the cancellation
of a booking is reported. -/
def Committable (w : World) : Write → Prop
  | .insertBooking b => b.status = .confirmed ∧ (w.announcements b.id).length = 1
  | .updateBooking id _ => w.Reported id
  | _ => True

theorem mem_bookings_commit {b : Booking} (hb : b ∈ (w.commit r).db.bookings.rows) :
    ∃ b₀, (b₀ ∈ w.db.bookings.rows ∨ .insertBooking b₀ ∈ w.writesOf r) ∧ b.terms = b₀.terms ∧
      (b.status = b₀.status ∨ .updateBooking b.id b.status ∈ w.writesOf r) :=
  Db.mem_bookings_applyAll hb

theorem grows_commit : w.db.Grows (w.commit r).db := Db.grows_applyAll _ _

theorem Sound.commit (h : w.Sound) (hw : ∀ x ∈ w.writesOf r, w.Committable x)
    (hnew : ∀ b, .insertBooking b ∈ w.writesOf r →
      ∃ b' ∈ (w.commit r).db.bookings.rows, b'.terms = b.terms) : (w.commit r).Sound := by
  -- a write that is still pending is one of another request
  have old {r' y} (hy : y ∈ (w.commit r).writesOf r') : y ∈ w.writesOf r' ∧ r' ≠ r :=
    mem_writesOf_close hy
  have hgrows : w.db.Grows (w.commit r).db := grows_commit
  have seats {bs} (hbs : bs ∈ (w.commit r).db.bookingSeats.rows) :
      bs ∈ w.db.bookingSeats.rows ∨ .insertBookingSeat bs ∈ w.writesOf r :=
    Db.mem_bookingSeats_applyAll hbs
  constructor
  case booking_lt =>
    intro b hb
    obtain ⟨b₀, hb₀, ht, -⟩ := mem_bookings_commit hb
    rw [Booking.id_eq_of_terms ht]
    exact hb₀.elim (h.booking_lt b₀) (h.draft_lt r b₀)
  case draft_lt => exact fun r' b hb => h.draft_lt r' b (old hb).1
  case draft_fresh =>
    intro r' b hb b' hb' hid
    obtain ⟨hb, hr⟩ := old hb
    obtain ⟨b₀, hb₀ | hb₀, ht, -⟩ := mem_bookings_commit hb' <;>
      rw [Booking.id_eq_of_terms ht] at hid
    · exact h.draft_fresh r' b hb b₀ hb₀ hid
    · -- no two requests draft the same id
      exact hr (h.draft_inj r' r b b₀ hb hb₀ hid.symm)
  case draft_inj => exact fun r₁ r₂ b₁ b₂ h₁ h₂ => h.draft_inj r₁ r₂ b₁ b₂ (old h₁).1 (old h₂).1
  case seat_lt => exact fun bs hbs => (seats hbs).elim (h.seat_lt bs) (h.draftSeat_lt r bs)
  case draftSeat_lt => exact fun r' bs hbs => h.draftSeat_lt r' bs (old hbs).1
  case draftSeat_fresh =>
    intro r' bs hbs bs' hbs' hid
    obtain ⟨hbs, hr⟩ := old hbs
    rcases seats hbs' with hbs' | hbs'
    · exact h.draftSeat_fresh r' bs hbs bs' hbs' hid
    · exact hr (h.draftSeat_inj r' r bs bs' hbs hbs' hid.symm)
  case draftSeat_inj =>
    exact fun r₁ r₂ b₁ b₂ h₁ h₂ => h.draftSeat_inj r₁ r₂ b₁ b₂ (old h₁).1 (old h₂).1
  case linked =>
    intro bs hbs
    rcases seats hbs with hbs | hbs
    · obtain ⟨b, hb, hl⟩ := h.linked bs hbs
      obtain ⟨b', hb', ht⟩ := Table.exists_of_map_subset hgrows.bookings hb
      exact ⟨b', hb', hl.mono hgrows ht⟩
    · obtain ⟨b, hb, hl⟩ := h.draft_linked r bs hbs
      obtain ⟨b', hb', ht⟩ := hnew b hb
      exact ⟨b', hb', hl.mono hgrows ht⟩
  case draft_linked =>
    intro r' bs hbs
    obtain ⟨hbs, hr⟩ := old hbs
    obtain ⟨b, hb, hl⟩ := h.draft_linked r' bs hbs
    exact ⟨b, by rwa [World.commit, writesOf_close_of_ne _ hr], hl.mono hgrows rfl⟩
  case update_cancelled => exact fun r' id status hu => h.update_cancelled r' id status (old hu).1
  case message_lt => exact h.message_lt
  case draft_message => exact fun r' b hb => h.draft_message r' b (old hb).1
  case announced =>
    intro b hb
    obtain ⟨b₀, hb₀, ht, -⟩ := mem_bookings_commit hb
    rw [Booking.id_eq_of_terms ht]
    exact hb₀.elim (h.announced b₀) fun hb₀ => (hw _ hb₀).2
  case reported =>
    intro b hb hs
    obtain ⟨b₀, hb₀, ht, hstatus | hu⟩ := mem_bookings_commit hb
    · -- cancelled before, since a new booking is confirmed
      rw [Booking.id_eq_of_terms ht]
      rw [hstatus] at hs
      refine hb₀.elim (fun hb₀ => h.reported b₀ hb₀ hs) fun hb₀ => ?_
      rw [(hw _ hb₀).1] at hs
      cases hs
    · exact hw _ hu
  case report_after =>
    intro before m after htopic hm
    obtain ⟨⟨b, hb, hid⟩, ha⟩ := h.report_after before m after htopic hm
    obtain ⟨b', hb', ht⟩ := Table.exists_of_map_subset hgrows.bookings hb
    exact ⟨⟨b', hb', (Booking.id_eq_of_terms ht).trans hid⟩, ha⟩

/-! ### Cancelled bookings -/

/-- The booking is committed, and cancelled. -/
def Cancelled (w : World) (id : ℤ) : Prop :=
  ∃ b ∈ w.db.bookings.rows, b.id = id ∧ b.status = .cancelled

/-- A commit does not confirm a booking again. -/
theorem Sound.cancelled_commit (h : w.Sound) {id : ℤ} (hc : w.Cancelled id) :
    (w.commit r).Cancelled id := by
  obtain ⟨b, hb, hid, hs⟩ := hc
  obtain ⟨b', hb', ht⟩ := Table.exists_of_map_subset grows_commit.bookings hb
  refine ⟨b', hb', (Booking.id_eq_of_terms ht).trans hid, ?_⟩
  obtain ⟨b₀, hb₀, ht₀, hstatus | hu⟩ := mem_bookings_commit hb'
  · have hid₀ : b.id = b₀.id := Booking.id_eq_of_terms (ht.symm.trans ht₀)
    rcases hb₀ with hb₀ | hb₀
    · rw [hstatus, ← Table.eq_of_key_eq hb hb₀ hid₀, hs]
    · exact absurd hid₀ (h.draft_fresh r b₀ hb₀ b hb)
  · exact h.update_cancelled r _ _ hu

/-- A booking that is cancelled after a commit was cancelled before, or the commit has changed
it. -/
theorem cancelled_of_commit {id : ℤ} (hc : (w.commit r).Cancelled id)
    (hdraft : ∀ b, .insertBooking b ∈ w.writesOf r → b.status = .confirmed) :
    w.Cancelled id ∨ .updateBooking id .cancelled ∈ w.writesOf r := by
  obtain ⟨b, hb, hid, hs⟩ := hc
  obtain ⟨b₀, hb₀ | hb₀, ht, hstatus | hu⟩ := mem_bookings_commit hb
  · exact .inl ⟨b₀, hb₀, (Booking.id_eq_of_terms ht).symm.trans hid, hstatus.symm.trans hs⟩
  · exact .inr (by rwa [hid, hs] at hu)
  · rw [hstatus, hdraft b₀ hb₀] at hs
    cases hs
  · exact .inr (by rwa [hid, hs] at hu)

/-- The commit of a cancellation cancels the booking. -/
theorem cancelled_commit_self {id : ℤ} (hws : w.writesOf r = [.updateBooking id .cancelled])
    {b : Booking} (hb : b ∈ w.db.bookings.rows) (hid : b.id = id) :
    (w.commit r).Cancelled id := by
  refine ⟨{ b with status := .cancelled }, ?_, hid, rfl⟩
  show _ ∈ (w.db.applyAll (w.writesOf r)).bookings.rows
  rw [hws, Db.applyAll_cons, Db.applyAll_nil, Write.apply, Table.mem_modify]
  exact ⟨b, hb, by rw [if_pos (show Keyed.key b = id from hid)]⟩

theorem Sound.cancelled_exec (h : w.Sound) {id : ℤ} (hc : w.Cancelled id) {β : Type} (op : Op β) :
    (exec r β op w).2.Cancelled id := by
  cases op with
  | flush statement => rwa [Cancelled, db_exec_flush]
  | commit => exact h.cancelled_commit hc
  | _ => exact hc

/-- The seats of a committed booking stay as they are. -/
theorem Sound.seatsOf_exec (h : w.Sound) {b : Booking} (hb : b ∈ w.db.bookings.rows) {β : Type}
    (op : Op β) : (exec r β op w).2.db.seatsOf b.id = w.db.seatsOf b.id := by
  cases op with
  | flush statement => rw [db_exec_flush]
  | commit =>
    -- a transaction attaches seats to its own drafts only
    refine Db.seatsOf_applyAll fun bs hbs hid => ?_
    obtain ⟨b', hb', hid', -⟩ := h.draft_linked r bs hbs
    exact h.draft_fresh r b' hb' b hb (hid.symm.trans hid')
  | _ => rfl

/-! ### Events -/

theorem announcements_publish_of_ne {event : BookingEvent} {id : ℤ} (h : event.bookingId ≠ id) :
    (w.publish r event).announcements id = w.announcements id := by
  simp [announcements, publish, h]

/-- Splitting a list at one of its elements, when an element is appended. -/
theorem eq_append_singleton_split {α : Type*} {l before after : List α} {a m : α}
    (h : l ++ [a] = before ++ m :: after) :
    (m = a ∧ before = l ∧ after = []) ∨ ∃ rest, after = rest ++ [a] ∧ l = before ++ m :: rest := by
  rcases List.eq_nil_or_concat after with rfl | ⟨rest, y, rfl⟩
  · obtain ⟨h1, h2⟩ := List.append_inj' h rfl
    exact .inl ⟨(List.singleton_inj.mp h2).symm, h1.symm, rfl⟩
  · right
    rw [List.concat_eq_append, ← List.cons_append, ← List.append_assoc] at h
    obtain ⟨h1, h2⟩ := List.append_inj' h rfl
    exact ⟨rest, by rw [List.concat_eq_append, List.singleton_inj.mp h2], h1⟩

/-- What an event needs: its id was handed out, drafts of other requests are not spoken of, no
committed booking is announced again, and a report comes after the announcement. -/
theorem Sound.publish (h : w.Sound) {event : BookingEvent}
    (hlt : event.bookingId < w.sequences.bookings)
    (hdraft : ∀ r' b, .insertBooking b ∈ w.writesOf r' → event.bookingId = b.id → r = r')
    (hannounced : ∀ b ∈ w.db.bookings.rows,
      (w.publish r event).announcements b.id = w.announcements b.id)
    (hreport : event.isCreated = false → (∃ b ∈ w.db.bookings.rows, b.id = event.bookingId) ∧
      ∃ m ∈ w.topic, m.event.isCreated ∧ m.event.bookingId = event.bookingId) :
    (w.publish r event).Sound := by
  refine
    { h with
      message_lt := ?message_lt
      draft_message := ?draft_message
      announced := ?announced
      reported := ?reported
      report_after := ?report_after }
  case message_lt =>
    intro m hm
    rcases List.mem_append.mp hm with hm | hm
    · exact h.message_lt m hm
    · rw [List.mem_singleton.mp hm]
      exact hlt
  case draft_message =>
    intro r' b hb m hm hid
    rcases List.mem_append.mp hm with hm | hm
    · exact h.draft_message r' b hb m hm hid
    · rw [List.mem_singleton.mp hm] at hid ⊢
      exact hdraft r' b hb hid
  case announced =>
    intro b hb
    rw [hannounced b hb]
    exact h.announced b hb
  case reported =>
    intro b hb hs
    obtain ⟨m, hm, hm'⟩ := h.reported b hb hs
    exact ⟨m, List.mem_append_left _ hm, hm'⟩
  case report_after =>
    intro before m after htopic hm
    rcases eq_append_singleton_split htopic with ⟨rfl, rfl, -⟩ | ⟨rest, -, htopic⟩
    · exact hreport hm
    · exact h.report_after before m rest htopic hm

/-- The announcement of a draft by its own request. -/
theorem Sound.publish_created (h : w.Sound) {event : BookingEvent} {b : Booking}
    (hb : .insertBooking b ∈ w.writesOf r) (hid : event.bookingId = b.id)
    (hc : event.isCreated) : (w.publish r event).Sound := by
  refine h.publish ?_ ?_ ?_ ?_
  · rw [hid]
    exact h.draft_lt r b hb
  · exact fun r' b' hb' hid' => h.draft_inj r r' b b' hb hb' (hid.symm.trans hid')
  · intro b' hb'
    have hne : b'.id ≠ b.id := h.draft_fresh r b hb b' hb'
    exact announcements_publish_of_ne (hid ▸ hne.symm)
  · intro hm
    rw [hc] at hm
    cases hm

/-- The report that a committed booking is cancelled. -/
theorem Sound.publish_cancelled (h : w.Sound) {event : BookingEvent} {b : Booking}
    (hb : b ∈ w.db.bookings.rows) (hid : event.bookingId = b.id) (hc : event.isCreated = false) :
    (w.publish r event).Sound := by
  refine h.publish ?_ ?_ ?_ ?_
  · rw [hid]
    exact h.booking_lt b hb
  · intro r' b' hb' hid'
    have hne : b.id ≠ b'.id := h.draft_fresh r' b' hb' b hb
    exact absurd (hid.symm.trans hid') hne
  · intro b' _
    simp [announcements, World.publish, hc]
  · intro _
    refine ⟨⟨b, hb, hid.symm⟩, ?_⟩
    -- a committed booking has its announcement
    obtain ⟨m, hm⟩ := List.length_eq_one_iff.mp (h.announced b hb)
    have hmem : m ∈ w.announcements b.id := by
      rw [hm]
      exact List.mem_singleton_self _
    unfold announcements at hmem
    rw [List.mem_filter, decide_eq_true_eq] at hmem
    obtain ⟨hm, hcreated, hmid⟩ := hmem
    exact ⟨m, hm, hcreated, hmid.trans hid.symm⟩

end BookingApi.World
