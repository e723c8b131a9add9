import BookingApi.Serial.Operations

/-!
# The seat-time occupancy

`occ` maps a seat and an instant to the confirmed booking that covers them.  Serial runs keep
`Orderly`: no two bookings clash, their intervals are not empty, and no lock is left behind.  So the
checks of a request to create a booking pass exactly if it is `Bookable`, which says that its cells
are vacant (`bookable_iff_passes`).  `occ_refined` says what every move does to the occupancy.
-/

namespace BookingApi.Serial

open Async BookingService Concurrent World

variable {settings : Settings} {w : World} {moves : List Move}

/-- The confirmed booking that covers a seat at an instant. -/
noncomputable def occ (db : Db) (seatId : ℤ) (t : Instant) : Option ℤ :=
  db.ledger.occupancy seatId t

/-- The request asks for active seats of an active hall that are vacant for the whole slot. -/
structure Bookable (settings : Settings) (args : CreateArgs) (db : Db) : Prop where
  user : ∃ u ∈ db.users.rows, u.id = args.userId
  hall : db.HallActive args.hallId
  slot : validateTimeSlot settings args.startTime args.endTime = .ok ()
  nodup : args.seatIds.Nodup
  seats : ∀ seatId ∈ args.seatIds, ∃ s ∈ db.seats.rows,
    s.id = seatId ∧ s.hallId = args.hallId ∧ s.isActive = true
  vacant : ∀ seatId ∈ args.seatIds, ∀ t, args.startTime.instant ≤ t → t < args.endTime.instant →
    occ db seatId t = none

theorem Bookable.lt {args : CreateArgs} (h : Bookable settings args w.db) :
    args.startTime.instant < args.endTime.instant :=
  (validateTimeSlot_eq_ok_iff.mp h.slot).2.1

theorem Bookable.claim_vacant {args : CreateArgs} (h : Bookable settings args w.db) :
    w.db.ledger.Vacant args.claim :=
  fun s t ⟨hs, h1, h2⟩ => h.vacant s hs t h1 h2

/-! ### The invariant of serial runs -/

structure Orderly (w : World) : Prop where
  clashFree : w.db.ledger.ClashFree
  proper : w.db.ledger.Proper

theorem orderly_initial : Orderly .initial := ⟨nofun, nofun⟩

/-- Vacancy of the cells is the absence of a clash. -/
theorem Orderly.vacant_iff (h : Orderly w) {args : CreateArgs}
    (hslot : args.startTime.instant < args.endTime.instant) :
    w.db.ledger.Vacant args.claim ↔
      ∀ id res, w.db.ledger id = some res → ¬ res.Clash args.claim :=
  Ledger.vacant_iff_forall_not_clash h.proper hslot

/-- **The checks of the service** pass exactly for the requests that are bookable. -/
theorem bookable_iff_passes (hw : w.Sound) (h : Orderly w) {args : CreateArgs} :
    Bookable settings args w.db ↔ ∃ hall user, Passes settings args w.db hall user := by
  have hvacant : w.db.ledger.Vacant args.claim ↔ ∀ seatId ∈ args.seatIds, ∀ t,
      args.startTime.instant ≤ t → t < args.endTime.instant → occ w.db seatId t = none :=
    ⟨fun hv s hs t h1 h2 => hv s t ⟨hs, h1, h2⟩, fun hv s t ⟨hs, h1, h2⟩ => hv s hs t h1 h2⟩
  have hconflicts (hslot : validateTimeSlot settings args.startTime args.endTime = .ok ())
      (hseats : ∀ seatId ∈ args.seatIds, ∃ s ∈ w.db.seats.rows,
        s.id = seatId ∧ s.hallId = args.hallId ∧ s.isActive = true) :
      w.db.ledger.Vacant args.claim ↔ selectConflictingSeats args.hallId args.seatIds
        args.startTime.instant args.endTime.instant none w.db = [] := by
    rw [h.vacant_iff (validateTimeSlot_eq_ok_iff.mp hslot).2.1,
      Db.selectConflictingSeats_eq_nil_iff_ledger hw.linked fun seatId hs =>
        (hseats seatId hs).imp fun s hs => ⟨hs.1, hs.2.1, hs.2.2.1⟩]
    rfl
  constructor
  · rintro ⟨⟨user, huser, huid⟩, hhall, hslot, hnodup, hseats, hv⟩
    obtain ⟨hall, hhall⟩ := exists_selectActiveHall hhall
    exact ⟨hall, user, hhall, Table.find?_eq_some_iff.mpr ⟨huser, huid⟩, hslot,
      length_selectActiveSeats_eq_iff.mpr ⟨hnodup, hseats⟩,
      (hconflicts hslot hseats).mp (hvacant.mpr hv)⟩
  · rintro ⟨hall, user, hp⟩
    obtain ⟨hnodup, hseats⟩ := length_selectActiveSeats_eq_iff.mp hp.seats
    exact ⟨⟨user, Table.find?_eq_some_iff.mp hp.user⟩, ⟨hall, selectActiveHall_eq_some hp.hall⟩,
      hp.slot, hnodup, hseats, hvacant.mp ((hconflicts hp.slot hseats).mpr hp.conflicts)⟩

/-! ### What the operations do to the ledger -/

/-- A new booking enters the claim of its request. -/
theorem ledger_newWrites (hw : w.Sound) (args : CreateArgs) (hall : Hall) :
    (w.db.applyAll (newWrites args hall w)).ledger
        = w.db.ledger.enter (newBooking args hall w).id args.claim ∧
      w.db.ledger (newBooking args hall w).id = none := by
  obtain ⟨hrows, hseats⟩ := applyAll_newWrites hw args hall
  constructor
  · refine Db.ledger_newBooking hrows (fun b hb => seatsOf_newWrites hw args hall hb) ?_ rfl
    rw [hseats, newSeats, map_seatId_bookingSeatRows]
  · rw [Option.eq_none_iff_forall_ne_some]
    intro res hres
    obtain ⟨b, hb, hid, -⟩ := Db.ledger_eq_some_iff.mp hres
    exact (newBooking_fresh hw args hall).1 b hb hid

/-- What a move does to the ledger. -/
inductive LedgerMove (settings : Settings) (moves : List Move) : Move → Prop
  | entered {args : CreateArgs} {a : BookingResponse} :
      answer settings moves (args.program settings) = .ok a →
      Bookable settings args (run settings moves).db →
      (run settings moves).db.ledger a.id = none →
      (run settings (.serve (.createBooking args) :: moves)).db.ledger
        = (run settings moves).db.ledger.enter a.id args.claim →
      LedgerMove settings moves (.serve (.createBooking args))
  | struck {args : CancelArgs} :
      answer settings moves args.program = .ok () →
      (run settings (.serve (.cancelBooking args) :: moves)).db.ledger
        = (run settings moves).db.ledger.strike args.bookingId →
      LedgerMove settings moves (.serve (.cancelBooking args))
  | kept {move : Move} : ¬ Books settings moves move →
      (run settings (move :: moves)).db.ledger = (run settings moves).db.ledger →
      LedgerMove settings moves move

theorem ledgerMove (h : Orderly (run settings moves)) (move : Move) :
    LedgerMove settings moves move := by
  have hw : (run settings moves).Sound := sound_run moves
  cases moveStep moves move with
  | @created args hall user a hp ha hanswer hdb =>
    obtain ⟨henter, hnone⟩ := ledger_newWrites hw args hall
    have hid : a.id = (newBooking args hall (run settings moves)).id :=
      id_of_bookingResponse hanswer
    rw [← hid] at henter hnone
    exact .entered ha ((bookable_iff_passes hw h).mpr ⟨hall, user, hp⟩) hnone (hdb ▸ henter)
  | cancelled hc ha hdb => exact .struck ha (by rw [hdb, Db.ledger_updateBooking])
  | kept hnot hb hs => exact .kept hnot (Db.ledger_congr hb hs)

/-- No serial run double-books a seat. -/
theorem orderly_run (moves : List Move) : Orderly (run settings moves) := by
  induction moves with
  | nil => exact orderly_initial
  | cons move moves ih =>
    cases ledgerMove ih move with
    | entered _ hb _ hl =>
      have hclash := (ih.vacant_iff hb.lt).mp hb.claim_vacant
      exact ⟨hl ▸ ih.clashFree.enter hclash, hl ▸ ih.proper.enter hb.lt⟩
    | struck _ hl => exact ⟨hl ▸ ih.clashFree.strike, hl ▸ ih.proper.strike⟩
    | kept _ hl => exact ⟨hl ▸ ih.clashFree, hl ▸ ih.proper⟩

/-! ### The refinement -/

/-- The confirmed booking covers the seat at the instant. -/
def CoveredBy (db : Db) (seatId : ℤ) (t : Instant) (b : Booking) : Prop :=
  b ∈ db.bookings.rows ∧ b.status = .confirmed ∧ (db.reservation b).Covers seatId t

theorem occ_eq_some_iff (h : Orderly w) {seatId id : ℤ} {t : Instant} :
    occ w.db seatId t = some id ↔ ∃ b, CoveredBy w.db seatId t b ∧ b.id = id := by
  rw [occ, Ledger.occupancy_eq_some_iff h.clashFree h.proper]
  constructor
  · rintro ⟨res, hres, hc⟩
    obtain ⟨b, hb, hid, hs, rfl⟩ := Db.ledger_eq_some_iff.mp hres
    exact ⟨b, ⟨hb, hs, hc⟩, hid⟩
  · rintro ⟨b, ⟨hb, hs, hc⟩, hid⟩
    exact ⟨_, Db.ledger_eq_some_iff.mpr ⟨b, hb, hid, hs, rfl⟩, hc⟩

theorem coveredBy_unique (h : Orderly w) {seatId : ℤ} {t : Instant} {b b' : Booking}
    (hb : CoveredBy w.db seatId t b) (hb' : CoveredBy w.db seatId t b') : b = b' := by
  have hocc := (occ_eq_some_iff h).mpr ⟨b, hb, rfl⟩
  obtain ⟨b'', hb'', hid⟩ := (occ_eq_some_iff h).mp hocc
  have hid' : b'.id = b.id := by
    have hocc' := (occ_eq_some_iff h).mpr ⟨b', hb', rfl⟩
    exact Option.some.inj (hocc'.symm.trans hocc)
  exact Table.eq_of_key_eq hb.1 hb'.1 hid'.symm

/-- The seats of a booking belong to its hall. -/
theorem exists_seat_of_mem_seatsOf (hw : w.Sound) {b : Booking} (hb : b ∈ w.db.bookings.rows)
    {bs : BookingSeat} (hbs : bs ∈ w.db.seatsOf b.id) :
    ∃ s ∈ w.db.seats.rows, s.id = bs.seatId ∧ s.hallId = b.hallId := by
  rw [Db.seatsOf, List.mem_filter, decide_eq_true_eq] at hbs
  obtain ⟨b', hb', hid, hs⟩ := hw.linked bs hbs.1
  obtain rfl : b = b' := Table.eq_of_key_eq hb hb' (hbs.2.symm.trans hid)
  exact hs

/-- A booking whose price fits its column is made exactly if it is bookable. -/
theorem createBooking_iff (args : CreateArgs)
    (hfits : ∀ hall ∈ (run settings moves).db.halls.rows, hall.id = args.hallId →
      FitsNumeric (price args hall).toHundredths) :
    (∃ a, answer settings moves (args.program settings) = .ok a) ↔
      Bookable settings args (run settings moves).db := by
  rw [bookable_iff_passes (sound_run moves) (orderly_run moves)]
  rcases serve_createBooking_cases settings args (writesOf_run moves moves.length) (sound_run moves)
    (unlocked_run moves _ _) with ⟨e, hres, -, -, hnot⟩ | ⟨hall, user, a, hp, -, hres, -, -⟩
  · constructor
    · rintro ⟨a, ha⟩
      rw [answer, hres] at ha
      cases ha
    · rintro ⟨hall, user, hp⟩
      obtain ⟨hhall, hid, -⟩ := selectActiveHall_eq_some hp.hall
      exact absurd (hfits hall hhall hid) (hnot hall user hp)
  · exact iff_of_true ⟨a, hres⟩ ⟨hall, user, hp⟩

/-- It takes up its cells, and no others. -/
theorem occ_createBooking {args : CreateArgs} {a : BookingResponse}
    (ha : answer settings moves (args.program settings) = .ok a) (seatId : ℤ) (t : Instant) :
    occ (run settings (.serve (.createBooking args) :: moves)).db seatId t
      = if seatId ∈ args.seatIds ∧ args.startTime.instant ≤ t ∧ t < args.endTime.instant
        then some a.id else occ (run settings moves).db seatId t := by
  have h : Orderly (run settings moves) := orderly_run moves
  cases ledgerMove h (.serve (.createBooking args)) with
  | entered ha' hb hnone hl =>
    obtain rfl := Except.ok.inj (ha'.symm.trans ha)
    classical
    rw [occ, hl, Ledger.occupancy_enter h.clashFree h.proper hnone hb.lt hb.claim_vacant]
    exact if_congr Iff.rfl rfl rfl
  | kept hnot => exact absurd ⟨a, ha⟩ hnot

/-- A cancellation frees the cells of its booking, and no others. -/
theorem occ_cancelBooking {args : CancelArgs} (ha : answer settings moves args.program = .ok ())
    (seatId : ℤ) (t : Instant) :
    occ (run settings (.serve (.cancelBooking args) :: moves)).db seatId t
      = if occ (run settings moves).db seatId t = some args.bookingId then none
        else occ (run settings moves).db seatId t := by
  have h : Orderly (run settings moves) := orderly_run moves
  cases ledgerMove h (.serve (.cancelBooking args)) with
  | struck _ hl => rw [occ, hl, Ledger.occupancy_strike h.clashFree h.proper, occ]
  | kept hnot => exact absurd ha hnot

/-- Every other move leaves the occupancy as it is. -/
theorem occ_of_not_books {move : Move} (hnot : ¬ Books settings moves move) (seatId : ℤ)
    (t : Instant) : occ (run settings (move :: moves)).db seatId t
      = occ (run settings moves).db seatId t := by
  cases ledgerMove (orderly_run moves) move with
  | entered ha => exact absurd ⟨_, ha⟩ hnot
  | struck ha => exact absurd ha hnot
  | kept _ hl => rw [occ, hl, occ]

/-- **The bookings refine the occupancy map.**  After every serial run:

1. at most one confirmed booking covers a cell, and it is the occupant, and the seats of every
   booking belong to its hall;
2. a request to create a booking whose price fits its column succeeds exactly if it is bookable, and
   then it takes up its cells and no others;
3. a cancellation that succeeds frees the cells of its booking and no others;
4. no other move, and no request that fails, changes the occupancy. -/
theorem occ_refined (settings : Settings) (moves : List Move) :
    ((∀ seatId t b b', CoveredBy (run settings moves).db seatId t b →
        CoveredBy (run settings moves).db seatId t b' → b = b') ∧
      (∀ seatId t id, occ (run settings moves).db seatId t = some id ↔
        ∃ b, CoveredBy (run settings moves).db seatId t b ∧ b.id = id) ∧
      ∀ b ∈ (run settings moves).db.bookings.rows, ∀ bs ∈ (run settings moves).db.seatsOf b.id,
        ∃ s ∈ (run settings moves).db.seats.rows, s.id = bs.seatId ∧ s.hallId = b.hallId) ∧
    (∀ args : CreateArgs,
      ((∀ hall ∈ (run settings moves).db.halls.rows, hall.id = args.hallId →
          FitsNumeric (price args hall).toHundredths) →
        ((∃ a, answer settings moves (args.program settings) = .ok a) ↔
          Bookable settings args (run settings moves).db)) ∧
      ∀ a, answer settings moves (args.program settings) = .ok a → ∀ seatId t,
        occ (run settings (.serve (.createBooking args) :: moves)).db seatId t
          = if seatId ∈ args.seatIds ∧ args.startTime.instant ≤ t ∧ t < args.endTime.instant
            then some a.id else occ (run settings moves).db seatId t) ∧
    (∀ args : CancelArgs, answer settings moves args.program = .ok () → ∀ seatId t,
      occ (run settings (.serve (.cancelBooking args) :: moves)).db seatId t
        = if occ (run settings moves).db seatId t = some args.bookingId then none
          else occ (run settings moves).db seatId t) ∧
    ∀ move, ¬ Books settings moves move → ∀ seatId t,
      occ (run settings (move :: moves)).db seatId t = occ (run settings moves).db seatId t := by
  have ho : Orderly (run settings moves) := orderly_run moves
  refine ⟨⟨?_, ?_, ?_⟩, ?_, ?_, ?_⟩
  · exact fun _ _ _ _ => coveredBy_unique ho
  · exact fun _ _ _ => occ_eq_some_iff ho
  · exact fun _ hb _ => exists_seat_of_mem_seatsOf (sound_run moves) hb
  · exact fun args => ⟨createBooking_iff args, fun _ => occ_createBooking⟩
  · exact fun _ => occ_cancelBooking
  · exact fun _ => occ_of_not_books

/-! ### A small installation -/

open Concurrent.Scenario (hallBody booking oclock)

/-- A user, a hall and its two seats, the latest first. -/
def installation : List Move :=
  [.serve (.bulkCreateSeats 1 1 2), .serve (.createHall hallBody),
    .serve (.signup id "ann@example.com" "secret")]

/-- The answer to the first booking. -/
def booked : BookingResponse :=
  ⟨1, 1, 1, "Red", [⟨1, 1, 1⟩], (oclock 10).instant, (oclock 12).instant, 2000, .confirmed, 0⟩

theorem answer_booking : answer BookingApi.settings installation
    (booking.program BookingApi.settings) = .ok booked := by
  decide +kernel

/-- A booking takes up its seat from its start on. -/
theorem occ_refined_booking :
    occ (run BookingApi.settings (.serve (.createBooking booking) :: installation)).db 1
      (oclock 10).instant = some 1 := by
  have hocc := ((occ_refined BookingApi.settings installation).2.1 booking).2 booked answer_booking
    1 (oclock 10).instant
  rw [hocc, if_pos (by decide)]
  rfl

end BookingApi.Serial
