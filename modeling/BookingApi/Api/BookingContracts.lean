import BookingApi.Api.HallContracts
import BookingApi.BookingService.Response

/-!
# Bookings under interference

What the booking service ensures while other requests run.  The rows that `create_booking` inserts
are its own until the commit (`seatsOf_view_of_newBooking`), whatever else is committed meanwhile,
and the foreign keys make sure that an answer about a booking finds all its seats.
-/

namespace BookingApi.Api

open Async BookingService

variable {faults : Faults} {r : RequestId} {E : Failures} {α : Type} {w : World}

/-! ### Answers about a booking -/

/-- A booking that was loaded is there, with its seats. -/
def LoadedRecorded (b : LoadedBooking) (db : Db) : Prop :=
  db.Records (.bookings, b.booking.id) (.booking b.booking) ∧
    ∀ bs ∈ b.bookingSeats, db.Records (.bookingSeats, bs.id) (.bookingSeat bs) ∧
      bs.bookingId = b.booking.id ∧ db.row (.seats, bs.seatId) ≠ none

theorem lasting_loadedRecorded (b : LoadedBooking) : Lasting (LoadedRecorded b) :=
  .and (lasting_records _ _) (.forall_mem fun _ => .and (lasting_records _ _)
    (.and (lasting_const _) fun _ _ hlater h => hlater.row_ne_none h))

/-- The foreign keys keep the seats of every booking. -/
theorem loadedRecorded_of_records {db : Db} (hvalid : schema.Valid db.row) {b : Booking}
    (hb : db.Records (.bookings, b.id) (.booking b)) (hall : Option Hall) :
    LoadedRecorded ⟨b, hall, db.seatsOf b.id⟩ db := by
  refine ⟨hb, fun bs hbs => ?_⟩
  obtain ⟨hmem, hid⟩ := List.mem_filter.mp hbs
  have hrow : db.row (.bookingSeats, bs.id) = some (.bookingSeat bs) :=
    Db.row_bookingSeats_eq_some.mpr (Table.find?_eq_some_iff.mpr ⟨hmem, rfl⟩)
  exact ⟨Db.records_of_row hrow, of_decide_eq_true hid,
    hvalid.closed hrow (List.mem_cons_of_mem _ (List.mem_cons_self ..))⟩

theorem bookingRecorded_of_bookingResponse {db : Db} {b : LoadedBooking}
    {response : BookingResponse} (hb : LoadedRecorded b db)
    (h : bookingResponse b (selectSeatsOf b db) = .ok response) : BookingRecorded response db := by
  obtain ⟨items, hitems, rfl⟩ := bookingResponse_eq_ok h
  refine ⟨⟨b.booking, hb.1, rfl, rfl, rfl, rfl, rfl⟩, fun item hitem => ?_⟩
  obtain ⟨s, hs, hid, hrow, hnumber⟩ := (seatResponses_spec hitems).2 item hitem
  refine ⟨s, ?_, hrow, hnumber⟩
  rw [← hid]
  exact seatRecorded_of_find? (Table.find?_eq_some_iff.mpr ⟨(List.mem_filter.mp hs).1, rfl⟩)

theorem meets_buildBookingResponse {ok : BookingResponse → World → Prop} {b : LoadedBooking}
    (hb : LoadedRecorded b (w.view r))
    (hok : ∀ response t, Rely r w t → LoadedRecorded b (t.view r) →
      bookingResponse b (selectSeatsOf b (t.view r)) = .ok response → Stably r (ok response) t) :
    Meets faults r E ok (buildBookingResponse b) w := by
  refine meets_execute_bind fun t hrely ht => ?_
  have hb' := lasting_loadedRecorded b hrely.later_view hb
  have hseats : ∀ bs ∈ b.bookingSeats, ∃ s ∈ (t.view r).seats.rows, s.id = bs.seatId := by
    intro bs hbs
    obtain ⟨s, hs⟩ := Db.row_seats_ne_none.mp (hb'.2 bs hbs).2.2
    exact ⟨s, Table.find?_eq_some_iff.mp hs⟩
  obtain ⟨response, hresponse⟩ := exists_bookingResponse hseats
  rw [hresponse]
  exact meets_ret (hok response t hrely hb' hresponse)

/-! ### Reading bookings -/

/-- The object for a row, with the seats of the row. -/
theorem loadedRecorded_of_mem {db : Db} (hvalid : schema.Valid db.row) {session : Session}
    (hsession : SessionRecorded session db) {b : Booking} (hb : b ∈ db.bookings.rows)
    (hall : Option Hall) : LoadedRecorded ⟨session.booking b, hall, db.seatsOf b.id⟩ db := by
  have hrecords := hsession.booking hb
  rw [← session.id_booking b] at hrecords ⊢
  exact loadedRecorded_of_records hvalid hrecords hall

theorem meets_getBookingRoute {session : Session} (hsession : SessionRecorded session (w.view r))
    (bookingId userId : ℤ) :
    Meets faults r (.among [.bookingNotFound])
      (fun booking t => booking.id = bookingId ∧ BookingRecorded booking (t.view r))
      (getBookingRoute session bookingId userId) w := by
  refine .bind (meets_execute_bind fun t hrely₀ ht => ?_)
  cases hfind : (t.view r).bookings.rows.find? fun b =>
      b.id = bookingId ∧ (some userId = none ∨ some userId = some b.userId) with
  | none =>
    rw [Option.map_none]
    exact meets_raise (List.mem_cons_self ..)
  | some b =>
    have hfound := List.find?_some hfind
    obtain rfl : b.id = bookingId := (of_decide_eq_true hfound).1
    have hloaded := loadedRecorded_of_mem (valid_view ht r)
      (lasting_sessionRecorded session hrely₀.later_view hsession)
      (List.mem_of_find?_eq_some hfind) ((t.view r).halls.find? b.hallId)
    rw [Option.map_some]
    refine meets_ret fun t' hrely _ => meets_buildBookingResponse
      (lasting_loadedRecorded _ hrely.later_view hloaded) fun response t'' _ hloaded' ha => ?_
    have hrecorded := bookingRecorded_of_bookingResponse hloaded' ha
    obtain ⟨items, -, rfl⟩ := bookingResponse_eq_ok ha
    exact Lasting.stably (.and (lasting_const _) (lasting_bookingRecorded _))
      ⟨session.id_booking b, hrecorded⟩

theorem meets_buildBookingResponses {ok : List BookingResponse → World → Prop}
    {bookings : List LoadedBooking} (hb : ∀ b ∈ bookings, LoadedRecorded b (w.view r))
    (hok : ∀ items t, Rely r w t → (∀ item ∈ items, BookingRecorded item (t.view r)) →
      Stably r (ok items) t) : Meets faults r E ok (buildBookingResponses bookings) w := by
  induction bookings generalizing w ok with
  | nil => exact meets_ret (hok [] w (.refl r w) fun _ h => absurd h List.not_mem_nil)
  | cons b bookings ih =>
    refine .bind (meets_buildBookingResponse (hb b (List.mem_cons_self ..))
      fun item t hrely hloaded ha => Meets.stably ?_)
    have hitem := bookingRecorded_of_bookingResponse hloaded ha
    refine .bind (ih (fun b' hb' => ?_) fun items t' hrely' hitems => Meets.stably ?_)
    · exact lasting_loadedRecorded _ hrely.later_view (hb b' (List.mem_cons_of_mem _ hb'))
    · refine meets_ret (hok _ t' (hrely.trans hrely') fun item' hitem' => ?_)
      rcases List.mem_cons.mp hitem' with rfl | hitem'
      · exact lasting_bookingRecorded _ hrely'.later_view hitem
      · exact hitems item' hitem'

theorem meets_listBookingsRoute {session : Session} (hsession : SessionRecorded session (w.view r))
    (userId : ℤ) (pagination : PaginationParams) :
    Meets faults r E (fun page t => ∀ booking ∈ page.items, BookingRecorded booking (t.view r))
      (listBookingsRoute session userId pagination) w := by
  refine .bind (meets_execute_bind fun t hrely₀ _ => meets_execute_bind fun t' hrely₁ ht' => ?_)
  obtain ⟨page, hpage⟩ := limitOffset_eq_ok pagination
    ((selectBookingsOf userId (t'.view r)).mergeSort fun b b' => b.createdAt ≥ b'.createdAt)
  rw [selectUserBookings, hpage]
  refine meets_ret fun t'' hrely _ => .bind (meets_buildBookingResponses (fun b hb => ?_)
    fun items u _ hitems => Meets.stably (meets_ret (Lasting.stably
      (.forall_mem fun booking => lasting_bookingRecorded booking) hitems)))
  obtain ⟨booking, hbooking, rfl⟩ := List.mem_map.mp hb
  have hmem := List.mem_mergeSort.mp (mem_of_limitOffset hpage hbooking)
  exact lasting_loadedRecorded _ hrely.later_view (loadedRecorded_of_mem (valid_view ht' r)
    (lasting_sessionRecorded session (hrely₀.trans hrely₁).later_view hsession)
    (List.mem_filter.mp hmem).1 _)

/-! ### Cancelling -/

/-- The booking that a request has cancelled looks cancelled to it. -/
theorem cancelled_of_stage {t : World} {bookingId : ℤ} {seqs : Sequences}
    (h : (w.view r).row (.bookings, bookingId) ≠ none)
    (hrely : Rely r ((w.setSequences seqs).stage r [.updateBooking bookingId .cancelled]) t) :
    ∃ b, (t.view r).bookings.find? bookingId = some b ∧ b.status = .cancelled := by
  obtain ⟨b, hb⟩ := Db.row_bookings_ne_none.mp h
  set x : Write := .updateBooking bookingId .cancelled with hx
  have hmem : x ∈ ((w.setSequences seqs).stage r [x]).writesOf r := by
    rw [World.writesOf_stage_self]
    exact List.mem_append_right _ (List.mem_singleton_self _)
  have hrow : (t.view r).row x.target = some (.booking { b with status := .cancelled }) := by
    rw [hrely.row_view hmem, view_stage]
    show (x.apply (w.view r)).row x.target = _
    rw [Db.row_apply_target, show (w.view r).row x.target = _ from Db.row_bookings_eq_some.mpr hb]
    rfl
  exact ⟨_, Db.row_bookings_eq_some.mp hrow, rfl⟩

theorem meets_cancelBookingRoute (hidle : Closed r w) {session : Session}
    (hsession : SessionRecorded session (w.view r)) (bookingId userId : ℤ) :
    Meets faults r (.either (.among [.bookingNotFound]) (.alreadyCancelled bookingId))
      (fun _ t => Cancelled bookingId (t.view r)) (cancelBookingRoute session bookingId userId)
      w := by
  refine .bind (meets_execute_bind fun t hrely ht => ?_)
  have hidle₁ := hidle.of_rely hrely
  have hsession₁ := lasting_sessionRecorded session hrely.later_view hsession
  rw [hrely.view_of_idle hidle] at hsession₁ ⊢
  rw [selectBookingWithOwner]
  cases hfind : t.db.bookings.find? bookingId with
  | none => exact meets_raise (.inl (List.mem_cons_self ..))
  | some booking =>
    obtain ⟨hmem, hid⟩ := Table.find?_eq_some_iff.mp hfind
    obtain rfl : booking.id = bookingId := hid
    have hrow := Db.row_bookings_eq_some.mpr hfind
    simp only [Option.map_some, session.id_booking]
    show Meets faults r _ _ (if _ then _ else if _ then _ else _) t
    split_ifs with howner hstatus
    · exact meets_raise (.inl (List.mem_cons_self ..))
    · exact meets_raise (.inr ⟨rfl, session.booking booking, hsession₁.booking hmem, hstatus⟩)
    · refine meets_flush_bind fun t' hrely' ht' => ?_
      have hrow' : t'.db.row (.bookings, booking.id) ≠ none :=
        hrely'.later.row_ne_none (by simp [hrow])
      have hidle₂ := hidle₁.of_rely hrely'
      refine ⟨permits_updateBookingStatus ht' hidle₂ hrow', fun _ ws seqs hs => ?_,
        fun e seqs hs => by cases (Prod.mk.inj hs).1⟩
      obtain ⟨hws, rfl⟩ := Prod.mk.inj hs
      obtain rfl := (Prod.mk.inj (Except.ok.inj hws)).2
      -- the request reads back the booking that it has cancelled
      rw [← World.view_of_writesOf_nil hidle₂] at hrow'
      refine meets_execute_bind fun t'' hrely'' _ => ?_
      obtain ⟨b, hb, hcancelled⟩ := cancelled_of_stage hrow' hrely''
      rw [hb]
      refine meets_sendBookingEvent_bind fun u hrely₃ _ => meets_ret fun u' hrely₄ _ =>
        meets_ret ((lasting_cancelled booking.id).stably ?_)
      have hrecorded : Cancelled booking.id (t''.view r) :=
        ⟨b, Db.records_of_row (Db.row_bookings_eq_some.mpr hb), hcancelled⟩
      exact lasting_cancelled _ (hrely₃.later_view.trans hrely₄.later_view) hrecorded

/-! ### Availability -/

/-- An exception of a loop is one of its body. -/
theorem foldlM_eq_error {σ β ε : Type} {f : σ → β → Except ε σ} {l : List β} {s : σ} {e : ε}
    (h : l.foldlM f s = .error e) : ∃ b ∈ l, ∃ s', f s' b = .error e := by
  induction l generalizing s with
  | nil => cases h
  | cons b l ih =>
    rw [List.foldlM_cons] at h
    rcases Except.bind_eq_error_iff.mp h with h | ⟨s', -, h⟩
    · exact ⟨b, List.mem_cons_self .., s, h⟩
    · obtain ⟨b', hb', hf⟩ := ih h
      exact ⟨b', List.mem_cons_of_mem _ hb', hf⟩

theorem mapM_eq_error {β γ ε : Type} {f : β → Except ε γ} {l : List β} {e : ε}
    (h : l.mapM f = .error e) : ∃ b ∈ l, f b = .error e := by
  induction l with
  | nil => cases h
  | cons b l ih =>
    rw [List.mapM_cons] at h
    rcases Except.bind_eq_error_iff.mp h with h | ⟨c, -, h⟩
    · exact ⟨b, List.mem_cons_self .., h⟩
    · rcases Except.bind_eq_error_iff.mp h with h | ⟨cs, -, h⟩
      · obtain ⟨b', hb', hf⟩ := ih h
        exact ⟨b', List.mem_cons_of_mem _ hb', hf⟩
      · cases h

theorem slots_eq_error {settings : Settings} {totalSeats : ℤ}
    {bookings : List (Booking × List BookingSeat)} {e : Exc}
    (h : slots settings totalSeats bookings = .error e) : e = .keyError := by
  rcases Except.bind_eq_error_iff.mp h with h | ⟨dict, -, h⟩
  · obtain ⟨booking, -, dict, h⟩ := foldlM_eq_error h
    obtain ⟨hour, -, dict, h⟩ := foldlM_eq_error h
    obtain ⟨bs, -, dict, h⟩ := foldlM_eq_error h
    rw [SetDict.add] at h
    split at h
    · exact (Except.error.inj h).symm
    · cases h
  · obtain ⟨hour, -, h⟩ := mapM_eq_error h
    rw [slotAt] at h
    split at h
    · exact (Except.error.inj h).symm
    · cases h

theorem sessionBoundary_eq_error {date : Date} {hour : ℤ} {e : Exc}
    (h : sessionBoundary date hour = .error e) : e = .valueError "hour must be in 0..23" := by
  rw [sessionBoundary] at h
  split_ifs at h
  exact (Except.error.inj h).symm

theorem meets_calculateSlots {ok : List Slot → World → Prop} (settings : Settings) (hallId : ℤ)
    (date : Date) (hE : ∀ e db, SlotsError e → E.may e db) (hok : ∀ slots t, ok slots t) :
    Meets faults r E ok (calculateSlots settings hallId date) w := by
  refine meets_execute_bind fun t _ _ => ?_
  cases selectActiveHall hallId (t.view r) with
  | none => exact meets_raise (hE _ _ (.inl rfl))
  | some hall =>
    have hboundary (e : Exc) (hour : ℤ) (h : sessionBoundary date hour = .error e) (db : Db) :
        E.may e db := hE e db (.inr (.inr (sessionBoundary_eq_error h)))
    refine meets_execute_bind fun t' _ _ => .bind (meets_ofExcept (fun start _ _ _ _ =>
      .bind (meets_ofExcept (fun stop _ _ _ _ => meets_execute_bind fun u _ _ =>
        meets_ofExcept (fun slots _ _ _ _ => hok slots _) fun e h => ?_)
        fun e h => hboundary e _ h _)) fun e h => hboundary e _ h _)
    exact hE e _ (.inr (.inl (slots_eq_error h)))

theorem mapM_timeSlotResponse (slots : List Slot) :
    (slots.map Slot.toJson).mapM timeSlotResponse = .ok slots := by
  induction slots with
  | nil => rfl
  | cons slot slots ih =>
    rw [List.map_cons, List.mapM_cons, timeSlotResponse_toJson, ih]
    rfl

/-- The slots of a day are calculated or taken from the cache: what is cached can be read. -/
theorem meets_getAvailabilityRoute {ok : List Slot → World → Prop} (settings : Settings)
    (hallId : ℤ) (date : Date) (hok : ∀ slots t, ok slots t) :
    Meets faults r (.of SlotsError) ok (getAvailabilityRoute settings hallId date) w := by
  have hanswer (slots : List Slot) (t : World) : Meets faults r (.of SlotsError) ok
      (.ofExcept ((slots.map Slot.toJson).mapM timeSlotResponse)) t := by
    rw [mapM_timeSlotResponse]
    exact meets_ret fun _ _ _ => hok slots _
  refine .bind (meets_redisCall_bind (fun rd h => h) fun t _ ht => ?_)
  have hcalculate (t : World) : Meets faults r (.of SlotsError)
      (fun items t =>
        Meets faults r (.of SlotsError) ok (.ofExcept (items.mapM timeSlotResponse)) t)
      ((calculateSlots settings hallId date).bind fun slots =>
        (redisCall (.setex (cacheKey hallId date) cacheTtl
          (Json.dumps (.arr (slots.map Slot.toJson))))).bind fun _ =>
            .ret (slots.map Slot.toJson)) t := by
    refine .bind (meets_calculateSlots settings hallId date (fun e db h => h) fun slots t =>
      meets_redisCall_bind (fun rd h => h.setex hallId date slots) fun u _ _ =>
        meets_ret fun u' _ _ => hanswer slots u')
  cases hcached : (t.redis.exec (.get (cacheKey hallId date))).1 with
  | none => exact hcalculate _
  | some cached =>
    obtain ⟨entry, hentry, rfl⟩ := Option.map_eq_some_iff.mp hcached
    obtain ⟨slots, hslots⟩ := ht.cache hallId date entry hentry
    show Meets faults r _ _ (if _ then _ else _) _
    rw [hslots, if_neg (dumps_arr_ne_empty _), cachedSlots_dumps]
    exact meets_ret fun t' _ _ => hanswer slots t'

end BookingApi.Api
