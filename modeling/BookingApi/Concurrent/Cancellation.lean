import BookingApi.Concurrent.Bystanders
import BookingApi.Concurrent.Invariant

/-!
# Cancelling a booking once

`cancel_booking` tests the status of a booking and sets it in another statement, without a lock and
without a test in the `UPDATE`.  The status that it tests is the one that was loaded with the
authenticated user, if the booking was.  So two requests may both read the booking as confirmed, and
then both of them cancel it and report it, even if the first one has committed before the second one
comes to the service (`exists_cancelled_twice`).  `cancelledOnce_of_selectSafe`: this is the only
way to cancel a booking twice.
-/

namespace BookingApi.Concurrent

open Async BookingService World

variable {settings : Settings} {requests : RequestId → Request} {tr : Trace} {c c' : Config}

/-- The request has read the booking as confirmed and has not ended. -/
def Cancelling (id : ℤ) : Pc → Prop
  | .cancel args (.select session) =>
    args.bookingId = id ∧ ∃ b ∈ session.bookings, b.id = id ∧ b.status = .confirmed
  | .cancel args (.flush _ _ _) | .cancel args (.refresh _ _ _) | .cancel args (.send _ _ _)
  | .cancel args .commit => args.bookingId = id
  | _ => False

/-- The request has cancelled the booking. -/
def HasCancelled (id : ℤ) : Pc → Prop
  | .cancel args (.done (.ok _)) => args.bookingId = id
  | _ => False

/-- The request reads its booking next: with the authenticated user, or in the query of the service
if the booking was not loaded then. -/
def Reads (args : CancelArgs) : CancelPc → Prop
  | .load => True
  | .select session => ∀ b ∈ session.bookings, b.id ≠ args.bookingId
  | _ => False

/-- The request reads its booking as confirmed. -/
def ReadsConfirmed (w : World) (r : RequestId) (args : CancelArgs) : Prop :=
  ∃ b, (w.view r).bookings.find? args.bookingId = some b ∧ b.userId = args.userId ∧
    b.status = .confirmed

/-- No request reads a booking as confirmed while another one that did so has not ended. -/
def SelectSafe (c : Config) : Action → Prop
  | .run r => ∀ args pc, c.threads r = .cancel args pc → Reads args pc →
    ReadsConfirmed c.shared r args → ∀ r', ¬ Cancelling args.bookingId (c.threads r')
  | _ => True

/-- A request that has not read its booking has not written anything. -/
theorem Reads.idle {w : World} {r : RequestId} {args : CancelArgs} {pc : CancelPc}
    (h : Reads args pc) (hi : CancelInv w r args pc) : Idle w r := by
  cases pc with
  | load => exact hi
  | select session => exact hi.1
  | _ => exact h.elim

theorem Reads.not_cancelling {args : CancelArgs} {pc : CancelPc} (h : Reads args pc) {id : ℤ} :
    ¬ Cancelling id (.cancel args pc) := by
  cases pc with
  | load => exact False.elim
  | select session =>
    rintro ⟨rfl, b, hb, hid, -⟩
    exact h b hb hid
  | _ => exact h.elim

/-! ### At most one request succeeds -/

/-- The request has just read the booking as confirmed. -/
def NewReader (c c' : Config) (a : Action) (id : ℤ) (r : RequestId) : Prop :=
  a = .run r ∧ c'.shared = c.shared ∧ ∃ args pc, c.threads r = .cancel args pc ∧
    Reads args pc ∧ args.bookingId = id ∧ ReadsConfirmed c.shared r args

/-- A request that is cancelling after a step was so before, or has just read the booking. -/
theorem cancelling_of_step {a : Action} (h : step settings c a = some c') {id : ℤ} :
    ∀ r, Cancelling id (c'.threads r) → Cancelling id (c.threads r) ∨ NewReader c c' a id r := by
  refine forall_threads h
    (Q := fun r pc => Cancelling id pc → Cancelling id (c.threads r) ∨ NewReader c c' a id r)
    (fun _ _ _ => Or.inl) (fun _ _ _ => False.elim) ?_ (fun _ _ _ => False.elim)
  intro i f args pc pc' ha hpc hs hid
  have hcancelling (hid : Cancelling id (.cancel args pc)) : Cancelling id (c.threads i) :=
    hpc ▸ hid
  generalize hw : c.shared = w at *
  generalize hw' : c'.shared = w' at *
  cases hs with
  | load =>
    -- the booking is loaded with its owner
    obtain ⟨rfl, b, hb, hbid, hstatus⟩ := hid
    obtain ⟨hmem, hu⟩ := List.mem_filter.mp hb
    exact .inr ⟨ha, hw'.trans hw.symm, args, _, hpc, trivial, rfl, b,
      hw ▸ Table.find?_eq_some_iff.mpr ⟨hmem, hbid⟩, of_decide_eq_true hu, hstatus⟩
  | @select _ session row _ _ hb hu hstatus =>
    have hrow : row.id = args.bookingId := (Table.find?_eq_some_iff.mp hb).2
    rcases identityMap_cases session.bookings row with ⟨hnone, heq⟩ | ⟨hmem, hkey⟩
    · rw [Session.booking, heq] at hu hstatus
      exact .inr ⟨ha, hw'.trans hw.symm, args, _, hpc, fun b hb => hrow ▸ hnone b hb, hid, row,
        hw ▸ hb, hu, hstatus⟩
    · exact .inl (hcancelling ⟨hid, _, hmem, (hkey.trans hrow).trans hid, hstatus⟩)
  | _ => first | exact hid.elim | exact .inl (hcancelling hid)

/-- A request that has cancelled the booking after a step had done so before, or has just
committed. -/
theorem hasCancelled_of_step (hi : Inv c) {a : Action} (h : step settings c a = some c') {id : ℤ} :
    ∀ r, HasCancelled id (c'.threads r) → HasCancelled id (c.threads r) ∨
      a = .run r ∧ Cancelling id (c.threads r) ∧ c'.shared.Cancelled id := by
  refine forall_threads h
    (Q := fun r pc => HasCancelled id pc → HasCancelled id (c.threads r) ∨
      a = .run r ∧ Cancelling id (c.threads r) ∧ c'.shared.Cancelled id)
    (fun _ _ _ => Or.inl) (fun _ _ _ => False.elim) ?_ (fun _ _ _ => False.elim)
  intro i f args pc pc' ha hpc hs hid
  have hinv := hi.cancel hpc
  have hcancelling (hid : Cancelling id (.cancel args pc)) : Cancelling id (c.threads i) :=
    hpc ▸ hid
  generalize hw : c.shared = w at *
  generalize hw' : c'.shared = w' at *
  cases hs with
  | commit =>
    obtain ⟨hws, -, b, hb, hbid, -⟩ := hinv
    exact .inr ⟨ha, hcancelling hid, hid ▸ cancelled_commit_self hws hb hbid⟩
  | _ => exact hid.elim

/-- A booking that is cancelled after a step was so before, or a request has just committed its
cancellation. -/
theorem newCancelled_of_step (hi : Inv c) {a : Action} (h : step settings c a = some c') {id : ℤ}
    (hc : c'.shared.Cancelled id) : c.shared.Cancelled id ∨
      ∃ r, a = .run r ∧ Cancelling id (c.threads r) ∧ ¬ Cancelling id (c'.threads r) := by
  cases dbStep_of_step h with
  | keep hdb =>
    rw [World.Cancelled, hdb] at hc
    exact .inl hc
  | @create i args answer hpc ht hw =>
    obtain ⟨⟨b, k, -, hd, hws⟩, -⟩ := hi.create hpc
    rw [hw] at hc
    -- a new booking is confirmed, and its transaction updates no booking
    refine .inl ((cancelled_of_commit hc ?_).resolve_right ?_)
    · intro b' hb'
      rw [hws] at hb'
      obtain rfl : b' = b := by simpa using hb'
      exact hd.status
    · simp [hws]
  | @cancel i args hpc ht hw =>
    have hws := (hi.cancel hpc).1
    rw [hw] at hc
    -- the only write of the transaction is the update of its own booking
    refine (cancelled_of_commit hc ?_).imp_right fun hu => ⟨i, rfl, ?_, ?_⟩
    · simp [hws]
    · rw [hws, List.mem_singleton] at hu
      have hid : args.bookingId = id := (Write.updateBooking.inj hu).1.symm
      rw [hpc]
      exact hid
    · rw [ht, Function.update_self]
      exact False.elim
  | other hpc hw =>
    have hinv := hi.other hpc
    rw [hw] at hc
    refine .inl ((cancelled_of_commit hc ?_).resolve_right ?_)
    · exact fun b hb => absurd rfl (hinv.1 _ hb).1
    · exact fun hu => absurd rfl (hinv.1 _ hu).1

structure OnceInv (c : Config) : Prop where
  one : ∀ id r r', Cancelling id (c.threads r) → Cancelling id (c.threads r') → r = r'
  confirmed : ∀ id r, Cancelling id (c.threads r) → ¬ c.shared.Cancelled id
  once : ∀ id r r', HasCancelled id (c.threads r) → HasCancelled id (c.threads r') → r = r'
  cancelled : ∀ id r, HasCancelled id (c.threads r) → c.shared.Cancelled id

theorem onceInv_start (requests : RequestId → Request) : OnceInv (start requests) := by
  have hcancelling (id : ℤ) (r : RequestId) : ¬ Cancelling id ((start requests).threads r) := by
    show ¬ Cancelling id (requests r).start
    cases requests r <;> exact False.elim
  have hcancelled (id : ℤ) (r : RequestId) : ¬ HasCancelled id ((start requests).threads r) := by
    show ¬ HasCancelled id (requests r).start
    cases requests r <;> exact False.elim
  exact ⟨fun id r _ h => absurd h (hcancelling id r), fun id r h => absurd h (hcancelling id r),
    fun id r _ h => absurd h (hcancelled id r), fun id r h => absurd h (hcancelled id r)⟩

theorem onceInv_step (hi : Inv c) (ho : OnceInv c) {a : Action} (hsafe : SelectSafe c a)
    (h : step settings c a = some c') : OnceInv c' := by
  refine ⟨?one, ?confirmed, ?once, ?cancelled⟩
  case one =>
    -- a second reader is what `SelectSafe` excludes
    intro id r r' hr hr'
    obtain hr | ⟨rfl, -, args, pc, hpc, hreads, rfl, hread⟩ := cancelling_of_step h r hr
    · obtain hr' | ⟨rfl, -, args, pc, hpc, hreads, rfl, hread⟩ := cancelling_of_step h r' hr'
      · exact ho.one id r r' hr hr'
      · exact absurd hr (hsafe args pc hpc hreads hread r)
    · obtain hr' | ⟨ha, -⟩ := cancelling_of_step h r' hr'
      · exact absurd hr' (hsafe args pc hpc hreads hread r')
      · exact Action.run.inj ha
  case confirmed =>
    intro id r hr hc
    obtain hr' | ⟨rfl, hs, args, pc, hpc, hreads, rfl, b, hb, -, hstatus⟩ :=
      cancelling_of_step h r hr
    · obtain hc | ⟨i, -, hi', hdone⟩ := newCancelled_of_step hi h hc
      · exact ho.confirmed id r hr' hc
      · exact hdone (ho.one id r i hr' hi' ▸ hr)
    · -- the request has just read the committed row: its transaction is empty
      rw [hs] at hc
      obtain ⟨b', hb', hid', hstatus'⟩ := hc
      rw [view_of_idle (hreads.idle (hi.cancel hpc)), Table.find?_eq_some_iff] at hb
      obtain rfl : b = b' := Table.eq_of_key_eq hb.1 hb' (hb.2.trans hid'.symm)
      rw [hstatus] at hstatus'
      cases hstatus'
  case once =>
    -- once the booking is cancelled, no request is cancelling it any more
    intro id r r' hr hr'
    obtain hr | ⟨rfl, hr, -⟩ := hasCancelled_of_step hi h r hr
    · obtain hr' | ⟨rfl, hr', -⟩ := hasCancelled_of_step hi h r' hr'
      · exact ho.once id r r' hr hr'
      · exact absurd (ho.cancelled id r hr) (ho.confirmed id r' hr')
    · obtain hr' | ⟨ha, -⟩ := hasCancelled_of_step hi h r' hr'
      · exact absurd (ho.cancelled id r' hr') (ho.confirmed id r hr)
      · exact Action.run.inj ha
  case cancelled =>
    intro id r hr
    obtain hr | ⟨-, -, hc⟩ := hasCancelled_of_step hi h r hr
    · exact cancelled_of_step hi h (ho.cancelled id r hr)
    · exact hc

theorem RunOf.onceInv (h : RunOf settings requests tr c)
    (hsafe : ∀ t ∈ tr, SelectSafe t.before t.action) : OnceInv c :=
  Run.trace_invariant (I := fun _ c => OnceInv c) (onceInv_start requests)
    (fun hrun ih hsafe hstep => onceInv_step (RunOf.inv hrun) ih hsafe hstep) h hsafe

/-! ### Every other request is refused -/

/-- No fault has hit the request. -/
def FaultFree (tr : Trace) (r : RequestId) : Prop := ∀ t ∈ tr, ∀ f, t.action ≠ .fault r f

/-- The booking was committed, and belonged to the user, when the request read it. -/
def FindsBooking (tr : Trace) (r : RequestId) (args : CancelArgs) : Prop :=
  ∃ t ∈ tr, t.action = .run r ∧ (∃ session, t.before.threads r = .cancel args (.select session)) ∧
    Owned t.before.shared args

/-- A request that fails although it finds its booking and no fault hits it has found the booking
cancelled. -/
def Fate (tr : Trace) (r : RequestId) : Pc → Prop
  | .cancel args .load | .cancel args (.select _) => ¬ FindsBooking tr r args
  | .cancel args (.rollback e) | .cancel args (.done (.error e)) =>
    FaultFree tr r → FindsBooking tr r args → e = alreadyCancelled
  | _ => True

theorem FaultFree.of_cons {r : RequestId} {t : Transition Config Action}
    (h : FaultFree (t :: tr) r) : FaultFree tr r :=
  fun t' ht' => h t' (List.mem_cons_of_mem _ ht')

theorem FindsBooking.of_cons {r : RequestId} {args : CancelArgs} {t : Transition Config Action}
    (h : FindsBooking (t :: tr) r args)
    (ht : t.action = .run r → ∀ session, t.before.threads r = .cancel args (.select session) →
      ¬ Owned t.before.shared args) : FindsBooking tr r args := by
  obtain ⟨t', ht', ha, ⟨session, hpc⟩, ho⟩ := h
  rcases List.mem_cons.mp ht' with rfl | ht'
  · exact absurd ho (ht ha session hpc)
  · exact ⟨t', ht', ha, ⟨session, hpc⟩, ho⟩

theorem Fate.cons_of_ne {r : RequestId} {pc : Pc} (h : Fate tr r pc)
    {t : Transition Config Action} (ht : ∀ f, t.action ≠ actionOf r f) : Fate (t :: tr) r pc := by
  have keep {args : CancelArgs} {e : Exc}
      (h : FaultFree tr r → FindsBooking tr r args → e = alreadyCancelled)
      (hfree : FaultFree (t :: tr) r) (hfinds : FindsBooking (t :: tr) r args) :
      e = alreadyCancelled :=
    h hfree.of_cons (hfinds.of_cons fun ha => absurd ha (ht none))
  rcases pc with _ | ⟨args, _ | _ | _ | _ | _ | _ | e | (e | u)⟩ | _
  case cancel.load => exact fun hfinds => h (hfinds.of_cons fun ha => absurd ha (ht none))
  case cancel.select => exact fun hfinds => h (hfinds.of_cons fun ha => absurd ha (ht none))
  case cancel.rollback => exact keep h
  case cancel.done.error => exact keep h
  all_goals trivial

theorem fate_cancel {r : RequestId} {f : Option Fault} {args : CancelArgs} {pc pc' : CancelPc}
    (hi : CancelInv c.shared r args pc) (h : Fate tr r (.cancel args pc))
    (hpc : c.threads r = .cancel args pc)
    (hs : CancelStep args r f c.shared pc c'.shared pc') :
    Fate (⟨c, actionOf r f, c'⟩ :: tr) r (.cancel args pc') := by
  -- a request reads its booking once
  have unread (h : ¬ FindsBooking tr r args)
      (hfinds : FindsBooking (⟨c, actionOf r f, c'⟩ :: tr) r args) : Owned c.shared args := by
    by_contra howned
    exact h (hfinds.of_cons fun _ _ _ => howned)
  have faulty (f' : Fault) : ¬ FaultFree (⟨c, .fault r f', c'⟩ :: tr) r :=
    fun hfree => hfree _ (List.mem_cons_self ..) f' rfl
  generalize hw : c.shared = w at *
  generalize hw' : c'.shared = w' at *
  cases hs with
  | load =>
    exact fun hfinds => h (hfinds.of_cons fun _ _ hpc' => absurd (hpc.symm.trans hpc') nofun)
  | selectNone hb =>
    intro _ hfinds
    obtain ⟨b, hb', hid, -⟩ := unread h hfinds
    rw [view_of_idle hi.1, Table.find?_eq_none_iff] at hb
    exact absurd hid (hb b hb')
  | selectForeign hb hne =>
    intro _ hfinds
    obtain ⟨b, hb', hid, hu⟩ := unread h hfinds
    rw [view_of_idle hi.1, Table.find?_eq_some_iff] at hb
    -- the object of the session has the owner of the row
    have howner := congrArg (·.2.1) (hi.2.terms_booking hb.1)
    rw [Table.eq_of_key_eq hb.1 hb' (hb.2.trans hid.symm)] at hne howner
    exact absurd (howner.trans hu) hne
  | selectCancelled => exact fun _ _ => rfl
  | refreshNone hb =>
    -- the booking is still there
    obtain ⟨hid, -, -, b', hb', hid', -⟩ := hi
    obtain ⟨b'', hb'', ht⟩ := Table.exists_of_map_subset (Db.grows_applyAll w.db _).bookings hb'
    refine absurd ?_ (Table.find?_eq_none_iff.mp hb b'' hb'')
    exact (Booking.id_eq_of_terms ht).trans (hid'.trans hid.symm)
  | sendLost => exact fun hfree => absurd hfree (faulty _)
  | fault => exact fun hfree => absurd hfree (faulty _)
  | @rollback f _ e e' he =>
    intro hfree hfinds
    cases f with
    | none =>
      rw [he rfl]
      exact h hfree.of_cons (hfinds.of_cons fun _ _ hpc' => absurd (hpc.symm.trans hpc') nofun)
    | some f' => exact absurd hfree (faulty f')
  | _ => trivial

theorem RunOf.fate (h : RunOf settings requests tr c) : ∀ r, Fate tr r (c.threads r) := by
  refine Run.trace_invariant (I := fun tr c => ∀ r, Fate tr r (c.threads r))
    (A := fun _ _ => True) ?_ ?_ h fun _ _ => trivial
  · intro r
    show Fate [] r (requests r).start
    cases requests r with
    | cancelBooking args => exact fun ⟨t, ht, _⟩ => absurd ht List.not_mem_nil
    | _ => trivial
  intro tr c a c' hrun ih _ hstep
  refine forall_threads hstep ?_ (fun _ _ _ => trivial) ?_ (fun _ _ _ => trivial)
  · exact fun r hne _ => (ih r).cons_of_ne hne
  · rintro i f args pc pc' rfl hpc hs
    exact fate_cancel ((RunOf.inv hrun).cancel hpc) (hpc ▸ ih i) hpc hs

/-! ### The events of the cancellation -/

open Classical in
/-- The reports of the cancellation by requests that have committed it. -/
noncomputable def committedReports (c : Config) (id : ℤ) : List Message :=
  c.shared.topic.filter fun m =>
    m.event.isCreated = false ∧ m.event.bookingId = id ∧
      ∃ id', HasCancelled id' (c.threads m.sender)

/-- A request that has cancelled a booking has sent one event, about this booking. -/
theorem HasCancelled.sentBy (hi : Inv c) {id : ℤ} {r : RequestId}
    (h : HasCancelled id (c.threads r)) :
    ∃ e : BookingEvent, e.bookingId = id ∧ c.shared.sentBy r = [⟨r, e⟩] := by
  rcases hpc : c.threads r with _ | ⟨args, _ | _ | _ | _ | _ | _ | _ | (e | u)⟩ | _ <;>
    rw [hpc] at h
  case cancel.done.ok =>
    obtain ⟨-, ⟨e, -, hid, hsent⟩, -⟩ := hi.cancel hpc
    exact ⟨e, hid.trans h, hsent⟩
  all_goals exact h.elim

theorem length_committedReports_le (hi : Inv c) (ho : OnceInv c) (id : ℤ) :
    (committedReports c id).length ≤ 1 := by
  classical
  -- the sender of such a report has cancelled this booking
  have hsender {m : Message} (hm : m ∈ committedReports c id) :
      HasCancelled id (c.threads m.sender) := by
    rw [committedReports, List.mem_filter, decide_eq_true_eq] at hm
    obtain ⟨hm, -, hid, id', h⟩ := hm
    obtain ⟨e, he, hsent⟩ := HasCancelled.sentBy hi h
    have hm' : m ∈ c.shared.sentBy m.sender := mem_sentBy.mpr ⟨hm, rfl⟩
    rw [hsent, List.mem_singleton] at hm'
    rw [hm'] at hid
    exact hid ▸ he ▸ h
  by_cases hex : ∃ r, HasCancelled id (c.threads r)
  · obtain ⟨r, hr⟩ := hex
    obtain ⟨e, -, hsent⟩ := HasCancelled.sentBy hi hr
    -- all reports are from this request, which has sent one event
    have heq : committedReports c id = (committedReports c id).filter fun m => m.sender = r := by
      refine (List.filter_eq_self.mpr fun m hm => decide_eq_true ?_).symm
      exact (ho.once id r m.sender hr (hsender hm)).symm
    rw [heq, committedReports, List.filter_comm, ← World.sentBy, hsent]
    exact List.length_filter_le _ _
  · rw [List.length_eq_zero_iff.mpr]
    · exact Nat.zero_le 1
    · exact List.eq_nil_iff_forall_not_mem.mpr fun m hm => hex ⟨_, hsender hm⟩

/-- At most one request cancels a booking, every other one is refused, and the cancellation is
reported at most once by requests that commit. -/
structure CancelledOnce (tr : Trace) (c : Config) : Prop where
  once : ∀ id r r', HasCancelled id (c.threads r) → HasCancelled id (c.threads r') → r = r'
  refused : ∀ r args e, c.threads r = .cancel args (.done (.error e)) → FaultFree tr r →
    FindsBooking tr r args → e = alreadyCancelled
  reports : ∀ id, (committedReports c id).length ≤ 1

/-- **A booking is cancelled once** in every run in which no request reads a booking as confirmed
while another one that did so has not ended. -/
theorem cancelledOnce_of_selectSafe (h : RunOf settings requests tr c)
    (hsafe : ∀ t ∈ tr, SelectSafe t.before t.action) : CancelledOnce tr c := by
  have ho := RunOf.onceInv h hsafe
  refine ⟨ho.once, fun r args e hpc => ?_, length_committedReports_le (RunOf.inv h) ho⟩
  have hfate := RunOf.fate h r
  rw [hpc] at hfate
  exact hfate

/-- Requests that cancel different bookings read them safely. -/
theorem selectSafe_of_different (h : RunOf settings requests tr c)
    (hone : ∀ r r' args args', requests r = .cancelBooking args →
      requests r' = .cancelBooking args' → args.bookingId = args'.bookingId → r = r') :
    ∀ t ∈ tr, SelectSafe t.before t.action := by
  intro t ht
  obtain ⟨-, tr', hrun, -⟩ := Run.of_mem h ht
  cases ha : t.action with
  | run r =>
    intro args pc hpc hreads _ r' hr'
    rcases hpc' : t.before.threads r' with _ | ⟨args', pc'⟩ | _ <;> rw [hpc'] at hr'
    · exact hr'.elim
    · have hid : args'.bookingId = args.bookingId := by
        rcases pc' with _ | _ | _ | _ | _ | _ | _ | (e | u) <;>
          first | exact hr' | exact hr'.1 | exact hr'.elim
      obtain rfl := hone r' r args' args ((RunOf.cancel_iff hrun).mpr ⟨_, hpc'⟩)
        ((RunOf.cancel_iff hrun).mpr ⟨_, hpc⟩) hid
      -- a request that has not read its booking is not cancelling it
      obtain ⟨rfl, rfl⟩ := Pc.cancel.inj (hpc.symm.trans hpc')
      exact hreads.not_cancelling hr'
    · exact hr'.elim
  | _ => trivial

/-- A cancellation that has succeeded has cancelled its booking. -/
theorem hasCancelled_of_result (h : RunOf settings requests tr c) {r : RequestId}
    {args : CancelArgs} (hr : requests r = .cancelBooking args)
    (hok : ((c.threads r).result settings).map Except.isOk = some true) :
    HasCancelled args.bookingId (c.threads r) := by
  obtain ⟨pc, hpc⟩ := (RunOf.cancel_iff h).mp hr
  obtain ⟨result, hresult, hok⟩ := Option.map_eq_some_iff.mp hok
  rw [hpc] at hresult ⊢
  obtain ⟨e | u, rfl, rfl⟩ := result_cancel hresult
  · cases hok
  · rfl

theorem cancelledOnce_madeAndCancelled :
    ∃ requests tr c, RunOf BookingApi.settings requests tr c ∧
      HasCancelled 1 (c.threads 4) ∧ CancelledOnce tr c := by
  have hreplay : ((Scenario.run [.createBooking Scenario.booking, .cancelBooking ⟨1, 1⟩]
      (Scenario.times 15 3 ++ Scenario.times 6 4)).map fun c => decide
        (((c.threads 4).result BookingApi.settings).map Except.isOk = some true)) = some true := by
    decide +kernel
  obtain ⟨tr, c, hrun, hok⟩ := Scenario.exists_run _ hreplay
  refine ⟨_, tr, c, hrun, hasCancelled_of_result hrun (r := 4) rfl hok,
    cancelledOnce_of_selectSafe hrun (selectSafe_of_different hrun ?_)⟩
  intro r r' args args' hr hr' _
  obtain ⟨i, rfl, hi, hi'⟩ := Scenario.exists_getElem_of_requests hr nofun
  obtain ⟨j, rfl, hj, hj'⟩ := Scenario.exists_getElem_of_requests hr' nofun
  have h1 {k : ℕ} {args : CancelArgs} (hk : k < 2)
      (hk' : [Request.createBooking Scenario.booking, .cancelBooking ⟨1, 1⟩][k]
        = .cancelBooking args) : k = 1 := by
    match k with
    | 0 => cases hk'
    | 1 => rfl
  rw [h1 hi hi', h1 hj hj']

/-- Both requests are authenticated, then one cancels the booking and ends, and then the other one
cancels it once more. -/
theorem exists_cancelled_twice :
    ∃ requests tr c, RunOf BookingApi.settings requests tr c ∧ ¬ CancelledOnce tr c := by
  have hreplay : ((Scenario.run
      [.createBooking Scenario.booking, .cancelBooking ⟨1, 1⟩, .cancelBooking ⟨1, 1⟩]
      (Scenario.times 15 3 ++ [.run 4, .run 5] ++ Scenario.times 5 4 ++ Scenario.times 5 5)).map
        fun c => decide
          (((c.threads 4).result BookingApi.settings).map Except.isOk = some true ∧
            ((c.threads 5).result BookingApi.settings).map Except.isOk = some true))
        = some true := by decide +kernel
  obtain ⟨tr, c, hrun, h4, h5⟩ := Scenario.exists_run _ hreplay
  refine ⟨_, tr, c, hrun, fun h => ?_⟩
  exact absurd (h.once 1 4 5 (hasCancelled_of_result hrun (r := 4) rfl h4)
    (hasCancelled_of_result hrun (r := 5) rfl h5)) (by decide)

end BookingApi.Concurrent
