import BookingApi.Concurrent.Bystanders
import BookingApi.Concurrent.Invariant

/-!
# Events and commits

The events of the topic against the committed bookings.

* `every_booking_notified`: whatever the interleaving and the failures, no notification is lost or
  out of order.
* `eventsCommitted_of_safe`: the events of a request that has ended are about what it committed, as
  long as no fault hits a request whose event is in the topic already.  The event is sent before the
  commit, so such a fault leaves an event about nothing (`exists_event_without_commit`).
-/

namespace BookingApi.Concurrent

open Async BookingService World

variable {settings : Settings} {requests : RequestId → Request} {tr : Trace} {c c' : Config}

/-! ### No notification is lost -/

theorem db_or_topic_of_step {a : Action} (h : step settings c a = some c') :
    c'.shared.db = c.shared.db ∨ c'.shared.topic = c.shared.topic := by
  cases a with
  | run i =>
    obtain ⟨β, op, resume, -, -, hs, -⟩ := step_run h
    exact hs ▸ db_or_topic_exec
  | fault i f =>
    obtain ⟨β, op, resume, e, -, hs, -⟩ := step_fault h
    exact .inl (db_fault hs)
  | env e =>
    obtain rfl := step_env h
    cases e <;> exact .inl rfl

/-- A booking that a transition commits is announced before. -/
theorem announced_before {a : Action} (hstep : step settings c a = some c') (hi : Inv c')
    {b : Booking} (hb : b ∈ c'.shared.db.bookings.rows)
    (hnew : ∀ b' ∈ c.shared.db.bookings.rows, b'.id ≠ b.id) :
    (c.shared.announcements b.id).length = 1 := by
  rcases db_or_topic_of_step hstep with hdb | htopic
  · exact absurd rfl (hnew b (hdb ▸ hb))
  · -- the step sends nothing, so the announcement that is there after it was there before
    have hone := hi.sound.announced b hb
    unfold announcements at hone
    rw [htopic] at hone
    exact hone

/-- The one announcement of a booking precedes every report of its cancellation. -/
theorem announcement_first {w : World} (hw : w.Sound) {before after : List Message} {m : Message}
    (htopic : w.topic = before ++ m :: after) (hm : m.event.isCreated = false) :
    (∃ m' ∈ before, m'.event.isCreated ∧ m'.event.bookingId = m.event.bookingId) ∧
      ∀ m' ∈ after, m'.event.isCreated → m'.event.bookingId ≠ m.event.bookingId := by
  obtain ⟨⟨b, hb, hid⟩, m₀, hm₀, hc₀, hid₀⟩ := hw.report_after before m after htopic hm
  refine ⟨⟨m₀, hm₀, hc₀, hid₀⟩, fun m' hm' hc' hid' => ?_⟩
  -- otherwise the booking would have two announcements
  have hone := hw.announced b hb
  rw [announcements, htopic, List.filter_append, List.length_append, hid, List.filter_cons] at hone
  simp only [hm, Bool.false_eq_true, false_and, decide_false, if_false] at hone
  have hpos {l : List Message} {x : Message} (hx : x ∈ l) (hc : x.event.isCreated)
      (hid : x.event.bookingId = m.event.bookingId) :
      0 < (l.filter fun x => x.event.isCreated ∧ x.event.bookingId = m.event.bookingId).length :=
    List.length_pos_of_mem (List.mem_filter.mpr ⟨hx, decide_eq_true ⟨hc, hid⟩⟩)
  have h₀ := hpos hm₀ hc₀ hid₀
  have h' := hpos hm' hc' hid'
  omega

/-- **No notification is lost**: in every reachable configuration each committed booking has
exactly one announcement, which was there before the booking was committed; each cancelled booking
has a report; and the announcement precedes the reports. -/
theorem every_booking_notified (h : RunOf settings requests tr c) :
    (∀ b ∈ c.shared.db.bookings.rows, (c.shared.announcements b.id).length = 1) ∧
    (∀ t ∈ tr, ∀ b ∈ t.after.shared.db.bookings.rows,
      (∀ b' ∈ t.before.shared.db.bookings.rows, b'.id ≠ b.id) →
      (t.before.shared.announcements b.id).length = 1) ∧
    (∀ b ∈ c.shared.db.bookings.rows, b.status = .cancelled → c.shared.Reported b.id) ∧
    ∀ before m after, c.shared.topic = before ++ m :: after → m.event.isCreated = false →
      (∃ m' ∈ before, m'.event.isCreated ∧ m'.event.bookingId = m.event.bookingId) ∧
        ∀ m' ∈ after, m'.event.isCreated → m'.event.bookingId ≠ m.event.bookingId := by
  have hw := (RunOf.inv h).sound
  refine ⟨hw.announced, fun t ht b hb hnew => ?_, hw.reported, fun before m after => ?_⟩
  · obtain ⟨hstep, -, hi⟩ := RunOf.of_mem h ht
    exact announced_before hstep hi hb hnew
  · exact announcement_first hw

namespace Scenario

/-- A booking is made and cancelled. -/
def madeAndCancelled : List Request := [.createBooking booking, .cancelBooking ⟨1, 1⟩]

end Scenario

theorem every_booking_notified_madeAndCancelled :
    ∃ tr c, RunOf BookingApi.settings (Scenario.requests Scenario.madeAndCancelled) tr c ∧
      c.shared.db.bookings.rows.length = 1 ∧
      ∀ b ∈ c.shared.db.bookings.rows, (c.shared.announcements b.id).length = 1 := by
  have hreplay : ((Scenario.run Scenario.madeAndCancelled
      (Scenario.times 15 3 ++ Scenario.times 6 4)).map
        fun c => decide (c.shared.db.bookings.rows.length = 1)) = some true := by decide +kernel
  obtain ⟨tr, c, hrun, hlen⟩ := Scenario.exists_run _ hreplay
  exact ⟨tr, c, hrun, hlen, (every_booking_notified hrun).1⟩

/-! ### An event without a commit -/

/-- The request is about to commit. -/
def AtCommit : Pc → Prop
  | .create _ (.commit _) | .cancel _ .commit => True
  | _ => False

/-- The transaction of a request was committed. -/
def Committed (tr : Trace) (r : RequestId) : Prop :=
  ∃ t ∈ tr, t.action = .run r ∧ AtCommit (t.before.threads r)

/-- Every event of a request that has ended is about what the request committed. -/
def EventsCommitted (settings : Settings) (tr : Trace) (c : Config) : Prop :=
  ∀ r result, (c.threads r).result settings = some result →
    ∀ m ∈ c.shared.topic, m.sender = r →
      Committed tr r ∧
      (m.event.isCreated → ∃ b ∈ c.shared.db.bookings.rows, b.id = m.event.bookingId) ∧
      (m.event.isCreated = false → c.shared.Cancelled m.event.bookingId)

/-- No fault hits a request whose event is in the topic, nor puts it there by losing its
acknowledgement. -/
def EventSafe (c : Config) : Action → Prop
  | .fault i f => c.shared.sentBy i = [] ∧ f ≠ .acknowledgementLost
  | _ => True

/-- A request that fails has sent nothing, and one that has succeeded has committed. -/
def Outcome (tr : Trace) (w : World) (r : RequestId) : Pc → Prop
  | .create _ (.release (.error _)) | .create _ (.rollback _) | .create _ (.done (.error _))
  | .cancel _ (.rollback _) | .cancel _ (.done (.error _)) => w.sentBy r = []
  | .create _ (.done (.ok _)) => Committed tr r
  | .cancel args (.done (.ok _)) => Committed tr r ∧ w.Cancelled args.bookingId
  | _ => True

theorem Committed.mono {r : RequestId} (h : Committed tr r) (t : Transition Config Action) :
    Committed (t :: tr) r := by
  obtain ⟨t', ht', h'⟩ := h
  exact ⟨t', List.mem_cons_of_mem _ ht', h'⟩

theorem Outcome.other {r : RequestId} {pc : Pc} (hi : Inv c) {a : Action}
    (hstep : step settings c a = some c') (hu : Untouched r c.shared c'.shared)
    (h : Outcome tr c.shared r pc) : Outcome (⟨c, a, c'⟩ :: tr) c'.shared r pc := by
  cases pc with
  | create args pc =>
    rcases pc with _ | _ | _ | _ | _ | _ | _ | _ | _ | _ | _ | _ | (e | b) | _ | _ | _ |
      (e | answer)
    all_goals
      simp only [Outcome, hu.sent] at h ⊢ <;>
      first
      | exact h
      | exact h.mono _
  | cancel args pc =>
    rcases pc with _ | _ | _ | _ | _ | _ | _ | (e | u)
    all_goals
      simp only [Outcome, hu.sent] at h ⊢ <;>
      first
      | exact h
      | exact ⟨h.1.mono _, cancelled_of_step hi hstep h.2⟩
  | other b => trivial

theorem outcome_create {r : RequestId} {f : Option Fault} {args : CreateArgs} {pc pc' : CreatePc}
    (hpc : c.threads r = .create args pc) (hi : CreateInv c.shared r args pc)
    (h : Outcome tr c.shared r (.create args pc)) (hsafe : EventSafe c (actionOf r f))
    (hs : CreateStep settings args r f c.shared pc c'.shared pc') :
    Outcome (⟨c, actionOf r f, c'⟩ :: tr) c'.shared r (.create args pc') := by
  generalize hw : c.shared = w at *
  generalize hw' : c'.shared = w' at *
  cases hs with
  | acquireFail => exact hi.1.2
  -- nothing is sent before the control point `send`
  | @abortEarly _ _ pc e hearly =>
    cases pc <;> first | exact hi.2 | exact hi.1.2 | exact hearly.elim
  | @abortLocked _ _ pc e seqs hlocked =>
    cases pc <;> first | exact hlocked.elim | exact hi.2 | exact hi.1.2 | exact hi.2.1
  | sendLost => exact absurd rfl hsafe.2
  | @release _ outcome =>
    cases outcome with
    | error e => exact h
    | ok b => trivial
  | releaseFault => exact hw ▸ hsafe.1
  | responseError hr =>
    -- the seats of the booking are still there, so the answer can be built
    obtain ⟨answer, ha⟩ := exists_answer (r := r) hi.2.2
    rw [ha] at hr
    cases hr
  | lateFault => exact hw ▸ hsafe.1
  | rollback => exact h
  | @commit _ answer =>
    exact ⟨_, List.mem_cons_self .., rfl, by rw [hpc]; trivial⟩
  | _ => trivial

theorem outcome_cancel {r : RequestId} {f : Option Fault} {args : CancelArgs} {pc pc' : CancelPc}
    (hpc : c.threads r = .cancel args pc) (hi : CancelInv c.shared r args pc)
    (h : Outcome tr c.shared r (.cancel args pc)) (hsafe : EventSafe c (actionOf r f))
    (hs : CancelStep args r f c.shared pc c'.shared pc') :
    Outcome (⟨c, actionOf r f, c'⟩ :: tr) c'.shared r (.cancel args pc') := by
  generalize hw : c.shared = w at *
  generalize hw' : c'.shared = w' at *
  cases hs with
  | selectNone => exact hi.1.2
  | selectForeign => exact hi.1.2
  | selectCancelled => exact hi.1.2
  | refreshNone => exact hi.2.2.1
  | sendLost => exact absurd rfl hsafe.2
  | fault => exact hw ▸ hsafe.1
  | rollback => exact h
  | commit =>
    refine ⟨⟨_, List.mem_cons_self .., rfl, by rw [hpc]; trivial⟩, ?_⟩
    obtain ⟨hws, -, b, hb, hid, -⟩ := hi
    exact cancelled_commit_self hws hb hid
  | _ => trivial

theorem outcome_start (requests : RequestId → Request) (r : RequestId) :
    Outcome [] (start requests).shared r ((start requests).threads r) := by
  show Outcome [] initial r (requests r).start
  cases requests r <;> trivial

theorem RunOf.outcome (h : RunOf settings requests tr c)
    (hsafe : ∀ t ∈ tr, EventSafe t.before t.action) :
    ∀ r, Outcome tr c.shared r (c.threads r) := by
  refine Run.trace_invariant (I := fun tr c => ∀ r, Outcome tr c.shared r (c.threads r))
    (outcome_start requests) ?_ h hsafe
  intro tr c a c' hrun ih hsafe hstep
  have hi := RunOf.inv hrun
  refine forall_threads hstep ?_ ?_ ?_ ?_
  · exact fun r _ hu => (ih r).other hi hstep hu
  · rintro i f args pc pc' rfl hpc hs
    exact outcome_create hpc (hi.create hpc) (hpc ▸ ih i) hsafe hs
  · rintro i f args pc pc' rfl hpc hs
    exact outcome_cancel hpc (hi.cancel hpc) (hpc ▸ ih i) hsafe hs
  · exact fun _ _ _ => trivial

/-- **Events are about commits** in every run in which no fault hits a request whose event is in
the topic. -/
theorem eventsCommitted_of_safe (h : RunOf settings requests tr c)
    (hsafe : ∀ t ∈ tr, EventSafe t.before t.action) : EventsCommitted settings tr c := by
  intro r result hresult m hm hsender
  have hi := RunOf.inv h
  have hsent : m ∈ c.shared.sentBy r := mem_sentBy.mpr ⟨hm, hsender⟩
  have ho := RunOf.outcome h hsafe r
  cases hpc : c.threads r with
  | create args pc =>
    rw [hpc] at hresult ho
    obtain ⟨e | answer, rfl, -⟩ := result_create hresult
    · -- a request that failed has sent nothing
      rw [show c.shared.sentBy r = [] from ho] at hsent
      cases hsent
    · obtain ⟨-, ⟨e, hc, hid, he⟩, hstored⟩ := hi.create hpc
      rw [he, List.mem_singleton] at hsent
      subst hsent
      refine ⟨ho, fun _ => hid ▸ hstored, fun (hf : e.isCreated = false) => ?_⟩
      rw [hc] at hf
      cases hf
  | cancel args pc =>
    rw [hpc] at hresult ho
    obtain ⟨e | u, rfl, -⟩ := result_cancel hresult
    · rw [show c.shared.sentBy r = [] from ho] at hsent
      cases hsent
    · obtain ⟨-, ⟨e, hc, hid, he⟩, -⟩ := hi.cancel hpc
      rw [he, List.mem_singleton] at hsent
      subst hsent
      refine ⟨ho.1, fun (ht : e.isCreated) => ?_, fun _ => hid ▸ ho.2⟩
      rw [hc] at ht
      cases ht
  | other b =>
    rw [(hi.other hpc).2] at hsent
    cases hsent

theorem eventsCommitted_madeAndCancelled :
    ∃ tr c, RunOf BookingApi.settings (Scenario.requests Scenario.madeAndCancelled) tr c ∧
      c.shared.topic.length = 2 ∧ EventsCommitted BookingApi.settings tr c := by
  have hreplay : ((Scenario.runChecked (fun _ a => !a.isFault) Scenario.madeAndCancelled
      (Scenario.times 15 3 ++ Scenario.times 6 4)).map
        fun c => decide (c.shared.topic.length = 2)) = some true := by decide +kernel
  obtain ⟨tr, c, hrun, hok, hlen⟩ := Scenario.exists_run_checked _ hreplay
  refine ⟨tr, c, hrun, hlen, eventsCommitted_of_safe hrun fun t ht => ?_⟩
  cases ha : t.action with
  | fault i f => simpa [ha, Action.isFault] using hok t ht
  | _ => trivial

/-- The commit of a booking fails after its event was sent. -/
theorem exists_event_without_commit :
    ∃ requests tr c, RunOf BookingApi.settings requests tr c ∧
      ¬ EventsCommitted BookingApi.settings tr c := by
  have hreplay : ((Scenario.run [.createBooking Scenario.booking]
      (Scenario.times 14 3 ++ [.fault 3 .noEffect, .run 3])).map fun c => decide
        (c.shared.db.bookings.rows = [] ∧
          c.shared.topic.map (fun m => (m.sender, m.event.isCreated)) = [(3, true)] ∧
          ((c.threads 3).result BookingApi.settings).isSome)) = some true := by decide +kernel
  obtain ⟨tr, c, hrun, hrows, htopic, hended⟩ := Scenario.exists_run _ hreplay
  refine ⟨_, tr, c, hrun, fun hall => ?_⟩
  obtain ⟨result, hresult⟩ := Option.isSome_iff_exists.mp hended
  obtain ⟨m, hm, hm'⟩ := List.map_eq_singleton_iff.mp htopic
  obtain ⟨hsender, hcreated⟩ := Prod.mk.inj hm'
  obtain ⟨-, hstored, -⟩ := hall 3 result hresult m (by rw [hm]; exact List.mem_singleton_self _)
    hsender
  obtain ⟨b, hb, -⟩ := hstored hcreated
  rw [hrows] at hb
  cases hb

end BookingApi.Concurrent
