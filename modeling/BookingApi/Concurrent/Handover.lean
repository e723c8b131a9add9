import BookingApi.Concurrent.AllOrNothing

/-!
# The hand-over of the lock

A request releases its lock before `get_db` commits its transaction, so the next request with the
lock may check for conflicts without seeing the booking of the previous one
(`exists_unseen_booking`).  `seesHandedOver_of_handoverSafe`: it sees every booking that was handed
over in every run in which no request checks under the lock while another one, which has released
the same lock, still has to commit.
-/

namespace BookingApi.Concurrent

open Async BookingService World

variable {settings : Settings} {requests : RequestId → Request} {tr : Trace} {c c' : Config}

/-- The request releases its lock. -/
def Releases (t : Transition Config Action) (r : RequestId) : Prop :=
  t.action = .run r ∧ ∃ args outcome, t.before.threads r = .create args (.release outcome)

/-- The request acquires its lock. -/
def Acquires (t : Transition Config Action) (r : RequestId) : Prop :=
  t.action = .run r ∧ ∃ args hall user, t.before.threads r = .create args (.acquire hall user) ∧
    t.after.threads r = .create args (.recheck hall user)

/-- The first request has released its lock before the second one acquired its own. -/
def HandedOver (tr : Trace) (r r' : RequestId) : Prop :=
  ∃ later t between t' earlier, tr = later ++ t :: (between ++ t' :: earlier) ∧
    Acquires t r' ∧ Releases t' r

/-- The booking of the request is among the rows, whatever its status. -/
def Recorded (db : Db) (args : CreateArgs) (id : ℤ) : Prop :=
  ∃ b ∈ db.bookings.rows, b.id = id ∧ b.userId = args.userId ∧ b.hallId = args.hallId ∧
    b.startTime = args.startTime.instant ∧ b.endTime = args.endTime.instant

/-- So are its seats. -/
def Sees (db : Db) (args : CreateArgs) (id : ℤ) : Prop :=
  Recorded db args id ∧ (db.seatsOf id).map BookingSeat.seatId = args.seatIds

/-- A conflict check under the lock sees the bookings of all requests that had the lock before and
whose transactions end in a commit. -/
def SeesHandedOver (tr : Trace) (c : Config) : Prop :=
  ∀ later t earlier, tr = later ++ t :: earlier →
    ∀ r args hall user, t.action = .run r → t.before.threads r = .create args (.recheck hall user) →
      ∀ r' args' answer, c.threads r' = .create args' (.done (.ok answer)) →
        args'.lockKey = args.lockKey → HandedOver earlier r' r →
          Sees (t.before.shared.view r) args' answer.id

/-- No request checks for conflicts under the lock while another request stands between the release
of the same lock and its commit. -/
def HandoverSafe (c : Config) : Action → Prop
  | .run r => ∀ args hall user, c.threads r = .create args (.recheck hall user) →
    ∀ r' args' pc, c.threads r' = .create args' pc → args'.lockKey = args.lockKey → ¬ Late pc
  | _ => True

/-! ### A request after its release -/

/-- The request fails. -/
def Fails : CreatePc → Prop
  | .rollback _ | .done (.error _) => True
  | _ => False

/-- The request has left the `finally` block, or fails. -/
def Past (pc : CreatePc) : Prop := Late pc ∨ Fails pc ∨ ∃ answer, pc = .done (.ok answer)

/-- The request stands at a control point of a kind. -/
def At (r : RequestId) (args : CreateArgs) (P : CreatePc → Prop) (c : Config) : Prop :=
  ∃ pc, c.threads r = .create args pc ∧ P pc

/-- What no step of the request loses, no step of the system loses. -/
theorem At.step {r : RequestId} {args : CreateArgs} {P : CreatePc → Prop}
    (hP : ∀ {f w w' pc pc'}, CreateStep settings args r f w pc w' pc' → P pc → P pc')
    (h : At r args P c) {a : Action} (hstep : step settings c a = some c') : At r args P c' := by
  obtain ⟨pc, hpc, hp⟩ := h
  by_cases ha : ∃ f, a = actionOf r f
  · obtain ⟨f, rfl⟩ := ha
    obtain ⟨pc', hs, ht⟩ := createStep_of_step hstep hpc
    exact ⟨pc', by rw [ht, Function.update_self], hP hs hp⟩
  · obtain ⟨hthread, -⟩ := untouched_of_step hstep fun f hf => ha ⟨f, hf⟩
    exact ⟨pc, hthread.trans hpc, hp⟩

variable {args : CreateArgs} {r : RequestId} {f : Option Fault} {w w' : World} {pc pc' : CreatePc}

theorem past_step (hs : CreateStep settings args r f w pc w' pc') (h : Past pc) : Past pc' := by
  cases hs with
  | response => exact .inl trivial
  | responseError => exact .inr (.inl trivial)
  | lateFault => exact .inr (.inl trivial)
  | commit => exact .inr (.inr ⟨_, rfl⟩)
  | rollback => exact .inr (.inl trivial)
  | releaseFault => exact .inr (.inl trivial)
  | acquireFail => exact .inr (.inl trivial)
  | abortEarly => exact .inr (.inl trivial)
  | @release _ outcome =>
    cases outcome with
    | error e => exact .inr (.inl trivial)
    | ok b => exact .inl trivial
  | @abortLocked _ _ pc _ _ hlocked =>
    rcases h with h | h | ⟨_, rfl⟩
    · cases pc <;> first | exact hlocked.elim | exact h.elim
    · cases pc <;> first | exact hlocked.elim | exact h.elim
    · exact hlocked.elim
  | _ => rcases h with h | h | ⟨_, h⟩ <;> first | exact h.elim | cases h

theorem fails_step (hs : CreateStep settings args r f w pc w' pc') (h : Fails pc) : Fails pc' := by
  cases hs with
  | rollback => trivial
  | @abortEarly _ _ pc _ hearly => cases pc <;> first | exact hearly.elim | exact h.elim
  | @abortLocked _ _ pc _ _ hlocked => cases pc <;> first | exact hlocked.elim | exact h.elim
  | @lateFault _ _ pc _ hlate => cases pc <;> first | exact hlate.elim | exact h.elim
  | _ => exact h.elim

/-- A request that has ended takes no step. -/
theorem not_createStep_done {result : Except Exc BookingResponse} :
    ¬ CreateStep settings args r f w (.done result) w' pc' := by
  intro h
  cases h <;> contradiction

/-- A release leads out of the `finally` block. -/
theorem past_of_release {outcome : Except Exc LoadedBooking}
    (hs : CreateStep settings args r none w (.release outcome) w' pc') : Past pc' := by
  cases hs with
  | release =>
    cases outcome with
    | error e => exact .inr (.inl trivial)
    | ok b => exact .inl trivial
  | abortEarly hearly => exact hearly.elim
  | abortLocked hlocked => exact hlocked.elim

/-! ### What a committed request has stored -/

theorem Recorded.mono {db db' : Db} {id : ℤ} (hg : db.Grows db') (h : Recorded db args id) :
    Recorded db' args id := by
  obtain ⟨b, hb, hid, huser, hhall, hstart, hend⟩ := h
  obtain ⟨b', hb', ht⟩ := Table.exists_of_map_subset hg.bookings hb
  simp only [Booking.terms, Prod.mk.injEq] at ht
  obtain ⟨h1, h2, h3, h4, h5, -, -⟩ := ht
  exact ⟨b', hb', h1.trans hid, h2.trans huser, h3.trans hhall, h4.trans hstart, h5.trans hend⟩

/-- A request that has succeeded has left its booking. -/
def LeftBooking (w : World) : Pc → Prop
  | .create args pc => ∀ answer, answer? pc = some answer → Recorded w.db args answer.id
  | _ => True

theorem RunOf.leftBooking (h : RunOf settings requests tr c) :
    ∀ r, LeftBooking c.shared (c.threads r) := by
  refine Run.trace_invariant (I := fun _ c => ∀ r, LeftBooking c.shared (c.threads r))
    (A := fun _ _ => True) ?_ ?_ h fun _ _ => trivial
  · intro r
    show LeftBooking initial (requests r).start
    cases requests r with
    | createBooking args => exact nofun
    | _ => trivial
  intro tr c a c' hrun ih _ hstep
  have hi := RunOf.inv hrun
  refine forall_threads hstep ?_ ?_ (fun _ _ _ => trivial) (fun _ _ _ => trivial)
  · intro r _ hu
    have hr := ih r
    cases hpc : c.threads r with
    | create args pc =>
      rw [hpc] at hr
      exact fun answer ha => (hr answer ha).mono hu.grows
    | _ => trivial
  · intro i f args pc pc' ha hpc hs
    rcases db_of_createStep hs with ⟨-, -, hpc₂⟩ | ⟨answer, rfl, rfl, hw, rfl⟩
    · rw [LeftBooking, hpc₂]
      simp
    · rintro answer ⟨⟩
      obtain ⟨b, k, hid, hd, hws⟩ := (hi.create hpc).1
      rw [← hid] at hws
      have hb : b ∈ (c.shared.commit i).db.bookings.rows := by
        rw [(commit_filled hi.sound hws).1]
        simp
      rw [hw]
      exact ⟨b, hb, hid, hd.userId, hd.hallId, hd.startTime, hd.endTime⟩

/-! ### The hand-over -/

/-- A request that was handed the lock by a request that will commit: the latter has left the
`finally` block. -/
theorem past_of_handedOver (h : RunOf settings requests tr c) {r r' : RequestId}
    {args : CreateArgs} (hr : requests r = .createBooking args) (hover : HandedOver tr r r') :
    At r args Past c := by
  obtain ⟨later, t, between, t', earlier, rfl, -, hact, args', outcome, hpc⟩ := hover
  have ht : t' ∈ later ++ t :: (between ++ t' :: earlier) := by simp
  obtain ⟨hstep, tr', hrun, -⟩ := Run.of_mem h ht
  obtain rfl : args = args' := by
    have := (RunOf.create_iff hrun).mpr ⟨_, hpc⟩
    exact Request.createBooking.inj (hr.symm.trans this)
  rw [hact] at hstep
  obtain ⟨pc', hs, hthreads⟩ := createStep_of_step (f := none) hstep hpc
  have hafter : At r args Past t'.after :=
    ⟨pc', by rw [hthreads, Function.update_self], past_of_release hs⟩
  exact Run.stays (P := At r args Past) (fun hP hstep => hP.step past_step hstep) h ht hafter

/-- **The lock hands over what was booked under it** in every run in which no request checks under
the lock while another one with the same lock stands between its release and its commit. -/
theorem seesHandedOver_of_handoverSafe (h : RunOf settings requests tr c)
    (hsafe : ∀ t ∈ tr, HandoverSafe t.before t.action) : SeesHandedOver tr c := by
  rintro later t earlier rfl r args hall user hact hpc r' args' answer hdone hkey hover
  obtain ⟨hrun, hstep⟩ := Run.of_append h
  have hmem : t ∈ later ++ t :: earlier := by simp
  have hr' : requests r' = .createBooking args' := (RunOf.create_iff h).mpr ⟨_, hdone⟩
  obtain ⟨pc', hpc', hpast⟩ := past_of_handedOver hrun hr' hover
  have hnext {P : CreatePc → Prop} (hP : P pc')
      (hkeep : ∀ {f w w' pc pc'}, CreateStep settings args' r' f w pc w' pc' → P pc → P pc') :
      P (.done (.ok answer)) := by
    have hafter : At r' args' P t.after := At.step hkeep ⟨pc', hpc', hP⟩ hstep
    obtain ⟨pc'', hpc'', hP''⟩ :=
      Run.stays (P := At r' args' P) (fun h hstep => h.step hkeep hstep) h hmem hafter
    obtain ⟨-, rfl⟩ := Pc.create.inj (hdone.symm.trans hpc'')
    exact hP''
  -- the request has committed: it is not about to, and it has not failed
  have hstored : pc' = .done (.ok answer) := by
    rcases hpast with hlate | hfails | ⟨answer', rfl⟩
    · have hready := hsafe t hmem
      rw [hact] at hready
      exact absurd hlate (hready args hall user hpc r' args' pc' hpc' hkey)
    · exact (hnext (P := Fails) hfails fails_step).elim
    · refine (hnext (P := fun pc => pc = .done (.ok answer')) rfl ?_).symm
      rintro f w w' pc pc' hs rfl
      exact absurd hs not_createStep_done
  have hleft := RunOf.left hrun r'
  have hbooking := RunOf.leftBooking hrun r'
  rw [hpc', hstored] at hleft hbooking
  have hview : t.before.shared.view r = t.before.shared.db :=
    view_of_idle ((RunOf.inv hrun).create hpc).1
  rw [hview]
  exact ⟨hbooking answer rfl, (hleft answer rfl).2⟩

/-! ### Two requests with one lock -/

/-- The request stands between its release and its commit. -/
def isLate : Pc → Bool
  | .create _ (.response _) | .create _ (.commit _) => true
  | _ => false

/-- Neither of the two requests of a scenario is late when a request takes a step. -/
def Scenario.noneLate (c : Config) : Action → Bool
  | .run 4 => ¬ isLate (c.threads 3)
  | .run 3 => ¬ isLate (c.threads 4)
  | _ => true

theorem handoverSafe_of_noneLate {a b : CreateArgs} {tr : Trace} {c : Config}
    (h : RunOf settings (Scenario.requests [.createBooking a, .createBooking b]) tr c)
    {action : Action} (hcheck : Scenario.noneLate c action) : HandoverSafe c action := by
  have hcreate {r : RequestId} {args : CreateArgs} {pc : CreatePc}
      (hpc : c.threads r = .create args pc) : r = 3 ∨ r = 4 := by
    obtain ⟨k, rfl, hk, -⟩ := Scenario.exists_getElem_of_requests
      ((RunOf.create_iff h).mpr ⟨_, hpc⟩) nofun
    match k, hk with
    | 0, _ => exact .inl rfl
    | 1, _ => exact .inr rfl
  cases action with
  | run r =>
    intro args hall user hpc r' args' pc hpc' _ hlate
    have hlate' : isLate (c.threads r') := by
      rw [hpc']
      cases pc <;> first | rfl | exact hlate.elim
    have hne : r ≠ r' := by
      rintro rfl
      rw [hpc] at hlate'
      cases hlate'
    rcases hcreate hpc with rfl | rfl <;> rcases hcreate hpc' with rfl | rfl
    · exact hne rfl
    · simp [Scenario.noneLate, hlate'] at hcheck
    · simp [Scenario.noneLate, hlate'] at hcheck
    · exact hne rfl
  | _ => trivial

/-- The second request starts when the first one has ended. -/
theorem seesHandedOver_twoSeats :
    ∃ tr c, RunOf BookingApi.settings (Scenario.requests Scenario.twoSeats) tr c ∧
      c.shared.db.bookings.rows.length = 2 ∧ SeesHandedOver tr c := by
  have hreplay : ((Scenario.runChecked Scenario.noneLate Scenario.twoSeats
      (Scenario.times 15 3 ++ Scenario.times 15 4)).map fun c =>
        decide (c.shared.db.bookings.rows.length = 2)) = some true := by decide +kernel
  obtain ⟨tr, c, hrun, hok, hlen⟩ := Scenario.exists_run_checked _ hreplay
  refine ⟨tr, c, hrun, hlen, seesHandedOver_of_handoverSafe hrun fun t ht => ?_⟩
  obtain ⟨-, tr', hrun', -⟩ := Run.of_mem hrun ht
  exact handoverSafe_of_noneLate hrun' (hok t ht)

/-- The control point of a request that creates a booking is of a kind. -/
def standsAt (p : CreatePc → Bool) : Pc → Bool
  | .create _ pc => p pc
  | _ => false

theorem exists_of_standsAt {p : CreatePc → Bool} {pc : Pc} (h : standsAt p pc) :
    ∃ args pc', pc = .create args pc' ∧ p pc' := by
  cases pc with
  | create args pc => exact ⟨args, pc, rfl, h⟩
  | _ => cases h

theorem acquires_of_step (h : step settings c (.run r) = some c') {hall hall' : Hall}
    {user user' : User} {args' : CreateArgs} (hpc : c.threads r = .create args (.acquire hall user))
    (hpc' : c'.threads r = .create args' (.recheck hall' user')) :
    Acquires ⟨c, .run r, c'⟩ r := by
  obtain ⟨pc', hs, ht⟩ := createStep_of_step (f := none) h hpc
  rw [ht, Function.update_self] at hpc'
  obtain ⟨rfl, rfl⟩ := Pc.create.inj hpc'
  generalize c.shared = w at *
  generalize c'.shared = w' at *
  cases hs with
  | acquire => exact ⟨rfl, args, hall, user, hpc, by rw [ht, Function.update_self]⟩

namespace Scenario

/-- The configurations in which the first request is about to release its lock, the second one is
about to acquire it, the second one is about to check for conflicts, and the first one has ended. -/
def handover : Option (Config × Config × Config × Config) :=
  (run twoSeats (times 12 3)).bind fun c₁ =>
    (step BookingApi.settings c₁ (.run 3)).bind fun c₂ =>
      (replay (step BookingApi.settings) (times 5 4) c₂).bind fun c₃ =>
        (step BookingApi.settings c₃ (.run 4)).bind fun c₄ =>
          (step BookingApi.settings c₄ (.run 4)).bind fun c₅ =>
            (replay (step BookingApi.settings) (times 2 3) c₅).map fun c₆ => (c₁, c₃, c₄, c₆)

/-- The second request is about to check for conflicts, and no booking is committed. -/
def unseen : Config × Config × Config × Config → Bool
  | (c₁, c₃, c₄, c₆) =>
    standsAt (· matches .release _) (c₁.threads 3) &&
    standsAt (· matches .acquire _ _) (c₃.threads 4) &&
    standsAt (· matches .recheck _ _) (c₄.threads 4) && c₄.shared.db.bookings.rows.isEmpty &&
    standsAt (· matches .done (.ok _)) (c₆.threads 3)

end Scenario

/-- The first request has released its lock, but it commits only after the second one has checked
for conflicts. -/
theorem exists_unseen_booking :
    DistinctTokens (Scenario.requests Scenario.twoSeats) ∧
      ∃ tr c, RunOf BookingApi.settings (Scenario.requests Scenario.twoSeats) tr c ∧
        (∀ t ∈ tr, NoExpiryInUse t.before t.action) ∧ ¬ SeesHandedOver tr c := by
  refine ⟨Scenario.distinctTokens (by simp [Scenario.twoSeats]; decide), ?_⟩
  have hreplay : (Scenario.handover.map Scenario.unseen) = some true := by decide +kernel
  obtain ⟨⟨c₁, c₃, c₄, c₆⟩, hhandover, hunseen⟩ := Option.map_eq_some_iff.mp hreplay
  simp only [Scenario.handover, Option.bind_eq_some_iff, Option.map_eq_some_iff] at hhandover
  obtain ⟨c₁, h₁, c₂, hrelease, c₃, h₃, c₄, hacquire, c₅, hcheck, c₆, h₆, hc⟩ := hhandover
  obtain ⟨rfl, rfl, rfl, rfl⟩ : _ ∧ _ ∧ _ ∧ _ := by simpa only [Prod.mk.injEq] using hc
  simp only [Scenario.unseen, Bool.and_eq_true, List.isEmpty_iff] at hunseen
  obtain ⟨⟨⟨⟨hat₁, hat₃⟩, hat₄⟩, hempty⟩, hat₆⟩ := hunseen
  obtain ⟨tr₁, hrun₁, hacts₁⟩ := Run.of_replay_mem h₁
  obtain ⟨tr₃, hrun₃, hacts₃⟩ := Run.of_replay_mem h₃
  obtain ⟨tr₆, hrun₆, hacts₆⟩ := Run.of_replay_mem h₆
  -- the run up to the check of the second request, and to the end of the first one
  have hrun₄ := ((hrun₁.tail hrelease).trans hrun₃).tail hacquire
  have hrun := (hrun₄.tail hcheck).trans hrun₆
  obtain ⟨args₁, pc₁, hpc₁, hp₁⟩ := exists_of_standsAt hat₁
  obtain ⟨args₃, pc₃, hpc₃, hp₃⟩ := exists_of_standsAt hat₃
  obtain ⟨args₄, pc₄, hpc₄, hp₄⟩ := exists_of_standsAt hat₄
  obtain ⟨args₆, pc₆, hpc₆, hp₆⟩ := exists_of_standsAt hat₆
  refine ⟨_, c₆, hrun, fun t ht => ?_, fun hsees => ?_⟩
  · -- every action of the schedule is a step of a request
    have hacts : ∃ r, t.action = .run r := by
      simp only [List.mem_append, List.mem_cons] at ht
      rcases ht with ht | rfl | rfl | ht | rfl | ht
      · exact ⟨3, List.eq_of_mem_replicate (hacts₆ t ht)⟩
      · exact ⟨4, rfl⟩
      · exact ⟨4, rfl⟩
      · exact ⟨4, List.eq_of_mem_replicate (hacts₃ t ht)⟩
      · exact ⟨3, rfl⟩
      · have hact := hacts₁ t ht
        simp only [Scenario.setup, Scenario.times, List.mem_append, List.mem_replicate] at hact
        rcases hact with ((⟨-, h⟩ | ⟨-, h⟩) | ⟨-, h⟩) | ⟨-, h⟩ <;> exact ⟨_, h⟩
    obtain ⟨r, hr⟩ := hacts
    rw [hr]
    trivial
  · have hfirst {args : CreateArgs} {c : Config} {tr : Trace} {pc : CreatePc}
        (h : RunOf BookingApi.settings (Scenario.requests Scenario.twoSeats) tr c)
        (hpc : c.threads 3 = .create args pc) : Scenario.booking = args :=
      Request.createBooking.inj ((RunOf.create_iff h).mpr ⟨pc, hpc⟩)
    have hsecond {args : CreateArgs} {c : Config} {tr : Trace} {pc : CreatePc}
        (h : RunOf BookingApi.settings (Scenario.requests Scenario.twoSeats) tr c)
        (hpc : c.threads 4 = .create args pc) :
        { Scenario.booking with seatIds := [2], token := Scenario.otherToken } = args :=
      Request.createBooking.inj ((RunOf.create_iff h).mpr ⟨pc, hpc⟩)
    obtain rfl := hfirst hrun hpc₆
    obtain rfl := hsecond hrun₄ hpc₄
    obtain ⟨outcome, rfl⟩ : ∃ outcome, pc₁ = .release outcome := by
      cases pc₁ <;> first | exact ⟨_, rfl⟩ | cases hp₁
    obtain ⟨hall, user, rfl⟩ : ∃ hall user, pc₃ = .acquire hall user := by
      cases pc₃ <;> first | exact ⟨_, _, rfl⟩ | cases hp₃
    obtain ⟨hall', user', rfl⟩ : ∃ hall user, pc₄ = .recheck hall user := by
      cases pc₄ <;> first | exact ⟨_, _, rfl⟩ | cases hp₄
    obtain ⟨answer, rfl⟩ : ∃ answer, pc₆ = .done (.ok answer) := by
      rcases pc₆ with _ | _ | _ | _ | _ | _ | _ | _ | _ | _ | _ | _ | _ | _ | _ | _ | (e | answer)
      all_goals first | exact ⟨_, rfl⟩ | cases hp₆
    have hover : HandedOver (⟨c₃, .run 4, c₄⟩ :: (tr₃ ++ ⟨c₁, .run 3, c₂⟩ :: tr₁)) 3 4 :=
      ⟨[], _, tr₃, _, tr₁, rfl, acquires_of_step hacquire hpc₃ hpc₄, rfl, args₁, outcome, hpc₁⟩
    -- what the second request should have seen is not committed yet
    obtain ⟨⟨b, hb, -⟩, -⟩ := hsees tr₆ _ _ rfl 4 _ hall' user' rfl hpc₄ 3 _ answer hpc₆ rfl hover
    have hview : c₄.shared.view 4 = c₄.shared.db :=
      view_of_idle ((RunOf.inv hrun₄).create hpc₄).1
    rw [hview, hempty] at hb
    exact List.not_mem_nil hb

end BookingApi.Concurrent
