import BookingApi.Api.Run

/-!
# The age of cached slots

A call of `get_available_slots` answers from the cache or from the tables.  What it finds in the
cache was calculated for the same hall and day on a state of the run that was current when it was
stored (`Cached`), so that an entry that has not expired is not older than its time to live:
`getAvailableSlots_current`.
-/

namespace BookingApi.Api

open Async BookingService Concurrent

variable {security : Security} {settings : Settings} {moves : List Move}

/-- The time of the latest move that changed a key. -/
def storedAt (security : Security) (settings : Settings) (key : String) : List Move → Instant
  | [] => 0
  | move :: moves =>
    if (run security settings .initial (move :: moves)).redis key
        = (run security settings .initial moves).redis key then storedAt security settings key moves
    else (run security settings .initial (move :: moves)).now

theorem zero_le_storedAt (security : Security) (settings : Settings) (key : String)
    (moves : List Move) : 0 ≤ storedAt security settings key moves := by
  induction moves with
  | nil => exact le_rfl
  | cons move moves ih =>
    rw [storedAt]
    split_ifs
    · exact ih
    · exact now_le_of_suffix (List.nil_suffix (l := move :: moves))

/-- No key is there that has reached the end of its time to live. -/
def KeysExpire (security : Security) (settings : Settings) (moves : List Move) : Prop :=
  ∀ key entry, (run security settings .initial moves).redis key = some entry →
    (run security settings .initial moves).now
      < storedAt security settings key moves + entry.ttl * 1000000

/-- The entry has the slots of a hall and a day on an earlier state, which was current at the given
time. -/
structure Cached (security : Security) (settings : Settings) (moves : List Move) (hallId : ℤ)
    (date : Date) (time : Instant) (entry : RedisEntry) : Prop where
  ttl : entry.ttl = cacheTtl
  current : ∃ earlier slots, earlier <:+ moves ∧
    (run security settings .initial earlier).now = time ∧
    slotsOf settings hallId date (run security settings .initial earlier).db = .ok slots ∧
    entry.value = Json.dumps (.arr (slots.map Slot.toJson))

theorem Cached.cons {hallId : ℤ} {date : Date} {time : Instant} {entry : RedisEntry}
    (h : Cached security settings moves hallId date time entry) (move : Move) :
    Cached security settings (move :: moves) hallId date time entry := by
  obtain ⟨earlier, slots, hsuffix, hrest⟩ := h.current
  exact ⟨h.ttl, earlier, slots, hsuffix.trans (List.suffix_cons _ _), hrest⟩

theorem Cached.value_ne_empty {hallId : ℤ} {date : Date} {time : Instant} {entry : RedisEntry}
    (h : Cached security settings moves hallId date time entry) : entry.value ≠ "" := by
  obtain ⟨earlier, slots, -, -, -, hvalue⟩ := h.current
  rw [hvalue]
  exact dumps_arr_ne_empty _

/-- A cached text is not the token of a lock. -/
theorem Cached.value_ne_token {hallId : ℤ} {date : Date} {time : Instant} {entry : RedisEntry}
    (h : Cached security settings moves hallId date time entry) (token : Token) :
    entry.value ≠ token.text := by
  intro he
  obtain ⟨earlier, slots, -, -, -, hvalue⟩ := h.current
  have hmem : '[' ∈ token.text.toList := by
    rw [← he, hvalue]
    exact mem_dumps_arr _
  exact absurd (token.hex _ hmem) (by decide)

/-! ### What a move stores -/

/-- The route of the slots changes Redis only by storing what it calculated. -/
theorem redis_getAvailability (security : Security) (settings : Settings) (now : Instant)
    (authorization : Option String) {hallId : ℤ} {date : Date} {r : RequestId} {w : World}
    (hidle : w.writesOf r = []) (hne : w.redis.lookup (cacheKey hallId date) ≠ some "") :
    (serve r (Request.handler security settings now ⟨authorization, .getAvailability hallId date⟩)
        w).2.redis = w.redis ∨
      w.redis.lookup (cacheKey hallId date) = none ∧
      ∃ slots, slotsOf settings hallId date w.db = .ok slots ∧
        (serve r (Request.handler security settings now
          ⟨authorization, .getAvailability hallId date⟩) w).2.redis
            = (cacheSlots w hallId date slots).redis := by
  have hroute (p : App (List Json)) (f : List Json → App (List Slot))
      (hf : ∀ l w, ((f l).run (World.exec r) w).2 = w) :
      ((p.bind f).run (World.exec r) w).2 = (p.run (World.exec r) w).2 := by
    rw [Program.run_bind]
    rcases p.run (World.exec r) w with ⟨e | l, w'⟩
    · rfl
    · exact hf l w'
  have hslots : ((getAvailabilityRoute settings hallId date).run (World.exec r) w).2
      = ((getAvailableSlots settings hallId date).run (World.exec r) w).2 := by
    refine hroute _ _ fun l w => ?_
    cases l.mapM timeSlotResponse <;> rfl
  rw [World.redis_serve_eq, Request.handler]
  rcases run_asUser security now authorization hidle
      (fun _ _ => getAvailabilityRoute settings hallId date) .slots with ⟨e, hrun⟩ | ⟨user, -, hrun⟩
  · rw [hrun]
    exact .inl rfl
  · rw [hrun]
    simp only [hslots, run_getAvailableSlots hidle hne]
    cases w.redis.lookup (cacheKey hallId date) with
    | some cached => exact .inl rfl
    | none =>
      cases slotsOf settings hallId date w.db with
      | error e => exact .inl rfl
      | ok slots => exact .inr ⟨rfl, slots, rfl, rfl⟩

/-- **What is cached** was calculated on the state of the run at the time it was stored. -/
theorem cached_run {hallId : ℤ} {date : Date} {entry : RedisEntry}
    (h : (run security settings .initial moves).redis (cacheKey hallId date) = some entry) :
    Cached security settings moves hallId date
      (storedAt security settings (cacheKey hallId date) moves) entry := by
  induction moves generalizing entry with
  | nil => cases h
  | cons move moves ih =>
    have hidle := writesOf_run security settings World.pending_initial moves moves.length
    rw [storedAt]
    by_cases hsame : (run security settings .initial (move :: moves)).redis (cacheKey hallId date)
      = (run security settings .initial moves).redis (cacheKey hallId date)
    · rw [if_pos hsame]
      exact (ih (hsame ▸ h)).cons move
    rw [if_neg hsame]
    have hkey : move.keys (cacheKey hallId date) := by
      by_contra hnot
      exact hsame (redis_run_cons hnot moves)
    cases move with
    | env e =>
      -- the environment stores nothing
      cases e with
      | expire key =>
        rcases Redis.expire_apply (run security settings .initial moves).redis key
          (cacheKey hallId date) with hnone | hkept
        · exact absurd (h.symm.trans hnone) (by simp)
        · exact absurd hkept hsame
      | tick micros => exact hkey.elim
    | createAdmin salt email password => exact hkey.elim
    | serve request =>
      obtain ⟨authorization, endpoint⟩ := request
      cases endpoint with
      | createBooking data token => exact (cacheKey_ne_lockKey _ _ _ _ hkey).elim
      | getAvailability hallId' date' =>
        obtain ⟨rfl, rfl⟩ := cacheKey_eq_iff.mp hkey
        have hne : (run security settings .initial moves).redis.lookup (cacheKey hallId date)
            ≠ some "" := by
          intro hempty
          obtain ⟨entry', hentry', hvalue⟩ := Option.map_eq_some_iff.mp hempty
          exact (ih hentry').value_ne_empty hvalue
        rcases redis_getAvailability security settings
            (run security settings .initial moves).now authorization hidle hne with
          hredis | ⟨-, slots, hslots, hredis⟩
        · exact absurd (congrFun hredis _) hsame
        · rw [run_serve, hredis, redis_cacheSlots] at h
          obtain rfl := Option.some.inj h
          exact ⟨rfl, moves, slots, List.suffix_cons _ _, (World.now_serve _ _ _).symm, hslots, rfl⟩
      | _ => exact hkey.elim

/-- **The age of the answer.**  If no key outlives its time to live, a call that returns does so
with the slots of a state of the run that was current at most that time ago.  What it may find under
its key was calculated for its own hall and day, and is not the token of a lock. -/
theorem getAvailableSlots_current (hexpire : KeysExpire security settings moves) {hallId : ℤ}
    {date : Date} {items : List Json}
    (h : answer security settings .initial moves (getAvailableSlots settings hallId date)
      = .ok items) :
    (∃ earlier slots, earlier <:+ moves ∧
      (run security settings .initial moves).now - cacheTtl * 1000000
        ≤ (run security settings .initial earlier).now ∧
      (run security settings .initial earlier).now
        ≤ (run security settings .initial moves).now ∧
      slotsOf settings hallId date (run security settings .initial earlier).db = .ok slots ∧
      items = slots.map Slot.toJson) ∧
    ∀ entry, (run security settings .initial moves).redis (cacheKey hallId date) = some entry →
      Cached security settings moves hallId date
        (storedAt security settings (cacheKey hallId date) moves) entry ∧
      ∀ token : Token, entry.value ≠ token.text := by
  refine ⟨?_, fun entry hentry => ⟨cached_run hentry, (cached_run hentry).value_ne_token⟩⟩
  have hidle := writesOf_run security settings World.pending_initial moves moves.length
  have hne : (run security settings .initial moves).redis.lookup (cacheKey hallId date)
      ≠ some "" := by
    intro hempty
    obtain ⟨entry, hentry, hvalue⟩ := Option.map_eq_some_iff.mp hempty
    exact (cached_run hentry).value_ne_empty hvalue
  have hres : ((getAvailableSlots settings hallId date).run (World.exec moves.length)
      (run security settings .initial moves)).1 = .ok items := by
    rw [answer, serve_eq] at h
    rcases hp : (getAvailableSlots settings hallId date).run (World.exec moves.length)
      (run security settings .initial moves) with ⟨e | l, w'⟩ <;> rw [hp] at h <;> exact h
  rw [run_getAvailableSlots hidle hne] at hres
  rcases hcached : (run security settings .initial moves).redis (cacheKey hallId date) with
    _ | entry
  · -- calculated now
    rw [Redis.lookup, hcached] at hres
    cases hslots : slotsOf settings hallId date (run security settings .initial moves).db with
    | error e => rw [hslots] at hres; cases hres
    | ok slots =>
      rw [hslots] at hres
      refine ⟨moves, slots, List.suffix_rfl, ?_, le_rfl, hslots, (Except.ok.inj hres).symm⟩
      exact Int.sub_le_self _ (by decide)
  · -- found, and not expired
    have hc := cached_run hcached
    obtain ⟨earlier, slots, hsuffix, hnow, hslots, hvalue⟩ := hc.current
    have hlive := hexpire _ _ hcached
    rw [hc.ttl, ← hnow] at hlive
    rw [Redis.lookup, hcached] at hres
    replace hres : cachedSlots entry.value = .ok items := hres
    rw [hvalue, cachedSlots_dumps] at hres
    refine ⟨earlier, slots, hsuffix, ?_, now_le_of_suffix hsuffix, hslots,
      (Except.ok.inj hres).symm⟩
    exact Int.sub_right_le_of_le_add hlive.le

namespace Scenario

/-- A session of one hour. -/
def shortSession : Settings := { BookingApi.settings with sessionEndHour := 10 }

/-- A minute after somebody has asked for the slots of a day. -/
def cachedDay : List Move :=
  .env (.tick 60000000)
    :: .serve ⟨bearer admin, .getAvailability 1 Concurrent.Scenario.date⟩ :: installation

theorem now_cachedDay : (run .transparent shortSession .initial cachedDay).now = 60000000 := by
  have hadmin : (run .transparent shortSession .initial
      [.createAdmin "" "ann@example.com" "secret"]).now = 0 := World.now_run _ _ _
  rw [cachedDay, now_tick, run_serve, World.now_serve, installation, run_serve, World.now_serve,
    hadmin]
  rfl

theorem keysExpire_cachedDay : KeysExpire .transparent shortSession cachedDay := by
  intro key entry h
  by_cases hkey : key = cacheKey 1 Concurrent.Scenario.date
  · subst hkey
    have hstored := zero_le_storedAt .transparent shortSession
      (cacheKey 1 Concurrent.Scenario.date) cachedDay
    rw [(cached_run h).ttl, now_cachedDay]
    exact (show (60000000 : ℤ) < 0 + cacheTtl * 1000000 by decide).trans_le
      (Int.add_le_add_right hstored _)
  · -- no other key was ever set
    have htick : ¬ (Move.env (.tick 60000000)).keys key := id
    have hslots : ¬ (Move.serve ⟨bearer admin, .getAvailability 1 Concurrent.Scenario.date⟩).keys
      key := hkey
    have hhall : ¬ (Move.serve ⟨bearer admin, .createHall Concurrent.Scenario.hallBody⟩).keys key :=
      id
    have hadmin : ¬ (Move.createAdmin "" "ann@example.com" "secret").keys key := id
    rw [cachedDay, redis_run_cons htick, redis_run_cons hslots, installation, redis_run_cons hhall,
      redis_run_cons hadmin] at h
    cases h

end Scenario

open Scenario (shortSession cachedDay keysExpire_cachedDay) in
/-- The answer that was stored a minute ago. -/
theorem getAvailableSlots_cachedDay : ∃ items,
    answer .transparent shortSession .initial cachedDay
      (getAvailableSlots shortSession 1 Concurrent.Scenario.date) = .ok items ∧
    ∃ earlier slots, earlier <:+ cachedDay ∧
      slotsOf shortSession 1 Concurrent.Scenario.date
        (run .transparent shortSession .initial earlier).db = .ok slots ∧
      items = slots.map Slot.toJson := by
  have hok : (answer .transparent shortSession .initial cachedDay
      (getAvailableSlots shortSession 1 Concurrent.Scenario.date)).isOk := by decide +kernel
  cases hanswer : answer .transparent shortSession .initial cachedDay
      (getAvailableSlots shortSession 1 Concurrent.Scenario.date) with
  | error e =>
    rw [hanswer] at hok
    cases hok
  | ok items =>
    obtain ⟨⟨earlier, slots, hsuffix, -, -, hslots⟩, -⟩ :=
      getAvailableSlots_current keysExpire_cachedDay hanswer
    exact ⟨items, rfl, earlier, slots, hsuffix, hslots⟩

end BookingApi.Api
