import BookingApi.CachedSlots.Basic
import BookingApi.Concurrent.Bystanders
import BookingApi.ReadThrough.Basic

/-!
# The order of cached slots

The calls of `get_available_slots` are those of a read-through cache (`readThrough_step`), each with
the slots of the state that it names (`Inv`).  Hence a call that starts after another has returned
returns the slots of no older state, unless it finds slots that were stored late
(`not_older_or_lateStore_slots`), which does happen: `exists_older_slots`.
-/

namespace BookingApi.CachedSlots

open Async BookingService

variable {settings : Settings} {hallId : ℤ} {date : Date} {c c' : Config} {a : Action} {db : Db}

/-! ### The slots of a call -/

/-- The slots of the state with the number. -/
def SlotsAt (settings : Settings) (hallId : ℤ) (date : Date) (c : Config) (v : ℕ)
    (slots : List Slot) : Prop :=
  v ≤ c.version ∧ slotsOf settings hallId date (c.states v) = .ok slots

/-- What a call has are the slots of the state that it names. -/
def Call.Holds (settings : Settings) (hallId : ℤ) (date : Date) (c : Config) : Call → Prop
  | storing slots v => SlotsAt settings hallId date c v slots
  | returning items v | returned items v =>
    ∃ slots, items = slots.map Slot.toJson ∧ SlotsAt settings hallId date c v slots
  | _ => True

structure Inv (settings : Settings) (hallId : ℤ) (date : Date) (c : Config) : Prop where
  db : c.world.db = c.states c.version
  entry : ∀ entry, c.world.redis (cacheKey hallId date) = some entry →
    ∃ slots, entry.value = Json.dumps (.arr (slots.map Slot.toJson)) ∧
      SlotsAt settings hallId date c c.source slots
  calls : ∀ i, (c.calls i).Holds settings hallId date c

theorem inv_start (db : Db) : Inv settings hallId date (start db) :=
  ⟨rfl, fun _ h => absurd h (by simp [start, World.initial]), fun _ => trivial⟩

/-- States keep their numbers. -/
theorem SlotsAt.committed {v : ℕ} {slots : List Slot} (h : SlotsAt settings hallId date c v slots)
    (db : Db) : SlotsAt settings hallId date (c.committed db) v slots := by
  refine ⟨h.1.trans (Nat.le_succ _), ?_⟩
  have hne : v ≠ c.version + 1 := by
    have := h.1
    omega
  show slotsOf settings hallId date (Function.update c.states (c.version + 1) db v) = _
  rw [Function.update_of_ne hne]
  exact h.2

theorem Call.Holds.committed {call : Call} (h : call.Holds settings hallId date c) (db : Db) :
    call.Holds settings hallId date (c.committed db) := by
  cases call with
  | storing slots v => exact SlotsAt.committed h db
  | returning items v | returned items v =>
    obtain ⟨slots, hitems, hslots⟩ := h
    exact ⟨slots, hitems, hslots.committed db⟩
  | _ => trivial

/-- What the `GET` finds. -/
theorem Inv.afterGet (hinv : Inv settings hallId date c) :
    (c.world.redis (cacheKey hallId date) = none ∧
      afterGet c.source (c.world.redis.lookup (cacheKey hallId date)) = .calculating) ∨
    ∃ entry slots, c.world.redis (cacheKey hallId date) = some entry ∧
      SlotsAt settings hallId date c c.source slots ∧
      CachedSlots.afterGet c.source (c.world.redis.lookup (cacheKey hallId date))
        = .returning (slots.map Slot.toJson) c.source := by
  rcases hentry : c.world.redis (cacheKey hallId date) with _ | entry
  · refine .inl ⟨rfl, ?_⟩
    rw [Redis.lookup, hentry]
    rfl
  · obtain ⟨slots, hvalue, hslots⟩ := hinv.entry entry hentry
    refine .inr ⟨entry, slots, rfl, hslots, ?_⟩
    rw [Redis.lookup, hentry, Option.map_some, CachedSlots.afterGet, hvalue,
      if_neg (dumps_arr_ne_empty _), cachedSlots_dumps]

theorem Inv.set (hinv : Inv settings hallId date c) {i : ℕ} {call : Call}
    (hcall : call.Holds settings hallId date c) : Inv settings hallId date (c.set i call) := by
  refine ⟨hinv.db, hinv.entry, fun j => ?_⟩
  by_cases hj : j = i
  · subst hj
    show (Function.update c.calls j call j).Holds settings hallId date c
    rwa [Function.update_self]
  · show (Function.update c.calls i call j).Holds settings hallId date c
    rw [Function.update_of_ne hj]
    exact hinv.calls j

theorem Inv.step (hinv : Inv settings hallId date c)
    (h : step settings hallId date c a = some c') : Inv settings hallId date c' := by
  cases steps_of_step h with
  | start hi => exact hinv.set trivial
  | look hi =>
    refine hinv.set ?_
    rcases hinv.afterGet with ⟨-, he⟩ | ⟨entry, slots, -, hslots, he⟩ <;> rw [he]
    · trivial
    · exact ⟨slots, rfl, hslots⟩
  | calculate hi hslots =>
    rw [hinv.db] at hslots
    exact hinv.set ⟨le_rfl, hslots⟩
  | raise hi he => exact hinv.set trivial
  | @store i slots v hi =>
    have hslots : SlotsAt settings hallId date c v slots := by
      have hholds := hinv.calls i
      rwa [hi] at hholds
    have hset : Inv settings hallId date (c.set i (.returning (slots.map Slot.toJson) v)) :=
      hinv.set ⟨slots, rfl, hslots⟩
    refine ⟨hinv.db, fun entry hentry => ?_, hset.calls⟩
    obtain rfl := Option.some.inj ((redis_cacheSlots c.world hallId date slots).symm.trans hentry)
    exact ⟨slots, rfl, hslots⟩
  | @ret i items v hi =>
    have hholds := hinv.calls i
    rw [hi] at hholds
    exact hinv.set hholds
  | commit db =>
    refine ⟨?_, fun entry hentry => ?_, fun i => (hinv.calls i).committed db⟩
    · exact (Function.update_self (c.version + 1) db c.states).symm
    · obtain ⟨slots, hvalue, hslots⟩ := hinv.entry entry hentry
      exact ⟨slots, hvalue, hslots.committed db⟩
  | env e =>
    cases e with
    | tick micros => exact ⟨hinv.db, hinv.entry, hinv.calls⟩
    | expire key =>
      refine ⟨hinv.db, fun entry hentry => ?_, hinv.calls⟩
      rcases Redis.expire_apply c.world.redis key (cacheKey hallId date) with hnone | hsame
      · exact absurd (hentry.symm.trans hnone) (by simp)
      · exact hinv.entry entry (hsame.symm.trans hentry)

/-! ### The calls as a read-through cache -/

def Call.phase : Call → ReadThrough.Phase
  | idle => .idle
  | looking => .looking
  | calculating => .reading
  | storing _ v => .storing v
  | returning _ v => .returning v
  | returned _ v => .returned v
  | raised _ => .failed

def Config.readThrough (hallId : ℤ) (date : Date) (c : Config) : ReadThrough.Config ℕ where
  version := c.version
  cached := (c.world.redis (cacheKey hallId date)).map fun _ => c.source
  newest := c.newest
  calls i := (c.calls i).phase

def Action.readThrough (hallId : ℤ) (date : Date) : Action → ReadThrough.Action ℕ
  | start i => .start i
  | look i => .look i
  | calculate i => .read i
  | raise i => .fail i
  | store i => .store i
  | ret i => .ret i
  | commit _ => .commit
  | env (.expire key) => if key = cacheKey hallId date then .expire else .other
  | env (.tick _) => .other

theorem readThrough_set (c : Config) (i : ℕ) (call : Call) :
    (c.set i call).readThrough hallId date = (c.readThrough hallId date).set i call.phase := by
  have hcalls : (fun j => (Function.update c.calls i call j).phase)
      = Function.update (fun j => (c.calls j).phase) i call.phase := by
    funext j
    by_cases hj : j = i
    · subst hj
      rw [Function.update_self, Function.update_self]
    · rw [Function.update_of_ne hj, Function.update_of_ne hj]
  simp only [Config.readThrough, Config.set, ReadThrough.Config.set, hcalls]

/-- **Every step** is one of the read-through cache. -/
theorem readThrough_step (hinv : Inv settings hallId date c)
    (h : step settings hallId date c a = some c') :
    ReadThrough.step (c.readThrough hallId date) (a.readThrough hallId date)
      = some (c'.readThrough hallId date) := by
  cases steps_of_step h with
  | start hi =>
    have hcall : (c.readThrough hallId date).calls _ = .idle := congrArg Call.phase hi
    rw [Action.readThrough, ReadThrough.step, if_pos hcall, readThrough_set]
    rfl
  | look hi =>
    have hcall : (c.readThrough hallId date).calls _ = .looking := congrArg Call.phase hi
    rw [Action.readThrough, ReadThrough.step, if_pos hcall, readThrough_set]
    rcases hinv.afterGet with ⟨hnone, he⟩ | ⟨entry, slots, hentry, -, he⟩
    · simp only [Config.readThrough, hnone, he, Option.map_none]
      rfl
    · simp only [Config.readThrough, hentry, he, Option.map_some]
      rfl
  | calculate hi hslots =>
    have hcall : (c.readThrough hallId date).calls _ = .reading := congrArg Call.phase hi
    rw [Action.readThrough, ReadThrough.step, if_pos hcall, readThrough_set]
    rfl
  | raise hi he =>
    have hcall : (c.readThrough hallId date).calls _ = .reading := congrArg Call.phase hi
    rw [Action.readThrough, ReadThrough.step, if_pos hcall, readThrough_set]
    rfl
  | @store i slots v hi =>
    have hcall : (c.readThrough hallId date).calls i = .storing v := congrArg Call.phase hi
    -- the entry is written and its version noted in one step
    have hcached : ((c.stored hallId date i slots v).readThrough hallId date).cached = some v := by
      show ((cacheSlots c.world hallId date slots).redis (cacheKey hallId date)).map _ = _
      rw [redis_cacheSlots]
      rfl
    have hcalls : ((c.stored hallId date i slots v).readThrough hallId date).calls
        = ((c.readThrough hallId date).set i (.returning v)).calls := by
      have hset : (c.set i (.returning (slots.map Slot.toJson) v)).readThrough hallId date
          = (c.readThrough hallId date).set i (.returning v) := readThrough_set c i _
      rw [← hset]
      rfl
    rw [Action.readThrough, ReadThrough.step]
    simp only [hcall]
    rw [← hcached, ← hcalls]
    rfl
  | @ret i items v hi =>
    have hcall : (c.readThrough hallId date).calls i = .returning v := congrArg Call.phase hi
    rw [Action.readThrough, ReadThrough.step]
    simp only [hcall, readThrough_set]
    rfl
  | commit db => rfl
  | env e =>
    cases e with
    | tick micros => rfl
    | expire key =>
      -- the other keys, those of locks among them, are not the cache
      by_cases hkey : key = cacheKey hallId date
      · rw [Action.readThrough, if_pos hkey, ReadThrough.step]
        have hnone : (c.world.redis.expire key) (cacheKey hallId date) = none := by
          rw [Redis.expire, hkey, Function.update_self]
        simp only [Config.readThrough, World.env, World.setRedis, hnone, Option.map_none]
      · rw [Action.readThrough, if_neg hkey, ReadThrough.step]
        have hsame : (c.world.redis.expire key) (cacheKey hallId date)
            = c.world.redis (cacheKey hallId date) :=
          Function.update_of_ne (Ne.symm hkey) _ _
        simp only [Config.readThrough, World.env, World.setRedis, hsame]

/-! ### Runs -/

variable {tr tr₁ tr₂ : List (Transition Config Action)} {c₁ c₂ : Config}

/-- The slots of a state are stored after those of a newer one. -/
def LateStore (t : Transition Config Action) (v : ℕ) : Prop :=
  ∃ i slots, t.action = .store i ∧ t.before.calls i = .storing slots v ∧ v < t.before.newest

theorem inv_run (h : Run (step settings hallId date) (start db) tr c) :
    Inv settings hallId date c :=
  h.invariant_of_step (inv_start db) fun hinv hstep => hinv.step hstep

theorem readThrough_run (hinv : Inv settings hallId date c)
    (h : Run (step settings hallId date) c tr c') :
    Run ReadThrough.step (c.readThrough hallId date)
      (tr.map fun t => ⟨t.before.readThrough hallId date, t.action.readThrough hallId date,
        t.after.readThrough hallId date⟩) (c'.readThrough hallId date) :=
  (h.map (f := fun c => c.readThrough hallId date) (g := fun a => a.readThrough hallId date) hinv
    fun hinv hstep => ⟨hinv.step hstep, readThrough_step hinv hstep⟩).2

theorem readThrough_start (db : Db) :
    (start db).readThrough hallId date = ReadThrough.start := rfl

/-- A late store of the read-through cache is one of slots. -/
theorem lateStore_of_readThrough {t : Transition Config Action} {v : ℕ}
    (h : ReadThrough.LateStore ⟨t.before.readThrough hallId date, t.action.readThrough hallId date,
      t.after.readThrough hallId date⟩ v) : LateStore t v := by
  obtain ⟨i, haction, hcall, hlt⟩ := h
  obtain ⟨before, action, after⟩ := t
  have hstore : action = .store i := by
    cases action with
    | store j => exact congrArg Action.store (ReadThrough.Action.store.inj haction)
    | env e =>
      cases e with
      | tick micros => cases haction
      | expire key =>
        simp only [Action.readThrough] at haction
        split_ifs at haction
    | _ => cases haction
  have hstoring : ∃ slots, before.calls i = .storing slots v := by
    change (before.calls i).phase = .storing v at hcall
    cases hbefore : before.calls i with
    | storing slots v' =>
      rw [hbefore] at hcall
      exact ⟨slots, congrArg _ (ReadThrough.Phase.storing.inj hcall)⟩
    | _ =>
      rw [hbefore] at hcall
      cases hcall
  obtain ⟨slots, hslots⟩ := hstoring
  exact ⟨i, slots, hstore, hslots, hlt⟩

/-- What a call returns are the slots of the state that it names. -/
theorem slotsAt_of_returned (hinv : Inv settings hallId date c) {i : ℕ} {items : List Json} {v : ℕ}
    (hi : c.calls i = .returned items v) :
    ∃ slots, items = slots.map Slot.toJson ∧ SlotsAt settings hallId date c v slots := by
  have hholds := hinv.calls i
  rwa [hi] at hholds

/-- **The order of answers.**  A call that starts after another has returned returns the slots of no
older state, unless these were stored after the slots of a newer state. -/
theorem not_older_or_lateStore_slots {i j : ℕ} {items items' : List Json} {v v' : ℕ}
    (h₁ : Run (step settings hallId date) (start db) tr₁ c₁)
    (hi : c₁.calls i = .returned items v) (hj : c₁.calls j = .idle)
    (h₂ : Run (step settings hallId date) c₁ tr₂ c₂) (hj' : c₂.calls j = .returned items' v') :
    (∃ slots, items = slots.map Slot.toJson ∧ SlotsAt settings hallId date c₁ v slots) ∧
      (∃ slots, items' = slots.map Slot.toJson ∧ SlotsAt settings hallId date c₂ v' slots) ∧
      (v ≤ v' ∨ ∃ t ∈ tr₂ ++ tr₁, LateStore t v') := by
  have hinv₁ := inv_run h₁
  refine ⟨slotsAt_of_returned hinv₁ hi, slotsAt_of_returned (inv_run (h₁.trans h₂)) hj', ?_⟩
  have hrun₁ := readThrough_run (inv_start db) h₁
  rw [readThrough_start] at hrun₁
  have hphase : (c₁.readThrough hallId date).calls i = .returned v := congrArg Call.phase hi
  have hidle : (c₁.readThrough hallId date).calls j = .idle := congrArg Call.phase hj
  have hphase' : (c₂.readThrough hallId date).calls j = .returned v' := congrArg Call.phase hj'
  rcases ReadThrough.not_older_or_lateStore hrun₁ hphase hidle (readThrough_run hinv₁ h₂) hphase'
    with hle | ⟨t, ht, hlate⟩
  · exact .inl hle
  · rw [← List.map_append] at ht
    obtain ⟨t', ht', rfl⟩ := List.mem_map.mp ht
    exact .inr ⟨t', ht', lateStore_of_readThrough hlate⟩

/-! ### A late store -/

/-- The first call misses and reads; a commit; the second call misses, reads, stores and returns. -/
def overtaking (db' : Db) : List Action :=
  [.start 0, .look 0, .calculate 0, .commit db', .start 1, .look 1, .calculate 1, .store 1, .ret 1]

/-- The first call stores; the third call finds what it has stored. -/
def overtaken : List Action := [.store 0, .start 2, .look 2, .ret 2]

/-- The third call returns the slots of the old state after the second has returned those of the new
one. -/
theorem exists_older {db' : Db} {slots slots' : List Slot}
    (hslots : slotsOf settings hallId date db = .ok slots)
    (hslots' : slotsOf settings hallId date db' = .ok slots') :
    ∃ tr₁ tr₂ c₁ c₂, Run (step settings hallId date) (start db) tr₁ c₁ ∧
      c₁.calls 1 = .returned (slots'.map Slot.toJson) 1 ∧ c₁.calls 2 = .idle ∧
      Run (step settings hallId date) c₁ tr₂ c₂ ∧
      c₂.calls 2 = .returned (slots.map Slot.toJson) 0 := by
  obtain ⟨c₁, h₁, h0, h1, h2⟩ : ∃ c₁,
      replay (step settings hallId date) (overtaking db') (start db) = some c₁ ∧
      c₁.calls 0 = .storing slots 0 ∧
      c₁.calls 1 = .returned (slots'.map Slot.toJson) 1 ∧ c₁.calls 2 = .idle := by
    simp [overtaking, replay, step, start, Config.set, hslots, hslots', World.initial, afterGet,
      Redis.lookup, cacheSlots, World.setRedis]
  obtain ⟨c₂, h₂, h2'⟩ : ∃ c₂, replay (step settings hallId date) overtaken c₁ = some c₂ ∧
      c₂.calls 2 = .returned (slots.map Slot.toJson) 0 := by
    have hfound : afterGet 0 (some (Json.dumps (.arr (slots.map Slot.toJson))))
        = .returning (slots.map Slot.toJson) 0 := by
      rw [afterGet, if_neg (dumps_arr_ne_empty _), cachedSlots_dumps]
    simp [overtaken, replay, step, Config.set, h0, h2, Redis.lookup, redis_cacheSlots, hfound]
  obtain ⟨tr₁, hrun₁⟩ := Run.of_replay h₁
  obtain ⟨tr₂, hrun₂⟩ := Run.of_replay h₂
  exact ⟨tr₁, tr₂, c₁, c₂, hrun₁, h1, h2, hrun₂, h2'⟩

namespace Scenario

open Concurrent.Scenario (oclock)

/-- A hall with one seat. -/
def freeDb : Db :=
  Db.empty.applyAll [.insertHall ⟨1, "Red", 10, 1000, true, 0⟩, .insertSeat ⟨1, 1, 1, 1, true⟩]

/-- The seat is booked from nine to ten. -/
def bookedDb : Db :=
  freeDb.applyAll [.insertBooking ⟨1, 1, 1, (oclock 9).instant, (oclock 10).instant, 1000,
    .confirmed, 0⟩, .insertBookingSeat ⟨1, 1, 1⟩]

theorem exists_slots : ∃ slots slots',
    slotsOf BookingApi.settings 1 Concurrent.Scenario.date freeDb = .ok slots ∧
      slotsOf BookingApi.settings 1 Concurrent.Scenario.date bookedDb = .ok slots' ∧
      slots ≠ slots' := by
  have hfree : (slotsOf BookingApi.settings 1 Concurrent.Scenario.date freeDb).map
      (List.map Slot.freeSeats) = .ok (List.replicate 14 1) := by decide +kernel
  have hbooked : (slotsOf BookingApi.settings 1 Concurrent.Scenario.date bookedDb).map
      (List.map Slot.freeSeats) = .ok (0 :: List.replicate 13 1) := by decide +kernel
  cases hslots : slotsOf BookingApi.settings 1 Concurrent.Scenario.date freeDb with
  | error e =>
    rw [hslots] at hfree
    cases hfree
  | ok slots =>
    cases hslots' : slotsOf BookingApi.settings 1 Concurrent.Scenario.date bookedDb with
    | error e =>
      rw [hslots'] at hbooked
      cases hbooked
    | ok slots' =>
      refine ⟨slots, slots', rfl, rfl, ?_⟩
      rintro rfl
      rw [hslots] at hfree
      rw [hslots'] at hbooked
      exact absurd (hfree.symm.trans hbooked) (by decide)

end Scenario

open Scenario in
/-- A run with a late store. -/
theorem exists_lateStore : ∃ (tr : List (Transition Config Action)) (c : Config),
    Run (step BookingApi.settings 1 Concurrent.Scenario.date) (start freeDb) tr c ∧
      ∃ t ∈ tr, LateStore t 0 := by
  obtain ⟨slots, slots', hslots, hslots', -⟩ := exists_slots
  obtain ⟨tr₁, tr₂, c₁, c₂, h₁, hc₁, hidle, h₂, hc₂⟩ := exists_older hslots hslots'
  refine ⟨tr₂ ++ tr₁, c₂, h₁.trans h₂, ?_⟩
  exact (not_older_or_lateStore_slots h₁ hc₁ hidle h₂ hc₂).2.2.resolve_left (by decide)

open Scenario in
/-- The slots before a booking are returned after the slots with the booking. -/
theorem exists_older_slots : ∃ (tr₁ tr₂ : List (Transition Config Action))
    (c₁ c₂ : Config) (slots slots' : List Slot),
    Run (step BookingApi.settings 1 Concurrent.Scenario.date) (start freeDb) tr₁ c₁ ∧
      c₁.calls 1 = .returned (slots'.map Slot.toJson) 1 ∧ c₁.calls 2 = .idle ∧
      Run (step BookingApi.settings 1 Concurrent.Scenario.date) c₁ tr₂ c₂ ∧
      c₂.calls 2 = .returned (slots.map Slot.toJson) 0 ∧ slots ≠ slots' := by
  obtain ⟨slots, slots', hslots, hslots', hne⟩ := exists_slots
  obtain ⟨tr₁, tr₂, c₁, c₂, h₁, hc₁, hidle, h₂, hc₂⟩ := exists_older hslots hslots'
  exact ⟨tr₁, tr₂, c₁, c₂, slots, slots', h₁, hc₁, hidle, h₂, hc₂, hne⟩

end BookingApi.CachedSlots
