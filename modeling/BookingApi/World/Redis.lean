import Mathlib.Logic.Function.Basic
import Mathlib.Data.Int.Notation
import Mathlib.Data.Nat.Notation
import Mathlib.Tactic.SplitIfs

/-!
# Redis

One key space of strings, each key with a time to live in seconds, and the four commands that the
booking service sends.  Each command is atomic.
-/

namespace BookingApi

structure RedisEntry where
  value : String
  ttl : ℕ
deriving DecidableEq

abbrev Redis := String → Option RedisEntry

/-- A command, with the type of its reply. -/
inductive RedisCommand : Type → Type
  | get (key : String) : RedisCommand (Option String)
  | setex (key : String) (ttl : ℕ) (value : String) : RedisCommand Unit
  /-- `SET key value NX EX ex`. -/
  | setNx (key value : String) (ex : ℕ) : RedisCommand Bool
  /-- `EVAL LOCK_RELEASE_SCRIPT 1 key token`. -/
  | evalRelease (key token : String) : RedisCommand ℤ

namespace Redis

def lookup (rd : Redis) (key : String) : Option String := (rd key).map RedisEntry.value

/-- `LOCK_RELEASE_SCRIPT`: delete the key if it still holds the token. -/
def lockReleaseScript (rd : Redis) (key token : String) : ℤ × Redis :=
  if rd.lookup key = some token then (1, Function.update rd key none) else (0, rd)

def exec (rd : Redis) : ∀ {β : Type}, RedisCommand β → β × Redis
  | _, .get key => (rd.lookup key, rd)
  | _, .setex key ttl value => ((), Function.update rd key (some ⟨value, ttl⟩))
  | _, .setNx key value ex =>
    if (rd key).isSome then (false, rd) else (true, Function.update rd key (some ⟨value, ex⟩))
  | _, .evalRelease key token => rd.lockReleaseScript key token

/-- A key expires. -/
def expire (rd : Redis) (key : String) : Redis := Function.update rd key none

theorem expire_apply (rd : Redis) (key key' : String) :
    rd.expire key key' = none ∨ rd.expire key key' = rd key' := by
  rw [expire, Function.update_apply]
  split_ifs
  · exact .inl rfl
  · exact .inr rfl

/-! ### Looking up a key -/

theorem lookup_update (rd : Redis) (key key' : String) (entry : Option RedisEntry) :
    lookup (Function.update rd key entry) key'
      = if key' = key then entry.map RedisEntry.value else rd.lookup key' := by
  rw [lookup, Function.update_apply]
  split_ifs <;> rfl

theorem lookup_lockReleaseScript (rd : Redis) (key token key' : String) :
    (rd.lockReleaseScript key token).2.lookup key'
      = if key' = key ∧ rd.lookup key = some token then none else rd.lookup key' := by
  rw [lockReleaseScript]
  by_cases h : rd.lookup key = some token
  · rw [if_pos h]
    simp only [lookup_update, h, and_true, Option.map_none]
  · rw [if_neg h]
    simp only [h, and_false, if_false]

/-- Acquiring a free lock and releasing it leaves Redis as it was. -/
theorem lockReleaseScript_update {rd : Redis} {key token : String} {ttl : ℕ} (h : rd key = none) :
    (lockReleaseScript (Function.update rd key (some ⟨token, ttl⟩)) key token).2 = rd := by
  have hl : lookup (Function.update rd key (some ⟨token, ttl⟩)) key = some token := by
    rw [lookup_update, if_pos rfl]
    rfl
  rw [lockReleaseScript, if_pos hl]
  show Function.update (Function.update rd key _) key none = rd
  rw [Function.update_idem, ← h, Function.update_eq_self]

end Redis

end BookingApi
