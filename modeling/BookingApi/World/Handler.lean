import BookingApi.World.Basic

/-!
# Handlers

The awaits of a handler, and `get_db`, which commits the transaction when the handler has returned
and rolls it back when the handler or the commit has raised.  Closing the session afterwards does
nothing to the data, and is left out.
-/

namespace BookingApi

open Async

variable {α β : Type}

def execute (query : Db → β) : App β := .perform (.execute query)

def flush (statement : Statement β) : App β := .perform (.flush statement)

def redisCall (command : RedisCommand β) : App β := .perform (.redis command)

def sendBookingEvent (event : BookingEvent) : App Unit := .perform (.send event)

/-- The dependency `get_db` around a handler. -/
def getDb (handler : App α) : App α :=
  Program.tryCatch
    (do
      let a ← handler
      -- inside the `try`: an exception of the commit is followed by a rollback
      Program.perform .commit
      return a)
    fun e => do
      Program.perform .rollback
      Program.raise e

/-- One request alone: its handler inside `get_db`, without interruption or fault. -/
def serve (r : RequestId) (handler : App α) (w : World) : Except Exc α × World :=
  (getDb handler).run (World.exec r) w

/-! ### The operations of a handler -/

section

variable {P : ∀ β : Type, Op β → Prop}

/-- The predicate holds of every query. -/
def AllowsQueries (P : ∀ β : Type, Op β → Prop) : Prop :=
  ∀ {β : Type} (query : Db → β), P β (.execute query)

theorem uses_execute (hP : AllowsQueries P) (query : Db → β) : (execute query).Uses P :=
  Program.uses_perform (hP query)

theorem uses_flush {statement : Statement β} (h : P β (.flush statement)) :
    (flush statement).Uses P :=
  Program.uses_perform h

/-- `get_db` adds the end of the transaction. -/
theorem uses_getDb {handler : App α} (h : handler.Uses P) (hcommit : P Unit .commit)
    (hrollback : P Unit .rollback) : (getDb handler).Uses P :=
  .tryCatch (.bind h fun _ => .bind (Program.uses_perform hcommit) fun _ => trivial)
    fun _ => .bind (Program.uses_perform hrollback) fun _ => trivial

end

/-! ### Uninterrupted execution -/

variable (r : RequestId) (w : World)

@[simp] theorem run_execute (query : Db → β) :
    (execute query).run (World.exec r) w = (.ok (query (w.view r)), w) :=
  Program.run_perform _ _ _

@[simp] theorem run_flush (statement : Statement β) :
    (flush statement).run (World.exec r) w = World.exec r _ (.flush statement) w :=
  Program.run_perform _ _ _

@[simp] theorem run_redisCall (command : RedisCommand β) :
    (redisCall command).run (World.exec r) w
      = (.ok (w.redis.exec command).1, w.setRedis (w.redis.exec command).2) :=
  Program.run_perform _ _ _

/-- A handler that returns is committed; one that raises is rolled back. -/
theorem serve_eq (handler : App α) :
    serve r handler w = match handler.run (World.exec r) w with
      | (.ok a, w') => (.ok a, w'.commit r)
      | (.error e, w') => (.error e, w'.close r) := by
  rw [serve, getDb, Program.run_tryCatch, Program.bind_eq, Program.run_bind]
  cases handler.run (World.exec r) w with
  | mk res w' => cases res <;> rfl

theorem serve_fst (handler : App α) :
    (serve r handler w).1 = (handler.run (World.exec r) w).1 := by
  rw [serve_eq]
  rcases handler.run (World.exec r) w with ⟨e | a, w'⟩ <;> rfl

/-- A function of the answer. -/
theorem serve_map (handler : App α) (f : α → β) :
    serve r (handler.bind (.ret ∘ f)) w = ((serve r handler w).1.map f, (serve r handler w).2) := by
  rw [serve_eq, serve_eq, Program.run_map]
  rcases handler.run (World.exec r) w with ⟨e | a, w'⟩ <;> rfl

end BookingApi
