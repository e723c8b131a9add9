import BookingApi.Async.Interleaving
import BookingApi.Models.Writes
import BookingApi.World.Event
import BookingApi.World.Redis

/-!
# The shared world

What the requests share: the committed tables, the row changes of the transactions that are still
open, the id sequences, Redis and the Kafka topic.  A request awaits six kinds of operations on it
(`Op`).  A query sees the committed rows and the changes of its own transaction (READ COMMITTED);
`commit` applies these changes to the rows that are committed by then, and `rollback` drops them.
-/

namespace BookingApi

open Async

abbrev RequestId := ℕ

/-- What a flush does: it hands out ids, and either violates a constraint or changes rows and
returns. -/
abbrev Statement (β : Type) := Instant → Sequences → Db → Except Exc (β × List Write) × Sequences

/-- A flush numbers and changes rows of some tables only. -/
structure Concerns {β : Type} (tables : List TableName) (statement : Statement β) : Prop where
  next : ∀ now seqs db, ∀ table ∉ tables, (statement now seqs db).2.next table = seqs.next table
  writes : ∀ now seqs db b ws, (statement now seqs db).1 = .ok (b, ws) →
    ∀ x ∈ ws, x.table ∈ tables

theorem Concerns.mono {β : Type} {tables tables' : List TableName} {statement : Statement β}
    (h : Concerns tables statement) (hsub : ∀ table ∈ tables, table ∈ tables') :
    Concerns tables' statement :=
  ⟨fun now seqs db table htable => h.next now seqs db table fun hmem => htable (hsub table hmem),
    fun now seqs db b ws hs x hx => hsub _ (h.writes now seqs db b ws hs x hx)⟩

inductive Op : Type → Type 1
  /-- `db.execute(select(...))`. -/
  | execute {β : Type} (query : Db → β) : Op β
  /-- `db.flush()`. -/
  | flush {β : Type} (statement : Statement β) : Op β
  | commit : Op Unit
  | rollback : Op Unit
  | redis {β : Type} (command : RedisCommand β) : Op β
  /-- `producer.send_and_wait(topic, value=event)`. -/
  | send (event : BookingEvent) : Op Unit

/-- A handler, or a part of one. -/
abbrev App := Program Op Exc

/-- An event in the topic, and the request that sent it. -/
structure Message where
  sender : RequestId
  event : BookingEvent
deriving DecidableEq

structure World where
  now : Instant
  /-- The committed rows. -/
  db : Db
  sequences : Sequences
  /-- The changes of the open transactions, each with its request, in order. -/
  pending : List (RequestId × Write)
  redis : Redis
  topic : List Message

namespace World

/-- The changes of the open transaction of a request. -/
def writesOf (w : World) (r : RequestId) : List Write :=
  (w.pending.filter fun p => p.1 = r).map Prod.snd

/-- What a query of a request sees. -/
def view (w : World) (r : RequestId) : Db := w.db.applyAll (w.writesOf r)

/-- End the transaction of a request: its changes are no longer pending. -/
def close (w : World) (r : RequestId) : World :=
  { w with pending := w.pending.filter fun p => p.1 ≠ r }

/-- Add changes to the transaction of a request. -/
def stage (w : World) (r : RequestId) (ws : List Write) : World :=
  { w with pending := w.pending ++ ws.map fun x => (r, x) }

/-- End the transaction of a request: its changes are made to the committed rows. -/
def commit (w : World) (r : RequestId) : World := { w with db := w.view r }.close r

def setSequences (w : World) (sequences : Sequences) : World := { w with sequences }

def setRedis (w : World) (redis : Redis) : World := { w with redis }

/-- Append an event of a request to the topic. -/
def publish (w : World) (r : RequestId) (event : BookingEvent) : World :=
  { w with topic := w.topic ++ [⟨r, event⟩] }

/-- The operation returns or raises of its own accord. -/
def exec (r : RequestId) : ∀ β : Type, Op β → World → Except Exc β × World
  | _, .execute query, w => (.ok (query (w.view r)), w)
  | _, .flush statement, w =>
    match statement w.now w.sequences (w.view r) with
    | (.ok (b, ws), seqs) => (.ok b, (w.setSequences seqs).stage r ws)
    -- a sequence is never set back
    | (.error e, seqs) => (.error e, w.setSequences seqs)
  | _, .commit, w => (.ok (), w.commit r)
  | _, .rollback, w => (.ok (), w.close r)
  | _, .redis command, w =>
    (.ok (w.redis.exec command).1, w.setRedis (w.redis.exec command).2)
  | _, .send event, w => (.ok (), w.publish r event)

/-- A flush waits while another transaction has changed a row that it updates, or wants the same
value of a unique column. -/
def enabled (r : RequestId) : ∀ β : Type, Op β → World → Bool
  | _, .flush statement, w =>
    match (statement w.now w.sequences (w.view r)).1 with
    | .ok (_, ws) => ws.all fun x => w.pending.all fun p => p.1 = r ∨ ¬ Write.conflicts p.2 x
    | .error _ => true
  | _, _, _ => true

/-- How an awaited operation can fail. -/
inductive Fault
  /-- It raises without effect. -/
  | noEffect
  /-- The driver or the server refuses a value of the statement, such as an id that its column
  cannot hold.  Which values these are is left open. -/
  | refused
  /-- The event is appended, but its acknowledgement is lost. -/
  | acknowledgementLost
deriving DecidableEq

/-- The exception of the driver, and the world after the fault.  The connection of a failed rollback
is closed, which ends the transaction as well. -/
def fault (r : RequestId) : ∀ β : Type, Op β → Fault → World → Option (Exc × World)
  | _, .execute _, .noEffect, w => some (.operationalError, w)
  | _, .flush _, .noEffect, w => some (.operationalError, w)
  | _, .commit, .noEffect, w => some (.operationalError, w)
  | _, .rollback, .noEffect, w => some (.operationalError, w.close r)
  | _, .redis _, .noEffect, w => some (.redisError, w)
  | _, .send _, .noEffect, w => some (.kafkaError, w)
  | _, .execute _, .refused, w => some (.dbapiError, w)
  | _, .flush _, .refused, w => some (.dbapiError, w)
  | _, .send event, .acknowledgementLost, w => some (.kafkaError, w.publish r event)
  | _, _, _, _ => none

/-- What the environment does: a key reaches the end of its time to live, or time passes. -/
inductive Env
  | expire (key : String)
  | tick (micros : ℕ)
deriving DecidableEq

def env : Env → World → World
  | .expire key, w => w.setRedis (w.redis.expire key)
  | .tick micros, w => { w with now := w.now + micros }

/-- The operations as the interleaved execution needs them. -/
def semantics : Semantics Op Exc RequestId World Fault Env := ⟨exec, enabled, fault, env⟩

/-- The world of a fresh installation. -/
def initial : World := ⟨0, .empty, .initial, [], fun _ => none, []⟩

/-! ### The open transactions -/

theorem pending_initial : initial.pending = [] := rfl

@[simp] theorem writesOf_close_self (w : World) (r : RequestId) : (w.close r).writesOf r = [] := by
  simp [writesOf, close]

@[simp] theorem writesOf_close_of_ne (w : World) {r r' : RequestId} (h : r' ≠ r) :
    (w.close r).writesOf r' = w.writesOf r' := by
  rw [writesOf, close, writesOf, List.filter_filter]
  congr 2
  funext p
  by_cases hp : p.1 = r' <;> simp [hp, h]

@[simp] theorem writesOf_stage_self (w : World) (r : RequestId) (ws : List Write) :
    (w.stage r ws).writesOf r = w.writesOf r ++ ws := by
  simp [writesOf, stage, List.filter_map, Function.comp_def]

@[simp] theorem writesOf_stage_of_ne (w : World) {r r' : RequestId} (h : r' ≠ r)
    (ws : List Write) : (w.stage r ws).writesOf r' = w.writesOf r' := by
  simp [writesOf, stage, List.filter_map, Function.comp_def, h.symm]

@[simp] theorem db_close (w : World) (r : RequestId) : (w.close r).db = w.db := rfl
@[simp] theorem redis_close (w : World) (r : RequestId) : (w.close r).redis = w.redis := rfl
@[simp] theorem topic_close (w : World) (r : RequestId) : (w.close r).topic = w.topic := rfl
@[simp] theorem sequences_close (w : World) (r : RequestId) :
    (w.close r).sequences = w.sequences := rfl

@[simp] theorem db_stage (w : World) (r : RequestId) (ws : List Write) :
    (w.stage r ws).db = w.db := rfl
@[simp] theorem redis_stage (w : World) (r : RequestId) (ws : List Write) :
    (w.stage r ws).redis = w.redis := rfl
@[simp] theorem topic_stage (w : World) (r : RequestId) (ws : List Write) :
    (w.stage r ws).topic = w.topic := rfl
@[simp] theorem sequences_stage (w : World) (r : RequestId) (ws : List Write) :
    (w.stage r ws).sequences = w.sequences := rfl

theorem writesOf_congr {w w' : World} (h : w'.pending = w.pending) (r : RequestId) :
    w'.writesOf r = w.writesOf r := by
  rw [writesOf, h, writesOf]

/-- Without changes of its own a transaction sees the committed rows. -/
theorem view_of_writesOf_nil {w : World} {r : RequestId} (h : w.writesOf r = []) :
    w.view r = w.db := by
  rw [view, h, Db.applyAll_nil]

end World

end BookingApi
