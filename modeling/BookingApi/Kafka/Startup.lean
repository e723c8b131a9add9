import BookingApi.Async.Retry
import Mathlib.Data.List.Range

/-!
# The start of the Kafka clients

`init_kafka`, `get_kafka` and `close_kafka` of `app/kafka.py`, and `wait_for_kafka` of
`app/worker.py`.  A client is a number; the brokers decide how each attempt to start one ends.

* `initKafka_run`: what `init_kafka` does, whatever the attempts end with.  An exception that is no
  `KafkaConnectionError` leaves a producer behind that was never started, and `get_kafka` hands it
  out (`getKafka_after_error`).
* `waitForKafka_run`: what `wait_for_kafka` does.
-/

namespace BookingApi.Kafka

open Async Program

/-- The exceptions of the two loops, and any other `Exception` that a client raises. -/
inductive StartupError
  | kafkaConnectionError (message : String)
  | runtimeError (message : String)
  | other (name : String)
deriving DecidableEq

inductive ClientOp : Type → Type 1
  /-- `AIOKafkaProducer(...)` or `AIOKafkaConsumer(...)`. -/
  | create : ClientOp ℕ
  | start (client : ℕ) : ClientOp Unit
  | stop (client : ℕ) : ClientOp Unit
  /-- `asyncio.sleep(seconds)`. -/
  | sleep (seconds : ℕ) : ClientOp Unit
  /-- The global `kafka_producer`. -/
  | getProducer : ClientOp (Option ℕ)
  | setProducer (producer : Option ℕ) : ClientOp Unit

abbrev Startup := Program ClientOp StartupError

/-- The clients of a process. -/
structure Clients where
  created : ℕ
  /-- The attempts to start a client. -/
  attempts : ℕ
  started : List ℕ
  stopped : List ℕ
  /-- The seconds that were slept. -/
  slept : ℕ
  /-- `kafka_producer`. -/
  producer : Option ℕ
deriving DecidableEq

/-- `connect` says how each attempt to start a client ends.  A client that is stopped twice, or that
was never started, may be stopped. -/
def exec (connect : ℕ → Except StartupError Unit) :
    ∀ β : Type, ClientOp β → Clients → Except StartupError β × Clients
  | _, .create, s => (.ok s.created, { s with created := s.created + 1 })
  | _, .start client, s => match connect s.attempts with
    | .error e => (.error e, { s with attempts := s.attempts + 1 })
    | .ok () => (.ok (), { s with
        attempts := s.attempts + 1, started := s.started ++ [client] })
  | _, .stop client, s => (.ok (), { s with stopped := s.stopped ++ [client] })
  | _, .sleep seconds, s => (.ok (), { s with slept := s.slept + seconds })
  | _, .getProducer, s => (.ok s.producer, s)
  | _, .setProducer producer, s => (.ok (), { s with producer := producer })

/-- `MAX_RETRIES` of both modules. -/
def maxRetries : ℕ := 10

/-! ### The producer -/

/-- `RETRY_DELAY` of `app/kafka.py`. -/
def producerDelay : ℕ := 2

/-- The body of the loop of `init_kafka`; it returns the global. -/
def initAttempt : Startup (Option (Option ℕ)) :=
  Program.tryCatch
    (do
      let producer ← perform .create
      perform (.setProducer (some producer))
      perform (.start producer)
      -- `return kafka_producer` reads the global again
      let kafkaProducer ← perform .getProducer
      return some kafkaProducer)
    fun
      | .kafkaConnectionError _ => do
        match ← perform .getProducer with
        | none => pure ()
        | some producer =>
          perform (.stop producer)
          perform (.setProducer none)
        perform (.sleep producerDelay)
        return none
      | e => .raise e

def notConnected : StartupError :=
  .kafkaConnectionError s!"Failed to connect to Kafka after {maxRetries} attempts"

def initKafka : Startup (Option ℕ) :=
  retry (fun _ => initAttempt) (.raise notConnected) maxRetries 0

def getKafka : Startup (Option ℕ) := do
  match ← perform .getProducer with
  | none => initKafka
  | some producer => return some producer

def closeKafka : Startup Unit := do
  match ← perform .getProducer with
  | none => return ()
  | some producer => perform (.stop producer)

/-! ### The consumer -/

/-- `RETRY_DELAY` of `app/worker.py`. -/
def consumerDelay : ℕ := 5

/-- The body of the loop of `wait_for_kafka`. -/
def waitAttempt (consumer attempt : ℕ) : Startup (Option ℕ) :=
  Program.tryCatch
    (do
      perform (.start consumer)
      return some consumer)
    fun _ =>
      if attempt < maxRetries then do
        perform (.sleep consumerDelay)
        return none
      else do
        perform (.stop consumer)
        .raise (.runtimeError "Failed to connect to Kafka after maximum retries")

def waitForKafka : Startup ℕ := do
  let consumer ← perform .create
  retry (waitAttempt consumer) (.raise (.runtimeError "Should not reach here")) maxRetries 1

/-! ### What the loops do -/

variable {connect : ℕ → Except StartupError Unit} {s : Clients} {k : ℕ}

/-- The attempt finds no broker. -/
def NotReady (connect : ℕ → Except StartupError Unit) (n : ℕ) : Prop :=
  ∃ message, connect n = .error (.kafkaConnectionError message)

/-- The clients after `k` attempts of `init_kafka` that have found no broker. -/
def notReady (s : Clients) (k : ℕ) : Clients where
  created := s.created + k
  attempts := s.attempts + k
  started := s.started
  stopped := s.stopped ++ List.range' s.created k
  slept := s.slept + producerDelay * k
  producer := if k = 0 then s.producer else none

theorem notReady_zero : notReady s 0 = s := by simp [notReady]

theorem run_initAttempt_of_notReady (h : NotReady connect (s.attempts + k)) :
    initAttempt.run (exec connect) (notReady s k) = (.ok none, notReady s (k + 1)) := by
  obtain ⟨message, h⟩ := h
  have hattempts : (notReady s k).attempts = s.attempts + k := rfl
  have hrange : List.range' s.created (k + 1) = List.range' s.created k ++ [s.created + k] :=
    List.range'_1_concat
  simp only [initAttempt, run_tryCatch, Program.bind_eq, run_bind, run_perform, exec, hattempts, h,
    Program.pure_eq, run_ret]
  simp [notReady, hrange, Nat.mul_add, Nat.add_assoc]

/-- The clients after an attempt that has started its producer. -/
def connected (s : Clients) : Clients :=
  { s with
    created := s.created + 1, attempts := s.attempts + 1, started := s.started ++ [s.created]
    producer := some s.created }

theorem run_initAttempt_of_ok (h : connect s.attempts = .ok ()) :
    initAttempt.run (exec connect) s = (.ok (some (some s.created)), connected s) := by
  simp only [initAttempt, run_tryCatch, Program.bind_eq, run_bind, run_perform, exec, h,
    Program.pure_eq, run_ret, connected]

/-- The clients after an attempt that has raised: the producer is the global one all the same. -/
def abandoned (s : Clients) : Clients :=
  { s with
    created := s.created + 1, attempts := s.attempts + 1, producer := some s.created }

theorem run_initAttempt_of_error {e : StartupError} (h : connect s.attempts = .error e)
    (hne : ∀ message, e ≠ .kafkaConnectionError message) :
    initAttempt.run (exec connect) s = (.error e, abandoned s) := by
  simp only [initAttempt, run_tryCatch, Program.bind_eq, run_bind, run_perform, exec, h, abandoned]
  cases e with
  | kafkaConnectionError message => exact absurd rfl (hne message)
  | _ => rfl

/-- After `k` attempts that find no broker, each of whose producers is stopped: the next one starts
and is the global; it raises, and its producer is the global all the same; or no attempt is left. -/
theorem initKafka_run (connect : ℕ → Except StartupError Unit) (s : Clients) :
    (∀ k < maxRetries, (∀ j < k, NotReady connect (s.attempts + j)) →
        (connect (s.attempts + k) = .ok () →
          initKafka.run (exec connect) s
            = (.ok (some (s.created + k)), connected (notReady s k))) ∧
        ∀ e, connect (s.attempts + k) = .error e → (∀ message, e ≠ .kafkaConnectionError message) →
          initKafka.run (exec connect) s = (.error e, abandoned (notReady s k))) ∧
      ((∀ j < maxRetries, NotReady connect (s.attempts + j)) →
        initKafka.run (exec connect) s = (.error notConnected, notReady s maxRetries)) := by
  have hstart : initKafka.run (exec connect) s = initKafka.run (exec connect) (notReady s 0) := by
    rw [notReady_zero]
  rw [hstart]
  refine ⟨fun k hk hnot => ?_, fun hnot => ?_⟩
  · have hattempts : ∀ j < k, initAttempt.run (exec connect) (notReady s j)
        = (.ok none, notReady s (j + 1)) :=
      fun j hj => run_initAttempt_of_notReady (hnot j hj)
    refine ⟨fun hok => ?_, fun e herror hne => ?_⟩
    · exact run_retry_of_some (s := notReady s) hattempts hk (run_initAttempt_of_ok hok)
    · exact run_retry_of_error (s := notReady s) hattempts hk (run_initAttempt_of_error herror hne)
  · exact run_retry_of_none (s := notReady s)
      fun j hj => run_initAttempt_of_notReady (hnot j hj)

/-- The producer of an attempt that has raised is the one that `get_kafka` hands out from then on:
it was never started, and no other start is tried. -/
theorem getKafka_after_error :
    getKafka.run (exec connect) (abandoned s) = (.ok (some s.created), abandoned s) := rfl

/-- The clients after `k` attempts to start the one consumer of `wait_for_kafka`. -/
def waiting (s : Clients) (k : ℕ) : Clients where
  created := s.created + 1
  attempts := s.attempts + k
  started := s.started
  stopped := s.stopped
  slept := s.slept + consumerDelay * k
  producer := s.producer

theorem run_waitAttempt_of_error {e : StartupError} {client : ℕ}
    (h : connect (s.attempts + k) = .error e) (hk : 1 + k < maxRetries) :
    (waitAttempt client (1 + k)).run (exec connect) (waiting s k)
      = (.ok none, waiting s (k + 1)) := by
  have hattempts : (waiting s k).attempts = s.attempts + k := rfl
  simp only [waitAttempt, run_tryCatch, Program.bind_eq, run_bind, run_perform, exec, hattempts, h,
    if_pos hk, Program.pure_eq, run_ret]
  simp [waiting, Nat.mul_add, Nat.add_assoc]

/-- The clients after `wait_for_kafka` has given up. -/
def gaveUp (s : Clients) : Clients :=
  { s with
    created := s.created + 1, attempts := s.attempts + maxRetries
    stopped := s.stopped ++ [s.created], slept := s.slept + consumerDelay * (maxRetries - 1) }

/-- The first attempt that starts the one consumer ends the loop; after the last one the consumer is
stopped, and nothing is waited for any more. -/
theorem waitForKafka_run (connect : ℕ → Except StartupError Unit) (s : Clients) :
    (∀ k < maxRetries, (∀ j < k, ∃ e, connect (s.attempts + j) = .error e) →
        connect (s.attempts + k) = .ok () →
          waitForKafka.run (exec connect) s
            = (.ok s.created, { waiting s k with
                attempts := s.attempts + k + 1, started := s.started ++ [s.created] })) ∧
      ((∀ j < maxRetries, ∃ e, connect (s.attempts + j) = .error e) →
        waitForKafka.run (exec connect) s
          = (.error (.runtimeError "Failed to connect to Kafka after maximum retries"),
              gaveUp s)) := by
  have hstart : waitForKafka.run (exec connect) s
      = (retry (waitAttempt s.created) (.raise (.runtimeError "Should not reach here"))
          maxRetries 1).run (exec connect) (waiting s 0) := rfl
  rw [hstart]
  refine ⟨fun k hk hnot hok => ?_, fun hnot => ?_⟩
  · refine run_retry_of_some (s := waiting s) (fun j hj => ?_) hk ?_
    · obtain ⟨e, herror⟩ := hnot j hj
      exact run_waitAttempt_of_error herror (by omega)
    · have hattempts : (waiting s k).attempts = s.attempts + k := rfl
      simp only [waitAttempt, run_tryCatch, Program.bind_eq, run_bind, run_perform, exec, hattempts,
        hok, Program.pure_eq, run_ret]
      rfl
  · -- the last attempt does not sleep but raises
    have hlast : (9 : ℕ) < maxRetries := by decide
    refine run_retry_of_error (s := waiting s) (k := 9) (fun j hj => ?_) hlast ?_
    · obtain ⟨e, herror⟩ := hnot j (by omega)
      exact run_waitAttempt_of_error herror (by simp only [maxRetries]; omega)
    · obtain ⟨e, herror⟩ := hnot 9 hlast
      have hattempts : (waiting s 9).attempts = s.attempts + 9 := rfl
      simp only [waitAttempt, run_tryCatch, Program.bind_eq, run_bind, run_perform, exec, hattempts,
        herror]
      rfl

end BookingApi.Kafka
