import BookingApi.Api.Handlers
import BookingApi.Async.Liveness

/-!
# Interleaved requests

Any number of requests to any routes, of which the rate limiter may turn away any, and of runs of
the script that creates an administrator, over one world.  Whatever the schedule and the faults, the
protocol holds in every state that is reached (`holds_of_run`), and some request can go on while one
has not ended (`exists_enabled`): a request that waits for a lock holds none, so that waiting never
forms a cycle.
-/

namespace BookingApi.Api

open Async

/-- What the API is asked to do. -/
inductive Task
  | serve (request : Request)
  /-- A request that the rate limiter turns away. -/
  | limited (request : Request)
  | createAdmin (salt email password : String)

/-- The request that is served or turned away. -/
def Task.request? : Task → Option Request
  | .serve request | .limited request => some request
  | .createAdmin .. => none

section

variable (security : Security) (settings : Settings)

/-- What a process does for a task, if it has one.  The token of a request is checked at the time
`now`. -/
def Task.program (now : Instant) : Option Task → App Response
  | none => .ret .noContent
  | some (.serve request) => getDb (request.handler security settings now)
  | some (.limited request) => getDb (request.limited security now)
  | some (.createAdmin salt email password) =>
    (Api.createAdmin (security.hash salt) email password).bind fun _ => .ret .noContent

/-- What a task may raise. -/
def Task.failures (now : Instant) : Option Task → Failures
  | none => .none
  | some (.serve request) => request.failures security settings now
  | some (.limited request) => request.limitFailures security now
  | some (.createAdmin ..) => .among [.integrityError]

/-- What the outcome of a task says. -/
def Task.effect : Option Task → Response → Db → Prop
  | some (.serve request), response, db => request.endpoint.effect security response db
  | some (.limited _), _, _ => False
  | _, _, _ => True

/-- A fresh installation with tasks. -/
def start (now : RequestId → Instant) (tasks : RequestId → Option Task) :
    Config RequestId World (App Response) :=
  ⟨.initial, fun r => Task.program security settings (now r) (tasks r)⟩

/-- How a task ends. -/
def Ending (faults : World.Fault → Prop) (now : Instant) (task : Option Task) (r : RequestId)
    (res : Except Exc Response) (w : World) : Prop :=
  Closed r w ∧ Ends faults (Task.failures security settings now task)
    (fun response t => Task.effect security task response t.db) res w

def Endings (faults : Faults) (now : RequestId → Instant) (tasks : RequestId → Option Task)
    (r : RequestId) : Except Exc Response → World → Prop :=
  Ending security settings (faults r) (now r) (tasks r) r

end

/-- A state of interleaved requests, and what happens next. -/
abbrev Interleaving.Step :
    Config RequestId World (App Response) → Action RequestId World.Fault World.Env →
      Option (Config RequestId World (App Response)) :=
  step World.semantics Program.await

variable {faults : Faults} {security : Security} {settings : Settings}
  {now : RequestId → Instant} {tasks : RequestId → Option Task}
  {c c' : Config RequestId World (App Response)}
  {tr tr' : List (Transition (Config RequestId World (App Response))
    (Action RequestId World.Fault World.Env))}

/-- Every task keeps the protocol. -/
theorem ensures_program (now : Instant) (task : Option Task) {r : RequestId} {w : World}
    (hidle : Closed r w) : (Task.program security settings now task).Ensures (protocol faults) r
      (Ending security settings (faults r) now task r) w := by
  rcases task with _ | request | request | ⟨salt, email, password⟩
  · exact fun t hrely _ => ⟨hidle.of_rely hrely, trivial⟩
  · exact ensures_getDb (request.endpoint.lasting_effect security)
      (meets_handler security settings now hidle request)
  · exact ensures_getDb (fun _ => lasting_const False) (meets_limited security now hidle request)
  · refine .bind (Program.Ensures.mono
      (ensures_createAdmin hidle (security.hash salt) email password) fun res t _ hend => ?_)
    cases res with
    | ok _ => exact fun u hrely _ => ⟨hend.1.of_rely hrely, trivial⟩
    | error e => exact hend

/-- **The protocol holds** in every state of every run. -/
theorem holds_of_run
    (hrun : Run Interleaving.Step (start security settings now tasks) tr c)
    (hall : ∀ t ∈ tr, Considered faults t.action) :
    (protocol faults).Holds (Endings security settings faults now tasks) c := by
  have hstart : (protocol faults).Holds (Endings security settings faults now tasks)
      (start security settings now tasks) :=
    ⟨inv_initial, fun r => ensures_program (now r) (tasks r) (w := .initial) rfl⟩
  exact hstart.run (sound_protocol faults) hrun hall

/-- With faults every action is allowed. -/
theorem holds_of_run_with_faults
    (hrun : Run Interleaving.Step (start security settings now tasks) tr c) :
    (protocol fun _ _ => True).Holds (Endings security settings (fun _ _ => True) now tasks) c :=
  holds_of_run hrun fun _ _ _ _ _ => trivial

/-! ### Along a run -/

/-- A step of another request, or of the environment, does not touch the open transaction. -/
theorem writesOf_of_step {r : RequestId} {a : Action RequestId World.Fault World.Env}
    (hstep : Interleaving.Step c a = some c') (ha : a.handler ≠ some r) :
    c'.shared.writesOf r = c.shared.writesOf r := by
  cases a with
  | run j =>
    have hne : r ≠ j := fun hj => ha (congrArg some hj.symm)
    obtain ⟨β, op, next, -, -, hs, -⟩ := step_run hstep
    rw [hs]
    have huntouched : World.Untouched r c.shared (World.exec j β op c.shared).2 :=
      World.untouched_exec hne
    exact huntouched.writes
  | fault j φ =>
    have hne : r ≠ j := fun hj => ha (congrArg some hj.symm)
    obtain ⟨β, op, next, e, -, hfault, -⟩ := step_fault hstep
    exact (World.untouched_fault hne hfault).writes
  | env e =>
    obtain rfl := step_env hstep
    cases e <;> rfl

theorem later_of_step {Q : RequestId → Except Exc Response → World → Prop}
    (h : (protocol fun _ _ => True).Holds Q c) {a : Action RequestId World.Fault World.Env}
    (hstep : Interleaving.Step c a = some c') : c.shared.db.Later c'.shared.db := by
  -- somebody who does not move relies on it
  obtain ⟨j, hj⟩ : ∃ j, a.handler ≠ some j := by
    cases a.handler with
    | none => exact ⟨0, by simp⟩
    | some i => exact ⟨i + 1, by simp⟩
  exact (h.rely (sound_protocol _) (fun _ _ _ => trivial) hstep hj).later

theorem later_of_run {Q : RequestId → Except Exc Response → World → Prop}
    (h : (protocol fun _ _ => True).Holds Q c) (hrun : Run Interleaving.Step c tr c') :
    c.shared.db.Later c'.shared.db := by
  refine (hrun.invariant_of_step (I := fun c₁ => (protocol fun _ _ => True).Holds Q c₁ ∧
    c.shared.db.Later c₁.shared.db) ⟨h, .refl _⟩ fun h₁ hstep => ⟨?_, ?_⟩).2
  · exact h₁.1.step (sound_protocol _) (fun _ _ _ => trivial) hstep
  · exact h₁.2.trans (later_of_step h₁.1 hstep)

/-! ### Progress -/

/-- Who waits for a lock holds none. -/
theorem enabled_of_holder {w : World} {r : RequestId} {β : Type} {op : Op β} (h : Permits r β op w)
    (hopen : w.writesOf r ≠ []) : World.enabled r β op w = true := by
  cases op with
  | flush statement =>
    rw [World.enabled]
    split
    · rename_i b ws hws
      have hlocks := (h.2 b ws hws).locks hopen
      refine List.all_eq_true.mpr fun x hx => List.all_eq_true.mpr fun p _ =>
        decide_eq_true (.inr ?_)
      rw [Write.conflicts_iff]
      rintro (⟨-, hins, -⟩ | ⟨v, -, hv⟩)
      · exact absurd ((hlocks x hx).1.symm.trans hins) (by simp)
      · exact absurd (hv.symm.trans (hlocks x hx).2) (by simp)
    · rfl
  | _ => rfl

/-- A request that has to wait waits for one that has changed a row. -/
theorem exists_holder {w : World} {r : RequestId} {β : Type} {op : Op β}
    (h : World.enabled r β op w ≠ true) : ∃ j, w.writesOf j ≠ [] := by
  cases op with
  | flush statement =>
    rw [World.enabled] at h
    split at h
    · rename_i b ws _
      by_contra hnone
      push Not at hnone
      refine h (List.all_eq_true.mpr fun x _ => List.all_eq_true.mpr fun p hp => ?_)
      have hmem : p.2 ∈ w.writesOf p.1 :=
        List.mem_map_of_mem (List.mem_filter.mpr ⟨hp, decide_eq_true rfl⟩)
      exact absurd hmem (by simp [hnone p.1])
    · exact absurd rfl h
  | _ => exact absurd rfl h

theorem run_of_enabled {r : RequestId} {β : Type} {op : Op β} {next : Except Exc β → App Response}
    (hawait : (c.threads r).await = .call op next)
    (henabled : World.enabled r β op c.shared = true) :
    ∃ c', Interleaving.Step c (.run r) = some c' := by
  have he : World.semantics.enabled r β op c.shared = true := henabled
  rw [Interleaving.Step, step, hawait]
  exact ⟨_, if_pos he⟩

/-- **No deadlock**: while a task has not ended, some task can go on. -/
theorem exists_enabled
    (h : (protocol fun _ _ => True).Holds (Endings security settings (fun _ _ => True) now tasks) c)
    (hleft : ∃ r, ¬ (c.threads r).Ended) : ∃ r c', Interleaving.Step c (.run r) = some c' := by
  obtain ⟨r, hr⟩ := hleft
  have hcall (i : RequestId) (hi : ¬ (c.threads i).Ended) :
      ∃ (β : Type) (op : Op β) (next : Except Exc β → App Response),
        (c.threads i).await = .call op next := by
    cases hawait : (c.threads i).await with
    | ended res => exact absurd ⟨res, hawait⟩ hi
    | call op next => exact ⟨_, op, next, rfl⟩
  obtain ⟨β, op, next, hawait⟩ := hcall r hr
  by_cases henabled : World.enabled r β op c.shared = true
  · exact ⟨r, run_of_enabled hawait henabled⟩
  · -- it waits for `j`, which has not ended and does not wait
    obtain ⟨j, hopen⟩ := exists_holder henabled
    have hj : ¬ (c.threads j).Ended := fun ⟨res, hend⟩ => hopen (h.ended hend).1
    obtain ⟨β', op', next', hawait'⟩ := hcall j hj
    exact ⟨j, run_of_enabled hawait' (enabled_of_holder (h.permits hawait') hopen)⟩

end BookingApi.Api
