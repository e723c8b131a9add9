import BookingApi.Api.Guarantees
import BookingApi.Async.Atomic
import BookingApi.Async.Steps

/-!
# Every request is all or nothing

No handler commits before it has returned (`ordinary_handler`), so that `get_db` commits last.
`all_or_nothing`: however the requests interleave and whatever fails, a request that has not
returned has changed no committed row, and one that has returned has changed them in one step, and
only as its route may.
-/

namespace BookingApi.Api

open Async BookingService HallService SeatService UserService

/-- The operation is a commit. -/
def Commits : ∀ β : Type, Op β → Prop
  | _, .commit => True
  | _, _ => False

/-- The program commits nothing. -/
abbrev Ordinary {α : Type} (p : App α) : Prop := p.Uses fun β op => ¬ Commits β op

/-- **No handler commits.** -/
theorem ordinary_handler (security : Security) (settings : Settings) (now : Instant)
    (request : Request) : Ordinary (request.handler security settings now) := by
  refine uses_handler (fun _ => id) ?_
  obtain ⟨auth, endpoint⟩ := request
  cases endpoint <;> simp [Endpoint.Allows, Commits]

/-- `get_db` commits last. -/
theorem returnsAfter_getDb (security : Security) (settings : Settings) (now : Instant)
    (request : Request) :
    (getDb (request.handler security settings now)).ReturnsAfter Commits := by
  refine (Program.Uses.returnsAfter_bind (ordinary_handler security settings now request)
    .commit).tryCatch fun e => ?_
  exact .bind (Program.uses_perform id) fun _ => trivial

/-- Only a commit changes the committed tables. -/
theorem onlyBy_commits : World.semantics.OnlyBy Commits World.db where
  exec {i β op w} hop := by
    cases op with
    | commit => exact absurd trivial hop
    | flush statement => exact World.db_exec_flush statement
    | _ => rfl
  raised {i β op w e} he := by
    cases op with
    | commit => cases he
    | flush statement => exact World.db_exec_flush statement
    | _ => rfl
  fault hfault := World.db_fault hfault

/-! ### The footprint of a request -/

/-- The committed rows change by `writes` only, and Redis at `keys` only. -/
def Within (writes : Write → Prop) (keys : String → Prop) (w w' : World) : Prop :=
  (∃ ws, (∀ x ∈ ws, writes x) ∧ w'.db = w.db.applyAll ws) ∧
    ∀ key, ¬ keys key → w'.redis key = w.redis key

/-- The request is going to change only what its route may. -/
structure Confined (writes : Write → Prop) (keys : String → Prop) (r : RequestId)
    (c : Config RequestId World (App Response)) : Prop where
  pending : ∀ x ∈ c.shared.writesOf r, writes x
  program : (c.threads r).Uses (Touches writes keys)

section

variable {writes : Write → Prop} {keys : String → Prop} {w w' : World} {r : RequestId} {β : Type}
  {op : Op β}

theorem Within.of_eq (hdb : w'.db = w.db) (hredis : w'.redis = w.redis) : Within writes keys w w' :=
  ⟨⟨[], fun _ hx => absurd hx List.not_mem_nil, hdb⟩, fun key _ => congrFun hredis key⟩

theorem within_exec (hpending : ∀ x ∈ w.writesOf r, writes x) (hop : Touches writes keys β op) :
    Within writes keys w (World.exec r β op w).2 := by
  refine ⟨?_, fun key hkey => World.redis_exec hop hkey⟩
  have same (hdb : (World.exec r β op w).2.db = w.db) :
      ∃ ws, (∀ x ∈ ws, writes x) ∧ (World.exec r β op w).2.db = w.db.applyAll ws :=
    ⟨[], fun _ hx => absurd hx List.not_mem_nil, hdb⟩
  cases op with
  | commit => exact ⟨w.writesOf r, hpending, rfl⟩
  | flush statement => exact same (World.db_exec_flush statement)
  | _ => exact same rfl

theorem within_fault {φ : World.Fault} {e : Exc} (h : World.fault r β op φ w = some (e, w')) :
    Within writes keys w w' := by
  rcases World.fault_cases h with rfl | rfl | ⟨event, rfl⟩ <;> exact .of_eq rfl rfl

theorem pending_exec (hpending : ∀ x ∈ w.writesOf r, writes x) (hop : Touches writes keys β op) :
    ∀ x ∈ (World.exec r β op w).2.writesOf r, writes x := by
  have hchanged : World.Changed writes r w w :=
    ⟨hpending, [], fun x hx => absurd hx List.not_mem_nil, rfl⟩
  exact (hchanged.exec hop).pending

theorem pending_fault (hpending : ∀ x ∈ w.writesOf r, writes x) {φ : World.Fault} {e : Exc}
    (h : World.fault r β op φ w = some (e, w')) : ∀ x ∈ w'.writesOf r, writes x := by
  rcases World.fault_cases h with rfl | rfl | ⟨event, rfl⟩
  · exact hpending
  · exact fun x hx => absurd hx (by simp)
  · exact hpending

/-- An operation of the request, with or without a fault. -/
theorem within_of_performs (hpending : ∀ x ∈ w.writesOf r, writes x)
    (h : World.semantics.Performs (Touches writes keys) r w w') :
    (∀ x ∈ w'.writesOf r, writes x) ∧ Within writes keys w w' := by
  obtain ⟨β, op, hop, rfl | ⟨φ, e, hfault⟩⟩ := h
  · exact ⟨pending_exec hpending hop, within_exec hpending hop⟩
  · exact ⟨pending_fault hpending hfault, within_fault hfault⟩

end

variable {writes : Write → Prop} {keys : String → Prop} {security : Security}
  {settings : Settings} {now : RequestId → Instant} {tasks : RequestId → Option Task}
  {c c' : Config RequestId World (App Response)}
  {tr : List (Transition (Config RequestId World (App Response))
    (Action RequestId World.Fault World.Env))} {r : RequestId}

/-- A step of the request stays within its footprint. -/
theorem Confined.step (h : Confined writes keys r c) {a : Action RequestId World.Fault World.Env}
    (hstep : Interleaving.Step c a = some c') (ha : a.handler = some r) :
    Confined writes keys r c' ∧ Within writes keys c.shared c'.shared := by
  obtain ⟨hpending, hwithin⟩ := within_of_performs h.pending (performs_of_step hstep ha h.program)
  exact ⟨⟨hpending, h.program.next (next_of_step hstep ha)⟩, hwithin⟩

/-- A step of another request, or of the environment, does not widen it. -/
theorem Confined.other (h : Confined writes keys r c)
    {a : Action RequestId World.Fault World.Env} (hstep : Interleaving.Step c a = some c')
    (ha : a.handler ≠ some r) : Confined writes keys r c' where
  pending := writesOf_of_step hstep ha ▸ h.pending
  program := threads_of_step hstep ha ▸ h.program

/-- The footprint of a request, in a run. -/
theorem Confined.run (h : Confined writes keys r c) (hrun : Run Interleaving.Step c tr c') :
    Confined writes keys r c' ∧ ∀ t ∈ tr, t.action.handler = some r →
      Within writes keys t.before.shared t.after.shared := by
  induction hrun with
  | refl => exact ⟨h, fun t ht => absurd ht List.not_mem_nil⟩
  | @tail tr c₁ c₂ a hrun hstep ih =>
    obtain ⟨hconfined, hwithin⟩ := ih
    by_cases ha : a.handler = some r
    · obtain ⟨hconfined', hlast⟩ := hconfined.step hstep ha
      refine ⟨hconfined', fun t ht => ?_⟩
      rcases List.mem_cons.mp ht with rfl | ht
      · exact fun _ => hlast
      · exact hwithin t ht
    · refine ⟨hconfined.other hstep ha, fun t ht ht' => ?_⟩
      rcases List.mem_cons.mp ht with rfl | ht
      · exact absurd ht' ha
      · exact hwithin t ht ht'

/-- **All or nothing**: in any run with any faults, a request has changed no committed row, or it
has changed the committed rows in one step and has returned a response; and none of its steps has
changed a row or a key that is not its route's. -/
theorem all_or_nothing (hrun : Run Interleaving.Step (start security settings now tasks) tr c)
    {request : Request} (htask : tasks r = some (.serve request)) :
    (Quiet World.db r tr ∨
      Once World.db r tr ∧ ∃ response, (c.threads r).result? = some (.ok response)) ∧
    ∀ t ∈ tr, t.action.handler = some r →
      Within (request.endpoint.writes security) request.endpoint.keys
        t.before.shared t.after.shared := by
  have hprogram : (start security settings now tasks).threads r
      = getDb (request.handler security settings (now r)) := by
    show Task.program security settings (now r) (tasks r) = _
    rw [htask]
    rfl
  have hreturns : ((start security settings now tasks).threads r).ReturnsAfter Commits := by
    rw [hprogram]
    exact returnsAfter_getDb security settings (now r) request
  have htouches := touches_handler security settings (now r) request
  have hconfined : Confined (request.endpoint.writes security) request.endpoint.keys r
      (start security settings now tasks) := by
    refine ⟨fun x hx => absurd hx List.not_mem_nil, ?_⟩
    rw [hprogram]
    exact uses_getDb htouches trivial trivial
  refine ⟨?_, (hconfined.run hrun).2⟩
  rcases quiet_or_once onlyBy_commits hrun hreturns with ⟨hquiet, -⟩ | ⟨honce, response, hret⟩
  · exact .inl hquiet
  · exact .inr ⟨honce, response, by rw [hret]; rfl⟩

open Scenario in
/-- The second request, which is refused, has changed no row. -/
theorem quiet_seats : ∃ tr c, Run Interleaving.Step seatStart tr c ∧
    (c.threads 3).result? = some (.error seatExists) ∧ Quiet World.db 3 tr := by
  obtain ⟨tr, tr', c, c', hrun, -, hrun', hexists⟩ := exists_run_seats
  have htask : seatTasks 3 = some (.serve ⟨bearer admin, .createSeat 1 seatBody⟩) := rfl
  refine ⟨_, c', hrun.trans hrun', hexists, ?_⟩
  rcases (all_or_nothing (hrun.trans hrun') htask).1 with hquiet | ⟨-, response, hret⟩
  · exact hquiet
  · rw [hexists] at hret
    cases hret

end BookingApi.Api
