import BookingApi.Api.AllOrNothing
import BookingApi.Api.Privilege

/-!
# Who may do what

The first operation of a handler that is not open to anyone (`Endpoint.access`) looks the caller up,
and all that is left of the handler of a caller who is refused is a rollback (`guarded_handler`).
So however the requests interleave, what a request returns or changes comes after a moment at which
its caller was an active user, or an active administrator (`authorized_of_run`), and without the
script nobody ever becomes an administrator (`no_admin_of_run`).
-/

namespace BookingApi.Api

open Async

/-- The user may call a route. -/
def Access.Admits (access : Access) (user : User) : Prop :=
  user.isActive = true ∧ (access = .admin → user.role = .admin)

/-- The token of a request names a user whom the route admits. -/
def Allowed (security : Security) (now : Instant) (request : Request) (db : Db) : Prop :=
  ∃ user ∈ db.users.rows, authenticatedId security now request.authorization = .ok user.id ∧
    request.endpoint.access.Admits user

/-! ### Refusals -/

/-- The operation is a rollback. -/
def Discards : ∀ β : Type, Op β → Prop
  | _, .rollback => True
  | _, _ => False

/-- All that is left is a rollback and an exception. -/
structure Refused (p : App Response) : Prop where
  fails : p.Fails
  discards : p.Uses Discards

/-- Rows, keys or events have changed. -/
def Changes (w w' : World) : Prop := w'.db ≠ w.db ∨ w'.redis ≠ w.redis ∨ w'.topic ≠ w.topic

/-- What `get_db` does when the handler has raised. -/
theorem refused_rollback (e : Exc) :
    Refused ((Program.perform .rollback).bind fun _ => (.raise e : App Response)) where
  fails := fun r => by cases r <;> trivial
  discards := ⟨trivial, fun r => by cases r <;> trivial⟩

theorem Refused.next {p q : App Response} (h : Refused p) (hnext : p.Next q) : Refused q :=
  ⟨h.fails.next hnext, h.discards.next hnext⟩

theorem not_changes_of_performs {r : RequestId} {w w' : World}
    (h : World.semantics.Performs Discards r w w') : ¬ Changes w w' := by
  obtain ⟨β, op, hop, rfl | ⟨φ, e, hfault⟩⟩ := h
  · cases op with
    | rollback => rintro (h | h | h) <;> exact h rfl
    | _ => exact hop.elim
  · cases op with
    | rollback =>
      cases φ with
      | noEffect =>
        obtain ⟨-, rfl⟩ := Prod.mk.inj (Option.some.inj hfault)
        rintro (h | h | h) <;> exact h rfl
      | _ => cases hfault
    | _ => exact hop.elim

/-- The program refuses the caller, or begins with looking the caller up and refuses whoever is not
admitted. -/
def Guarded (security : Security) (now : Instant) (authorization : Option String)
    (admits : User → Prop) (p : App Response) : Prop :=
  Refused p ∨ ∃ userId, authenticatedId security now authorization = .ok userId ∧
    ∃ next, p = .call (.execute (selectCurrentUser userId)) next ∧
      ∀ res, (∃ user session, res = .ok (some (user, session)) ∧ admits user) ∨ Refused (next res)

section

variable {security : Security} {now : Instant} {authorization : Option String}
  {admits : User → Prop} {α : Type} {respond : α → Response}

/-- A route for users looks the user up, and refuses or goes on. -/
theorem lookup_asUser (p : User → Session → App α) (respond : α → Response) {userId : ℤ}
    (hid : authenticatedId security now authorization = .ok userId) :
    ∃ next, getDb (asUser security now authorization p respond)
        = .call (.execute (selectCurrentUser userId)) next ∧
      ∀ res, Refused (next res) ∨ ∃ user session, res = .ok (some (user, session)) ∧
        user.isActive = true ∧ next res = getDb (asAnyone (p user session) respond) := by
  rw [asUser, loadCurrentUser, hid]
  refine ⟨_, rfl, fun res => ?_⟩
  rcases res with e | _ | ⟨user, session⟩
  · exact .inl (refused_rollback e)
  · exact .inl (refused_rollback _)
  · by_cases hactive : user.isActive = true
    · refine .inr ⟨user, session, rfl, hactive, ?_⟩
      simp [hactive, getDb]
    · exact .inl (by simpa [hactive] using refused_rollback _)

/-- A route for users refuses whoever has no token. -/
theorem refused_asUser {p : User → Session → App α} {e : Exc}
    (hid : authenticatedId security now authorization = .error e) :
    Refused (getDb (asUser security now authorization p respond)) := by
  rw [asUser, loadCurrentUser, hid]
  exact refused_rollback e

theorem guarded_asUser {p : User → Session → App α}
    (hadmits : ∀ user, user.isActive = true → admits user) :
    Guarded security now authorization admits
      (getDb (asUser security now authorization p respond)) := by
  cases hid : authenticatedId security now authorization with
  | error e => exact .inl (refused_asUser hid)
  | ok userId =>
    obtain ⟨next, hcall, hnext⟩ := lookup_asUser p respond hid
    refine .inr ⟨userId, hid, next, hcall, fun res => ?_⟩
    rcases hnext res with hrefused | ⟨user, session, hres, hactive, -⟩
    · exact .inr hrefused
    · exact .inl ⟨user, session, hres, hadmits user hactive⟩

theorem guarded_asAdmin {p : App α}
    (hadmits : ∀ user, user.isActive = true → user.role = .admin → admits user) :
    Guarded security now authorization admits
      (getDb (asAdmin security now authorization p respond)) := by
  rw [asAdmin, getCurrentAdmin, getCurrentUser, loadCurrentUser]
  cases hid : authenticatedId security now authorization with
  | error e => exact .inl (refused_rollback e)
  | ok userId =>
    refine .inr ⟨userId, hid, _, rfl, fun res => ?_⟩
    rcases res with e | _ | ⟨user, session⟩
    · exact .inr (refused_rollback e)
    · exact .inr (refused_rollback _)
    · by_cases hactive : user.isActive = true
      · by_cases hrole : user.role = .admin
        · exact .inl ⟨user, session, rfl, hadmits user hactive hrole⟩
        · exact .inr (by simpa [hactive, hrole] using refused_rollback _)
      · exact .inr (by simpa [hactive] using refused_rollback _)

end

/-- **The caller is looked up first.** -/
theorem guarded_handler (security : Security) (settings : Settings) (now : Instant)
    (request : Request) (haccess : request.endpoint.access ≠ .anyone) :
    Guarded security now request.authorization request.endpoint.access.Admits
      (getDb (request.handler security settings now)) := by
  obtain ⟨authorization, endpoint⟩ := request
  cases endpoint with
  | signup | login => exact absurd rfl haccess
  | listUsers | getUser | updateUser | createHall | updateHall | deleteHall | createSeat
  | bulkCreateSeats | deleteSeat =>
    exact guarded_asAdmin fun user hactive hrole => ⟨hactive, fun _ => hrole⟩
  | _ =>
    rw [Request.handler]
    exact guarded_asUser fun user hactive => ⟨hactive, fun h => by cases h⟩

/-! ### Authorization -/

variable {security : Security} {settings : Settings} {now : RequestId → Instant}
  {tasks : RequestId → Option Task} {c c' : Config RequestId World (App Response)}
  {tr : List (Transition (Config RequestId World (App Response))
    (Action RequestId World.Fault World.Env))} {r : RequestId}

/-- The request has returned a response or has changed something. -/
def HasActed (r : RequestId) (tr : List (Transition (Config RequestId World (App Response))
    (Action RequestId World.Fault World.Env))) (c : Config RequestId World (App Response)) : Prop :=
  (∃ response, (c.threads r).result? = some (.ok response)) ∨
    ∃ t ∈ tr, t.action.handler = some r ∧ Changes t.before.shared t.after.shared

/-- A request that has been refused does nothing. -/
theorem Refused.not_hasActed (h : Refused (c.threads r)) (hrun : Run Interleaving.Step c tr c') :
    ¬ HasActed r tr c' := by
  rintro (⟨response, hreturned⟩ | ⟨t, ht, ha, hchanges⟩)
  · exact (holds_of_next Refused.next hrun h).fails.result?_ne response hreturned
  · exact not_changes_of_performs (performs_of_run h.discards hrun ht ha) hchanges

/-- A lookup changes nothing. -/
theorem lookup_step {β : Type} {query : Db → β} {next : Except Exc β → App Response}
    (hcall : c.threads r = .call (.execute query) next)
    {a : Action RequestId World.Fault World.Env} (hstep : Interleaving.Step c a = some c')
    (ha : a.handler = some r) : c'.shared = c.shared ∧
      (a = .run r ∧ c'.threads r = next (.ok (query (c.shared.view r))) ∨
        ∃ e, c'.threads r = next (.error e)) := by
  have hawait : (c.threads r).await = .call (.execute query) next := by rw [hcall]; rfl
  cases a with
  | run j =>
    obtain rfl : j = r := Option.some.inj ha
    obtain ⟨β', op, next', hawait', -, hs, hthreads⟩ := step_run hstep
    cases hawait.symm.trans hawait'
    rw [hs, hthreads, Function.update_self]
    exact ⟨rfl, .inl ⟨rfl, rfl⟩⟩
  | fault j φ =>
    obtain rfl : j = r := Option.some.inj ha
    obtain ⟨β', op, next', e, hawait', hfault, hthreads⟩ := step_fault hstep
    cases hawait.symm.trans hawait'
    rw [hthreads, Function.update_self]
    cases φ with
    | acknowledgementLost => cases hfault
    | _ =>
      obtain ⟨-, hs⟩ := Prod.mk.inj (Option.some.inj hfault)
      exact ⟨hs.symm, .inr ⟨e, rfl⟩⟩
  | env e => cases ha

/-- A request has no open transaction before its first step. -/
theorem writesOf_of_run (hrun : Run Interleaving.Step c tr c')
    (hnone : ∀ t ∈ tr, t.action.handler ≠ some r) :
    c'.shared.writesOf r = c.shared.writesOf r := by
  induction hrun with
  | refl => rfl
  | @tail tr c₁ c₂ a hrun hstep ih =>
    have hprevious := ih fun t ht => hnone t (List.mem_cons_of_mem _ ht)
    exact (writesOf_of_step hstep (hnone _ (List.mem_cons_self ..))).trans hprevious

theorem threads_start {request : Request} (htask : tasks r = some (.serve request)) :
    (start security settings now tasks).threads r
      = getDb (request.handler security settings (now r)) := by
  show Task.program security settings (now r) (tasks r) = _
  rw [htask]
  rfl

/-- **Authorization**: what a request to a route for users or administrators has returned or changed
in any run comes after its first operation, and at that moment its token named a committed user who
was active, and an administrator if the route asks for one. -/
theorem authorized_of_run
    (hrun : Run Interleaving.Step (start security settings now tasks) tr c)
    {request : Request} (htask : tasks r = some (.serve request))
    (haccess : request.endpoint.access ≠ .anyone) (hacted : HasActed r tr c) :
    ∃ later t earlier, tr = later ++ t :: earlier ∧ t.action = .run r ∧
      (∀ t' ∈ earlier, t'.action.handler ≠ some r) ∧
      Allowed security (now r) request t.before.shared.db := by
  have hstart : (start security settings now tasks).threads r
      = getDb (request.handler security settings (now r)) := threads_start htask
  rcases guarded_handler security settings (now r) request haccess with
    hrefused | ⟨userId, hid, next, hcall, hnext⟩
  · rw [← hstart] at hrefused
    exact absurd hacted (hrefused.not_hasActed hrun)
  rcases exists_first_step hrun r with
    ⟨hnone, hsame⟩ | ⟨later, t, earlier, rfl, hact, hnone, hsame⟩
  · -- it has not moved
    rcases hacted with ⟨response, hreturned⟩ | ⟨t, ht, ha, -⟩
    · rw [hsame, hstart, hcall] at hreturned
      cases hreturned
    · exact absurd ha (hnone t ht)
  obtain ⟨hbefore, hstep⟩ := hrun.of_append
  rw [hstart, hcall] at hsame
  obtain ⟨hunchanged, hthread⟩ := lookup_step hsame hstep hact
  -- a refusal at the lookup would be the end of it
  have hadmitted : ¬ Refused (t.after.threads r) := by
    intro hrefused
    refine hrefused.not_hasActed hrun.after (hacted.imp_right ?_)
    rintro ⟨t', ht', ha, hchanges⟩
    rcases List.mem_append.mp ht' with ht' | ht'
    · exact ⟨t', ht', ha, hchanges⟩
    · rcases List.mem_cons.mp ht' with rfl | ht'
      · rw [hunchanged] at hchanges
        rcases hchanges with h | h | h <;> exact absurd rfl h
      · exact absurd ha (hnone t' ht')
  rcases hthread with ⟨hrunAction, hthread⟩ | ⟨e, hthread⟩
  · rcases hnext (.ok (selectCurrentUser userId (t.before.shared.view r))) with
      ⟨user, session, hfound, hadmits⟩ | hrefused
    · have hidle : t.before.shared.writesOf r = [] := writesOf_of_run hbefore hnone
      rw [World.view_of_writesOf_nil hidle] at hfound
      obtain ⟨hmem, hkey⟩ :=
        Table.find?_eq_some_iff.mp (selectCurrentUser_eq_some (Except.ok.inj hfound)).1
      refine ⟨later, t, earlier, rfl, hrunAction, hnone, user, hmem, ?_, hadmits⟩
      rw [hid, ← hkey]
      rfl
    · exact absurd (hthread ▸ hrefused) hadmitted
  · rcases hnext (.error e) with ⟨user, session, hfound, -⟩ | hrefused
    · cases hfound
    · exact absurd (hthread ▸ hrefused) hadmitted

open Scenario in
/-- The first request for the seat has found an administrator. -/
theorem authorized_seats : ∃ tr c, Run Interleaving.Step seatStart tr c ∧
    ∃ later t earlier, tr = later ++ t :: earlier ∧ t.action = .run 2 ∧
      (∀ t' ∈ earlier, t'.action.handler ≠ some 2) ∧
      Allowed .transparent 0 ⟨bearer admin, .createSeat 1 seatBody⟩ t.before.shared.db := by
  obtain ⟨tr, _, c, _, hrun, hseat, -⟩ := exists_run_seats
  have htask : seatTasks 2 = some (.serve ⟨bearer admin, .createSeat 1 seatBody⟩) := rfl
  exact ⟨tr, c, hrun, authorized_of_run hrun htask (by decide) (.inl ⟨_, hseat⟩)⟩

/-! ### Without the script -/

/-- The change gives nobody a privilege and needs none. -/
def Plain (x : Write) : Prop := ¬ Privileged x ∧ ∀ user, x = .insertUser user → user.role = .user

theorem role_of_plain {db : Db} {ws : List Write} (hdb : ∀ user ∈ db.users.rows, user.role = .user)
    (hws : ∀ x ∈ ws, Plain x) : ∀ user ∈ (db.applyAll ws).users.rows, user.role = .user := by
  intro user huser
  obtain ⟨user₀, hold, -, -, hrest⟩ := Db.mem_users_applyAll huser
  rcases hrest with rfl | ⟨p, hupdate⟩
  · rcases hold with hold | ⟨hinsert, -⟩
    · exact hdb user hold
    · exact (hws _ hinsert).2 user rfl
  · exact absurd (.inr (.inr ⟨_, p, rfl⟩)) (hws _ hupdate).1

/-- What a route that is not for administrators writes. -/
theorem plain_of_writes {request : Request} (haccess : request.endpoint.access ≠ .admin) {x : Write}
    (hx : request.endpoint.writes security x) : Plain x := by
  obtain ⟨authorization, endpoint⟩ := request
  cases endpoint with
  | signup salt data =>
    obtain ⟨user, rfl, hrole, -⟩ := hx
    refine ⟨?_, fun user' h => Write.insertUser.inj h ▸ hrole⟩
    rintro (h | h | ⟨id, p, h⟩) <;> cases h
  | createBooking | cancelBooking =>
    refine ⟨?_, fun user h => ?_⟩
    · rintro (h | h | ⟨id, p, rfl⟩)
      · rcases hx with hx | hx <;> exact absurd (hx.symm.trans h) (by decide)
      · rcases hx with hx | hx <;> exact absurd (hx.symm.trans h) (by decide)
      · rcases hx with hx | hx <;> cases hx
    · subst h
      rcases hx with hx | hx <;> cases hx
  | updateUser | createHall | updateHall | deleteHall | createSeat | bulkCreateSeats | deleteSeat =>
    exact absurd rfl haccess
  | _ => exact hx.elim

/-- The handler makes plain changes only, or it has yet to look for an administrator. -/
def Tame (security : Security) (now : Instant) (p : App Response) : Prop :=
  p.Uses (Touches Plain fun _ => True) ∨
    ∃ authorization, Guarded security now authorization (·.role = .admin) p

theorem Refused.uses {p : App Response} (h : Refused p) :
    p.Uses (Touches Plain fun _ => True) :=
  h.discards.mono fun β op hop => by
    cases op with
    | rollback => trivial
    | _ => exact hop.elim

theorem tame_program (now : Instant) {task : Option Task}
    (hscript : ∀ salt email password, task ≠ some (.createAdmin salt email password)) :
    Tame security now (Task.program security settings now task) := by
  rcases task with _ | request | request | ⟨salt, email, password⟩
  · exact .inl trivial
  · by_cases haccess : request.endpoint.access = .admin
    · refine .inr ⟨request.authorization, ?_⟩
      rcases guarded_handler security settings now request (by simp [haccess]) with
        hrefused | ⟨userId, hid, next, hcall, hnext⟩
      · exact .inl hrefused
      · exact .inr ⟨userId, hid, next, hcall, fun res => (hnext res).imp_left
          fun ⟨user, session, hres, hadmits⟩ => ⟨user, session, hres, hadmits.2 haccess⟩⟩
    · have htouches := (touches_handler security settings now request).mono
        fun _ _ hop => Touches.mono (fun x => plain_of_writes haccess) (fun _ _ => trivial) hop
      exact .inl (uses_getDb htouches trivial trivial)
  · exact .inl (uses_getDb (uses_limited (fun _ => trivial) request) trivial trivial)
  · exact absurd rfl (hscript salt email password)

/-- Nobody has a privilege, and nobody is about to get one. -/
structure Powerless (security : Security) (now : RequestId → Instant)
    (c : Config RequestId World (App Response)) : Prop where
  users : ∀ user ∈ c.shared.db.users.rows, user.role = .user
  halls : c.shared.db.halls.rows = []
  seats : c.shared.db.seats.rows = []
  pending : ∀ r, ∀ x ∈ c.shared.writesOf r, Plain x
  tame : ∀ r, Tame security (now r) (c.threads r)

/-- A step of a request: plain changes, or a lookup that finds no administrator. -/
theorem Powerless.step_self (h : Powerless security now c)
    {a : Action RequestId World.Fault World.Env} (hstep : Interleaving.Step c a = some c')
    (ha : a.handler = some r) : Tame security (now r) (c'.threads r) ∧
      (∀ x ∈ c'.shared.writesOf r, Plain x) ∧
      ∃ ws, (∀ x ∈ ws, Plain x) ∧ c'.shared.db = c.shared.db.applyAll ws := by
  have hplain (huses : (c.threads r).Uses (Touches Plain fun _ => True)) :
      Tame security (now r) (c'.threads r) ∧ (∀ x ∈ c'.shared.writesOf r, Plain x) ∧
        ∃ ws, (∀ x ∈ ws, Plain x) ∧ c'.shared.db = c.shared.db.applyAll ws := by
    obtain ⟨hpending, hwithin⟩ :=
      within_of_performs (h.pending r) (performs_of_step hstep ha huses)
    exact ⟨.inl (huses.next (next_of_step hstep ha)), hpending, hwithin.1⟩
  rcases h.tame r with huses | ⟨authorization, hrefused | ⟨userId, -, next, hcall, hnext⟩⟩
  · exact hplain huses
  · exact hplain hrefused.uses
  obtain ⟨hsame, hthread⟩ := lookup_step hcall hstep ha
  rw [hsame]
  refine ⟨.inr ⟨authorization, .inl ?_⟩, h.pending r, [], by simp, rfl⟩
  rcases hthread with ⟨-, hthread⟩ | ⟨e, hthread⟩
  · rcases hnext (.ok (selectCurrentUser userId (c.shared.view r))) with
      ⟨user, session, hfound, hadmin⟩ | hrefused
    · obtain ⟨hmem, -⟩ :=
        Table.find?_eq_some_iff.mp (selectCurrentUser_eq_some (Except.ok.inj hfound)).1
      have hrole : user.role = .user := role_of_plain h.users (h.pending r) user hmem
      exact absurd (hrole.symm.trans hadmin) (by decide)
    · rwa [hthread]
  · rcases hnext (.error e) with ⟨user, session, hfound, -⟩ | hrefused
    · cases hfound
    · rwa [hthread]

theorem Powerless.step (h : Powerless security now c) {a : Action RequestId World.Fault World.Env}
    (hstep : Interleaving.Step c a = some c') : Powerless security now c' := by
  have hothers {i : RequestId} (hi : a.handler ≠ some i) :
      Tame security (now i) (c'.threads i) ∧ ∀ x ∈ c'.shared.writesOf i, Plain x := by
    rw [threads_of_step hstep hi, writesOf_of_step hstep hi]
    exact ⟨h.tame i, h.pending i⟩
  cases ha : a.handler with
  | none =>
    have hdb : c'.shared.db = c.shared.db := by
      cases a with
      | env e =>
        obtain rfl := step_env hstep
        cases e <;> rfl
      | _ => cases ha
    have hall (i : RequestId) := hothers (i := i) (by simp [ha])
    exact ⟨hdb ▸ h.users, hdb ▸ h.halls, hdb ▸ h.seats, fun i => (hall i).2, fun i => (hall i).1⟩
  | some r =>
    obtain ⟨htame, hpending, ws, hws, hdb⟩ := h.step_self hstep ha
    have huntouched := untouched_applyAll c.shared.db fun x hx => (hws x hx).1
    have hall (i : RequestId) :
        Tame security (now i) (c'.threads i) ∧ ∀ x ∈ c'.shared.writesOf i, Plain x := by
      by_cases hi : i = r
      · subst hi
        exact ⟨htame, hpending⟩
      · exact hothers fun hsome => hi (Option.some.inj (hsome.symm.trans ha))
    refine ⟨?_, ?_, ?_, fun i => (hall i).2, fun i => (hall i).1⟩
    · rw [hdb]
      exact role_of_plain h.users hws
    · rw [hdb, huntouched.halls, h.halls]
    · rw [hdb, huntouched.seats, h.seats]

/-- **No administrator out of nothing**: without the script, no interleaving of requests to an empty
installation makes anybody an administrator, and there is no hall, no seat and no booking. -/
theorem no_admin_of_run (hrun : Run Interleaving.Step (start security settings now tasks) tr c)
    (hscript : ∀ r salt email password, tasks r ≠ some (.createAdmin salt email password)) :
    (∀ user ∈ c.shared.db.users.rows, user.role = .user) ∧ c.shared.db.halls.rows = [] ∧
      c.shared.db.seats.rows = [] ∧ c.shared.db.bookings.rows = [] := by
  have hpowerless : Powerless security now c := by
    refine hrun.invariant_of_step ⟨?_, rfl, rfl, ?_, fun r => ?_⟩ fun h hstep => h.step hstep
    · exact fun user huser => absurd huser List.not_mem_nil
    · exact fun r x hx => absurd hx List.not_mem_nil
    · exact tame_program (now r) (hscript r)
  refine ⟨hpowerless.users, hpowerless.halls, hpowerless.seats, ?_⟩
  -- a booking would have a hall
  have hinv : Inv c.shared := (holds_of_run_with_faults hrun).1
  refine List.eq_nil_iff_forall_not_mem.mpr fun b hb => ?_
  obtain ⟨-, hall, hhall, -⟩ := (Db.integrity_of_valid hinv.consistent.base).bookings b hb
  rw [hpowerless.halls] at hhall
  exact absurd hhall List.not_mem_nil

namespace Scenario

/-- A signup, and nothing else. -/
def signupTasks (r : RequestId) : Option Task :=
  [.serve ⟨none, .signup "" ⟨"bob@example.com", "long password", by decide⟩⟩][r]?

def signupStart : Config RequestId World (App Response) :=
  start .transparent BookingApi.settings (fun _ => 0) signupTasks

end Scenario

open Scenario in
/-- Somebody has signed up, and is no administrator. -/
theorem no_admin_signup : ∃ tr c, Run Interleaving.Step signupStart tr c ∧
    c.shared.db.users.rows.map User.email = ["bob@example.com"] ∧
    ∀ user ∈ c.shared.db.users.rows, user.role = .user := by
  have hreplay : ((replay Interleaving.Step [.run 0, .run 0, .run 0, .run 0] signupStart).map
      fun c => decide (c.shared.db.users.rows.map User.email = ["bob@example.com"]))
        = some true := by decide +kernel
  obtain ⟨tr, c, hrun, hemails⟩ := Run.exists_of_replay _ hreplay
  refine ⟨tr, c, hrun, hemails, (no_admin_of_run hrun fun r salt email password h => ?_).1⟩
  cases List.mem_singleton.mp (List.mem_of_getElem? h)

end BookingApi.Api
