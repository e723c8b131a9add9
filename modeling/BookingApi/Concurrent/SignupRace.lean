import BookingApi.Concurrent.Signup
import BookingApi.World.Frame

/-!
# Signups with one email

Any number of signups with one email, interleaved.  The one that commits its user first succeeds.
A signup that looks for the email after that is refused, but one that has looked before and inserts
after that ends in an `IntegrityError`, which no handler catches: `resolvedCleanly_of_insertSafe`
excludes exactly this.

The invariant is the phase of the race: nobody has a draft, one signup has the only draft, or it has
committed it.
-/

namespace BookingApi.Signup

open Async UserService World

abbrev Config := Async.Config RequestId World Signup

abbrev Action := Async.Action RequestId World.Fault World.Env

def step : Config → Action → Option Config := Async.step World.semantics next

/-- Some signups, each at its start. -/
def start (w : World) (requests : RequestId → SignupArgs) : Config :=
  ⟨w, fun r => ⟨requests r, .select⟩⟩

/-- A committed user has the email. -/
def Registered (db : Db) (email : String) : Prop := ∃ u ∈ db.users.rows, u.email = email

instance (db : Db) (email : String) : Decidable (Registered db email) :=
  inferInstanceAs (Decidable (∃ u ∈ db.users.rows, u.email = email))

/-! ### What a step can do -/

/-- The row that a signup inserts. -/
def newUser (args : SignupArgs) (w : World) : User :=
  ⟨w.sequences.users, args.email, args.hashPassword args.password, .user, true, w.now⟩

def usersCounted (w : World) : Sequences := { w.sequences with users := w.sequences.users + 1 }

/-- A step of a signup that no fault hits. -/
inductive Step (args : SignupArgs) (r : RequestId) : World → SignupPc → World → SignupPc → Prop
  | taken {w : World} : Registered (w.view r) args.email →
      Step args r w .select w (.rollback emailRegistered)
  | vacant {w : World} : Step args r w .select w .flush
  -- the insertion has not had to wait for another one
  | insert {w : World} : ¬ Registered (w.view r) args.email →
      (∀ p ∈ w.pending, p.1 = r ∨ ¬ Write.conflicts p.2 (.insertUser (newUser args w))) →
      Step args r w .flush
        ((w.setSequences (usersCounted w)).stage r [.insertUser (newUser args w)])
        (.refresh w.sequences.users)
  | collide {w : World} : Registered (w.view r) args.email →
      Step args r w .flush (w.setSequences (usersCounted w)) (.rollback .integrityError)
  | refresh {w : World} {userId : ℤ} {user : User} : (w.view r).users.find? userId = some user →
      Step args r w (.refresh userId) w (.commit user)
  | refreshNone {w : World} {userId : ℤ} : (w.view r).users.find? userId = none →
      Step args r w (.refresh userId) w (.rollback .noResultFound)
  | commit {w : World} {user : User} :
      Step args r w (.commit user) (w.commit r) (.done (.ok user))
  | rollback {w : World} {e : Exc} :
      Step args r w (.rollback e) (w.close r) (.done (.error e))

variable {args : SignupArgs} {r : RequestId} {w w₀ : World} {c c' : Config} {email : String}

theorem insertUser_eq (email password : String) (now : Instant) (seqs : Sequences) (db : Db) :
    insertUser email password .user now seqs db
      = if Registered db email then (.error .integrityError, { seqs with users := seqs.users + 1 })
        else (.ok (seqs.users, [.insertUser ⟨seqs.users, email, password, .user, true, now⟩]),
          { seqs with users := seqs.users + 1 }) := by
  rw [insertUser]
  have hany : db.users.rows.any (fun u => u.email = email) = true ↔ Registered db email := by
    rw [List.any_eq_true, Registered]
    simp only [decide_eq_true_eq]
  simp only [hany]

/-- An operation that is not hit by a fault takes one of the steps. -/
theorem step_of_exec {pc : SignupPc} {β : Type} {op : Op β} {resume : Except Exc β → Signup}
    (h : next ⟨args, pc⟩ = .call op resume) (henabled : World.enabled r β op w = true) :
    ∃ pc', resume (World.exec r β op w).1 = ⟨args, pc'⟩ ∧
      Step args r w pc (World.exec r β op w).2 pc' := by
  cases pc <;> simp only [next, reduceCtorEq] at h <;> cases h
  case select =>
    simp only [World.exec]
    cases hfound : (w.view r).users.rows.find? fun u => decide (u.email = args.email) with
    | none => exact ⟨_, rfl, .vacant⟩
    | some u =>
      have hemail := List.find?_some hfound
      rw [decide_eq_true_eq] at hemail
      exact ⟨_, rfl, .taken ⟨u, List.mem_of_find?_eq_some hfound, hemail⟩⟩
  case flush =>
    have hstatement := insertUser_eq args.email (args.hashPassword args.password) w.now
      w.sequences (w.view r)
    by_cases hreg : Registered (w.view r) args.email
    · rw [if_pos hreg] at hstatement
      rw [exec_flush_of_error hstatement]
      exact ⟨_, rfl, .collide hreg⟩
    · rw [if_neg hreg] at hstatement
      rw [exec_flush_of_ok hstatement]
      refine ⟨_, rfl, .insert hreg fun p hp => ?_⟩
      simp only [World.enabled, hstatement, List.all_cons, List.all_nil, Bool.and_true,
        List.all_eq_true, decide_eq_true_eq] at henabled
      exact henabled p hp
  case refresh userId =>
    simp only [World.exec]
    rcases hfound : (w.view r).users.find? userId with _ | user
    · exact ⟨_, rfl, .refreshNone hfound⟩
    · exact ⟨_, rfl, .refresh hfound⟩
  case commit user => exact ⟨_, rfl, .commit⟩
  case rollback e => exact ⟨_, rfl, .rollback⟩

/-- **A step** of the signups that no fault hits. -/
theorem step_cases {a : Action} (h : step c a = some c') (hfree : a.isFault = false) :
    (∃ r pc', a = .run r ∧
      Step (c.threads r).args r c.shared (c.threads r).pc c'.shared pc' ∧
      c'.threads = Function.update c.threads r ⟨(c.threads r).args, pc'⟩) ∨
    ∃ e, a = .env e ∧ c' = ⟨World.env e c.shared, c.threads⟩ := by
  cases a with
  | run r =>
    obtain ⟨β, op, resume, hnext, henabled, hshared, hthreads⟩ := step_run h
    obtain ⟨pc', hpc', hstep⟩ := step_of_exec hnext henabled
    refine .inl ⟨r, pc', rfl, hshared ▸ hstep, ?_⟩
    rw [hthreads]
    exact congrArg _ hpc'
  | fault r f => cases hfree
  | env e => exact .inr ⟨e, rfl, step_env h⟩

/-! ### The phases of the race -/

/-- A signup without a draft, which has been refused if it has an exception. -/
def Waiting (db : Db) (email : String) : SignupPc → Prop
  | .select | .flush => True
  | .rollback e | .done (.error e) => e = emailRegistered ∧ Registered db email
  | .refresh _ | .commit _ | .done (.ok _) => False

/-- A signup with a draft of the user. -/
def Drafts (u : User) : SignupPc → Prop
  | .refresh userId => userId = u.id
  | .commit user => user = u
  | _ => False

/-- How far the race is. -/
inductive Phase (w₀ : World) (email : String) (c : Config) : Prop
  | undecided : c.shared.pending = [] → c.shared.db.users = w₀.db.users →
      (∀ r, Waiting c.shared.db email (c.threads r).pc) → Phase w₀ email c
  | drafted {i : RequestId} {u : User} : c.shared.pending = [(i, .insertUser u)] →
      c.shared.db.users = w₀.db.users → ¬ Registered w₀.db email → u.email = email →
      (∀ u' ∈ w₀.db.users.rows, u'.id ≠ u.id) → Drafts u (c.threads i).pc →
      (∀ r, r ≠ i → Waiting c.shared.db email (c.threads r).pc) → Phase w₀ email c
  | decided {i : RequestId} {u : User} : c.shared.pending = [] →
      c.shared.db.users.rows = w₀.db.users.rows ++ [u] → ¬ Registered w₀.db email →
      u.email = email → (c.threads i).pc = .done (.ok u) →
      (∀ r, r ≠ i → Waiting c.shared.db email (c.threads r).pc) → Phase w₀ email c

/-- The invariant of a race. -/
structure RaceInv (w₀ : World) (email : String) (c : Config) : Prop where
  args : ∀ r, (c.threads r).args.email = email
  numbered : ∀ u ∈ w₀.db.users.rows, u.id < c.shared.sequences.users
  phase : Phase w₀ email c

/-- Before a signup inserts, no user with its email is committed. -/
def InsertSafe (c : Config) : Action → Prop
  | .run r => (c.threads r).pc = .flush → ¬ Registered c.shared.db (c.threads r).args.email
  | _ => True

instance (c : Config) : ∀ a : Action, Decidable (InsertSafe c a)
  | .run _ => inferInstanceAs (Decidable (_ → ¬ _))
  | .fault _ _ => .isTrue trivial
  | .env _ => .isTrue trivial

/-! ### One step -/

/-- A signup without a draft keeps waiting, is refused, or writes the draft. -/
theorem Step.of_waiting {w' : World} {pc pc' : SignupPc} (h : Step args r w pc w' pc')
    (hidle : w.writesOf r = []) (hwaiting : Waiting w.db args.email pc)
    (hsafe : pc = .flush → ¬ Registered w.db args.email) :
    w' = w ∧ Waiting w.db args.email pc' ∨
      ¬ Registered w.db args.email ∧
        (∀ p ∈ w.pending, p.1 = r ∨ ¬ Write.conflicts p.2 (.insertUser (newUser args w))) ∧
        w' = (w.setSequences (usersCounted w)).stage r [.insertUser (newUser args w)] ∧
        pc' = .refresh (newUser args w).id := by
  have hview := view_of_writesOf_nil hidle
  cases h with
  | taken hreg => exact .inl ⟨rfl, rfl, hview ▸ hreg⟩
  | vacant => exact .inl ⟨rfl, trivial⟩
  | insert hreg hfree => exact .inr ⟨hview ▸ hreg, hfree, rfl, rfl⟩
  | collide hreg => exact absurd (hview ▸ hreg) (hsafe rfl)
  | refresh => exact hwaiting.elim
  | refreshNone => exact hwaiting.elim
  | commit => exact hwaiting.elim
  | rollback => exact .inl ⟨close_of_idle hidle, hwaiting⟩

/-- A signup with a draft reads it back, or commits it. -/
theorem Step.of_drafts {w' : World} {pc pc' : SignupPc} {u : User} (h : Step args r w pc w' pc')
    (hwrites : w.writesOf r = [.insertUser u]) (hfresh : ∀ u' ∈ w.db.users.rows, u'.id ≠ u.id)
    (hdrafts : Drafts u pc) :
    w' = w ∧ Drafts u pc' ∨ w' = w.commit r ∧ pc' = .done (.ok u) := by
  have hfind : (w.view r).users.find? u.id = some u := by
    refine Table.find?_eq_some_iff.mpr ⟨?_, rfl⟩
    rw [World.view, hwrites]
    show u ∈ (w.db.users.insert u).rows
    rw [Table.rows_insert hfresh]
    exact List.mem_append_right _ (List.mem_singleton_self u)
  cases h with
  | refresh hfound =>
    obtain rfl : _ = u.id := hdrafts
    exact .inl ⟨rfl, Option.some.inj (hfound.symm.trans hfind)⟩
  | refreshNone hfound =>
    obtain rfl : _ = u.id := hdrafts
    cases hfound.symm.trans hfind
  | commit =>
    obtain rfl : _ = u := hdrafts
    exact .inr ⟨rfl, rfl⟩
  | _ => exact hdrafts.elim

theorem Step.sequences_le {w' : World} {pc pc' : SignupPc} (h : Step args r w pc w' pc') :
    w.sequences.users ≤ w'.sequences.users := by
  cases h with
  | insert => exact (lt_add_one w.sequences.users).le
  | collide => exact (lt_add_one w.sequences.users).le
  | _ => exact le_rfl

theorem Waiting.mono {db db' : Db} {pc : SignupPc} (h : Waiting db email pc)
    (hreg : Registered db email → Registered db' email) : Waiting db' email pc := by
  rcases pc with _ | _ | _ | _ | e | (e | u)
  case rollback => exact ⟨h.1, hreg h.2⟩
  case done.error => exact ⟨h.1, hreg h.2⟩
  all_goals exact h

/-- The control points after a step of one signup. -/
theorem forall_pc {P : RequestId → SignupPc → Prop} {pc' : SignupPc}
    (hthreads : c'.threads = Function.update c.threads r ⟨(c.threads r).args, pc'⟩)
    (hself : P r pc') (hothers : ∀ j, j ≠ r → P j (c.threads j).pc) :
    ∀ j, P j (c'.threads j).pc := by
  rw [hthreads]
  exact (Function.forall_update_iff c.threads fun j thread => P j thread.pc).mpr ⟨hself, hothers⟩

theorem Drafts.not_waiting {db : Db} {u : User} {pc : SignupPc} (h : Drafts u pc) :
    ¬ Waiting db email pc := by
  cases pc with
  | refresh => exact id
  | commit => exact id
  | _ => exact h.elim

/-- A signup that keeps waiting. -/
theorem Phase.wait (hphase : Phase w₀ email c) (hs : c'.shared = c.shared) {pc' : SignupPc}
    (hthreads : c'.threads = Function.update c.threads r ⟨(c.threads r).args, pc'⟩)
    (hwaiting : Waiting c.shared.db email (c.threads r).pc)
    (hwaiting' : Waiting c.shared.db email pc') : Phase w₀ email c' := by
  cases hphase with
  | undecided hpending husers hwait =>
    refine .undecided (hs ▸ hpending) (hs ▸ husers) ?_
    rw [hs]
    exact forall_pc hthreads hwaiting' fun j _ => hwait j
  | @drafted i u hpending husers hreg hemail hfresh hdrafts hwait =>
    have hir : i ≠ r := by
      rintro rfl
      exact hdrafts.not_waiting hwaiting
    refine .drafted (hs ▸ hpending) (hs ▸ husers) hreg hemail hfresh ?_ ?_
    · rw [hthreads, Function.update_of_ne hir]
      exact hdrafts
    · rw [hs]
      exact forall_pc (P := fun j pc => j ≠ i → Waiting _ _ pc) hthreads (fun _ => hwaiting')
        fun j _ => hwait j
  | @decided i u hpending husers hreg hemail hpc hwait =>
    have hir : i ≠ r := by
      rintro rfl
      rw [hpc] at hwaiting
      exact hwaiting
    refine .decided (i := i) (hs ▸ hpending) (hs ▸ husers) hreg hemail ?_ ?_
    · rw [hthreads, Function.update_of_ne hir]
      exact hpc
    · rw [hs]
      exact forall_pc (P := fun j pc => j ≠ i → Waiting _ _ pc) hthreads (fun _ => hwaiting')
        fun j _ => hwait j

/-- The first draft. -/
theorem phase_of_insert (hpending : c.shared.pending = [])
    (husers : c.shared.db.users = w₀.db.users)
    (hwait : ∀ j, Waiting c.shared.db args.email (c.threads j).pc)
    (hnumbered : ∀ u ∈ w₀.db.users.rows, u.id < c.shared.sequences.users)
    (hreg : ¬ Registered c.shared.db args.email)
    (hs : c'.shared = (c.shared.setSequences (usersCounted c.shared)).stage r
      [.insertUser (newUser args c.shared)])
    (hthreads : c'.threads = Function.update c.threads r
      ⟨(c.threads r).args, .refresh (newUser args c.shared).id⟩) :
    Phase w₀ args.email c' := by
  have hreg₀ : ¬ Registered w₀.db args.email := by
    rwa [Registered, ← husers]
  refine .drafted (i := r) (u := newUser args c.shared) ?_ ?_ hreg₀ rfl ?_ ?_ ?_
  · rw [hs, World.stage]
    show c.shared.pending ++ _ = _
    rw [hpending]
    rfl
  · rw [hs]
    exact husers
  · exact fun u hu => (hnumbered u hu).ne
  · rw [hthreads, Function.update_self]
    rfl
  · rw [hs]
    exact forall_pc (P := fun j pc => j ≠ r → Waiting _ _ pc) hthreads
      (fun hne => absurd rfl hne) fun j _ _ => hwait j

/-- The signup with the draft commits it. -/
theorem phase_of_commit {u : User} (hpending : c.shared.pending = [(r, .insertUser u)])
    (husers : c.shared.db.users = w₀.db.users) (hreg : ¬ Registered w₀.db email)
    (hemail : u.email = email) (hfresh : ∀ u' ∈ w₀.db.users.rows, u'.id ≠ u.id)
    (hwait : ∀ j, j ≠ r → Waiting c.shared.db email (c.threads j).pc)
    (hs : c'.shared = c.shared.commit r)
    (hthreads : c'.threads = Function.update c.threads r ⟨(c.threads r).args, .done (.ok u)⟩) :
    Phase w₀ email c' := by
  have hwrites : c.shared.writesOf r = [.insertUser u] := by
    rw [writesOf, hpending]
    simp
  have hrows : c'.shared.db.users.rows = w₀.db.users.rows ++ [u] := by
    rw [hs]
    show (c.shared.view r).users.rows = _
    rw [World.view, hwrites, ← husers]
    exact Table.rows_insert (husers ▸ hfresh)
  have hnow : Registered c'.shared.db email := by
    refine ⟨u, ?_, hemail⟩
    rw [hrows]
    exact List.mem_append_right _ (List.mem_singleton_self u)
  refine .decided (i := r) (u := u) ?_ hrows hreg hemail ?_ fun j hj => ?_
  · rw [hs, World.commit, World.close]
    show c.shared.pending.filter _ = []
    rw [hpending]
    simp
  · rw [hthreads, Function.update_self]
  · rw [hthreads, Function.update_of_ne hj]
    exact (hwait j hj).mono fun _ => hnow

/-- **One step** of a race. -/
theorem phase_step (hi : RaceInv w₀ email c) {pc' : SignupPc} (hsafe : InsertSafe c (.run r))
    (h : Step (c.threads r).args r c.shared (c.threads r).pc c'.shared pc')
    (hthreads : c'.threads = Function.update c.threads r ⟨(c.threads r).args, pc'⟩) :
    Phase w₀ email c' := by
  obtain rfl := hi.args r
  cases hi.phase with
  | undecided hpending husers hwait =>
    have hidle : c.shared.writesOf r = [] := by rw [writesOf, hpending]; rfl
    rcases h.of_waiting hidle (hwait r) hsafe with ⟨hs, hwaiting⟩ | ⟨hreg, -, hs, rfl⟩
    · exact hi.phase.wait hs hthreads (hwait r) hwaiting
    · exact phase_of_insert hpending husers hwait hi.numbered hreg hs hthreads
  | @drafted i u hpending husers hreg hemail hfresh hdrafts hwait =>
    by_cases hir : i = r
    · subst hir
      have hwrites : c.shared.writesOf i = [.insertUser u] := by
        rw [writesOf, hpending]
        simp
      rcases h.of_drafts hwrites (husers ▸ hfresh) hdrafts with ⟨hs, hdrafts'⟩ | ⟨hs, rfl⟩
      · refine .drafted (hs ▸ hpending) (hs ▸ husers) hreg hemail hfresh ?_ fun j hj => ?_
        · rw [hthreads, Function.update_self]
          exact hdrafts'
        · rw [hs, hthreads, Function.update_of_ne hj]
          exact hwait j hj
      · exact phase_of_commit hpending husers hreg hemail hfresh hwait hs hthreads
    · -- another signup has to wait, since the draft has its email
      have hidle : c.shared.writesOf r = [] := by
        rw [writesOf, hpending]
        simp [hir]
      have hwaiting := hwait r (Ne.symm hir)
      rcases h.of_waiting hidle hwaiting hsafe with ⟨hs, hwaiting'⟩ | ⟨-, hfree, -, -⟩
      · exact hi.phase.wait hs hthreads hwaiting hwaiting'
      · have hconflict := hfree (i, .insertUser u) (by
          rw [hpending]
          exact List.mem_singleton_self _)
        exact absurd (decide_eq_true hemail) (hconflict.resolve_left hir)
  | @decided i u hpending husers hreg hemail hpc hwait =>
    have hir : r ≠ i := by
      rintro rfl
      rw [hpc] at h
      cases h
    have hidle : c.shared.writesOf r = [] := by rw [writesOf, hpending]; rfl
    have hmem : u ∈ c.shared.db.users.rows := by
      rw [husers]
      exact List.mem_append_right _ (List.mem_singleton_self u)
    rcases h.of_waiting hidle (hwait r hir) hsafe with ⟨hs, hwaiting⟩ | ⟨hvacant, -⟩
    · exact hi.phase.wait hs hthreads (hwait r hir) hwaiting
    · exact absurd ⟨u, hmem, hemail⟩ hvacant

/-! ### Runs -/

/-- No transaction is open, and the ids of the users are below their sequence. -/
structure AtRest (w : World) : Prop where
  idle : w.pending = []
  numbered : ∀ u ∈ w.db.users.rows, u.id < w.sequences.users

variable {requests : RequestId → SignupArgs} {tr : List (Transition Config Action)}

theorem raceInv_start (hw : AtRest w₀) (hemail : ∀ r, (requests r).email = email) :
    RaceInv w₀ email (start w₀ requests) :=
  ⟨hemail, hw.numbered, .undecided hw.idle rfl fun _ => trivial⟩

theorem raceInv_step (hi : RaceInv w₀ email c) {a : Action} (hfree : a.isFault = false)
    (hsafe : InsertSafe c a) (h : step c a = some c') : RaceInv w₀ email c' := by
  rcases step_cases h hfree with ⟨r, pc', rfl, hstep, hthreads⟩ | ⟨e, rfl, rfl⟩
  · refine ⟨?_, fun u hu => (hi.numbered u hu).trans_le hstep.sequences_le,
      phase_step hi hsafe hstep hthreads⟩
    rw [hthreads]
    exact (Function.forall_update_iff c.threads fun _ signup => signup.args.email = email).mpr
      ⟨hi.args r, fun j _ => hi.args j⟩
  · refine ⟨hi.args, ?_, ?_⟩
    · cases e <;> exact hi.numbered
    · cases hi.phase with
      | undecided hpending husers hwait =>
        cases e <;> exact .undecided hpending husers hwait
      | drafted hpending husers hreg hemail hfresh hdrafts hwait =>
        cases e <;> exact .drafted hpending husers hreg hemail hfresh hdrafts hwait
      | decided hpending husers hreg hemail hpc hwait =>
        cases e <;> exact .decided hpending husers hreg hemail hpc hwait

/-- **The invariant** of every run of safe steps that no fault hits. -/
theorem raceInv_run (hw : AtRest w₀) (hemail : ∀ r, (requests r).email = email)
    (h : Run step (start w₀ requests) tr c) (hfree : ∀ t ∈ tr, t.action.isFault = false)
    (hsafe : ∀ t ∈ tr, InsertSafe t.before t.action) : RaceInv w₀ email c :=
  h.invariant (A := fun c a => a.isFault = false ∧ InsertSafe c a) (raceInv_start hw hemail)
    (fun hi ha hstep => raceInv_step hi ha.1 ha.2 hstep) fun t ht => ⟨hfree t ht, hsafe t ht⟩

/-- How the signups have come out so far. -/
structure ResolvedCleanly (w₀ : World) (email : String) (c : Config) : Prop where
  /-- One user is committed if there was none with the email, and none otherwise. -/
  users : c.shared.db.users.rows = w₀.db.users.rows ∨ ¬ Registered w₀.db email ∧
    ∃ u, u.email = email ∧ c.shared.db.users.rows = w₀.db.users.rows ++ [u]
  /-- The signup that has committed it succeeds, and no other one. -/
  winner : ∀ u ∈ c.shared.db.users.rows, u ∉ w₀.db.users.rows →
    ∃ r, (c.threads r).pc = .done (.ok u)
  succeeds : ∀ r u, (c.threads r).pc = .done (.ok u) →
    u ∈ c.shared.db.users.rows ∧ u ∉ w₀.db.users.rows ∧
      ∀ r' u', (c.threads r').pc = .done (.ok u') → r' = r
  /-- The others are refused. -/
  refused : ∀ r e, (c.threads r).pc = .done (.error e) → e = emailRegistered
  /-- Once a signup has ended, there is a user with the email. -/
  registered : ∀ r result, (c.threads r).pc = .done result → Registered c.shared.db email

theorem Waiting.of_done {db : Db} {result : Except Exc User}
    (h : Waiting db email (.done result)) :
    result = .error emailRegistered ∧ Registered db email := by
  cases result with
  | ok u => exact h.elim
  | error e => exact ⟨congrArg _ h.1, h.2⟩

/-- While nobody has committed a user, every signup that has ended is refused. -/
theorem resolvedCleanly_of_undecided (husers : c.shared.db.users = w₀.db.users)
    (hended : ∀ r result, (c.threads r).pc = .done result →
      result = .error emailRegistered ∧ Registered c.shared.db email) :
    ResolvedCleanly w₀ email c := by
  refine ⟨.inl (by rw [husers]), fun u hu hnew => ?_, fun r u hpc => ?_, fun r e hpc => ?_,
    fun r result hpc => (hended r result hpc).2⟩
  · rw [husers] at hu
    exact absurd hu hnew
  · cases (hended r _ hpc).1
  · exact Except.error.inj (hended r _ hpc).1

theorem resolvedCleanly_of_phase (h : Phase w₀ email c) : ResolvedCleanly w₀ email c := by
  cases h with
  | undecided _ husers hwait =>
    refine resolvedCleanly_of_undecided husers fun r result hpc => ?_
    have hdone := hwait r
    rw [hpc] at hdone
    exact hdone.of_done
  | @drafted i u _ husers _ _ _ hdrafts hwait =>
    refine resolvedCleanly_of_undecided husers fun r result hpc => ?_
    by_cases hr : r = i
    · rw [← hr, hpc] at hdrafts
      exact hdrafts.elim
    · have hdone := hwait r hr
      rw [hpc] at hdone
      exact hdone.of_done
  | @decided i u _ husers hreg hemail hpc hwait =>
    have hmem : u ∈ c.shared.db.users.rows := by
      rw [husers]
      exact List.mem_append_right _ (List.mem_singleton_self u)
    have hended (r : RequestId) (result : Except Exc User) (hr : r ≠ i)
        (hpc' : (c.threads r).pc = .done result) : result = .error emailRegistered := by
      have hdone := hwait r hr
      rw [hpc'] at hdone
      exact hdone.of_done.1
    have hwinner (r : RequestId) (u' : User) (hpc' : (c.threads r).pc = .done (.ok u')) :
        r = i := by
      by_contra hr
      cases hended r _ hr hpc'
    refine ⟨.inr ⟨hreg, u, hemail, husers⟩, fun u' hu' hnew => ⟨i, ?_⟩, fun r u' hpc' => ?_,
      fun r e hpc' => ?_, fun _ _ _ => ⟨u, hmem, hemail⟩⟩
    · rw [husers, List.mem_append, List.mem_singleton] at hu'
      rw [hu'.resolve_left hnew]
      exact hpc
    · obtain rfl := hwinner r u' hpc'
      obtain rfl := Except.ok.inj (SignupPc.done.inj (hpc.symm.trans hpc'))
      refine ⟨hmem, fun hold => hreg ⟨u, hold, hemail⟩, fun r' u' hpc' => hwinner r' u' hpc'⟩
    · have hr : r ≠ i := by
        rintro rfl
        cases hpc.symm.trans hpc'
      exact Except.error.inj (hended r _ hr hpc')

/-- **A race is resolved cleanly** if no signup inserts while a user with its email is committed. -/
theorem resolvedCleanly_of_insertSafe (hw : AtRest w₀) (hemail : ∀ r, (requests r).email = email)
    (h : Run step (start w₀ requests) tr c) (hfree : ∀ t ∈ tr, t.action.isFault = false)
    (hsafe : ∀ t ∈ tr, InsertSafe t.before t.action) : ResolvedCleanly w₀ email c :=
  resolvedCleanly_of_phase (raceInv_run hw hemail h hfree hsafe).phase

namespace Scenario

/-- Signups with one email, each with its own password. -/
def signups (r : RequestId) : SignupArgs := ⟨id, "ann@example.com", toString r⟩

/-- A number of undisturbed steps of one signup. -/
def times (n : ℕ) (r : RequestId) : List Action := List.replicate n (.run r)

/-- One signup, and then another one that looks for the email. -/
def oneByOne : List Action := times 4 0 ++ times 2 1

/-- Both look for the email before the first one commits its user. -/
def bothLook : List Action := times 1 0 ++ times 1 1 ++ times 3 0 ++ times 2 1

/-- A schedule that replays with a check of every step. -/
theorem exists_run {ok : Config → Action → Bool} {schedule : List Action} (P : Config → Prop)
    [DecidablePred P] (h : ((replay (checked step ok) schedule (start .initial signups)).map
      fun c => decide (P c)) = some true) :
    ∃ tr c, Run step (start .initial signups) tr c ∧ (∀ t ∈ tr, ok t.before t.action) ∧ P c := by
  obtain ⟨tr, c, hrun, hP⟩ := Run.exists_of_replay P h
  obtain ⟨hrun, hok⟩ := Run.of_checked hrun
  exact ⟨tr, c, hrun, hok, hP⟩

end Scenario

open Scenario

/-- The first signup succeeds, and the second one is refused. -/
theorem resolvedCleanly_oneByOne : ∃ tr c, Run step (start .initial signups) tr c ∧
    ((c.threads 0).pc = .done (.ok ⟨1, "ann@example.com", "0", .user, true, 0⟩) ∧
      (c.threads 1).pc = .done (.error emailRegistered)) ∧
    ResolvedCleanly .initial "ann@example.com" c := by
  have hreplay : ((replay (checked step fun c a => !a.isFault && decide (InsertSafe c a)) oneByOne
      (start .initial signups)).map fun c => decide
        ((c.threads 0).pc = .done (.ok ⟨1, "ann@example.com", "0", .user, true, 0⟩) ∧
          (c.threads 1).pc = .done (.error emailRegistered))) = some true := by decide +kernel
  obtain ⟨tr, c, hrun, hok, hended⟩ := exists_run _ hreplay
  simp only [Bool.and_eq_true, Bool.not_eq_true', decide_eq_true_eq] at hok
  exact ⟨tr, c, hrun, hended, resolvedCleanly_of_insertSafe ⟨rfl, nofun⟩ (fun _ => rfl) hrun
    (fun t ht => (hok t ht).1) fun t ht => (hok t ht).2⟩

/-- A signup that has looked for the email before the other one commits, and inserts after that, is
not refused. -/
theorem exists_integrityError : ∃ tr c, Run step (start .initial signups) tr c ∧
    (∀ t ∈ tr, t.action.isFault = false) ∧ ¬ ResolvedCleanly .initial "ann@example.com" c := by
  have hreplay : ((replay (checked step fun _ a => !a.isFault) bothLook
      (start .initial signups)).map fun c => decide
        ((c.threads 1).pc = .done (.error .integrityError))) = some true := by decide +kernel
  obtain ⟨tr, c, hrun, hok, hpc⟩ := exists_run _ hreplay
  refine ⟨tr, c, hrun, fun t ht => Bool.not_eq_true' _ ▸ hok t ht, fun h => ?_⟩
  cases h.refused 1 _ hpc

end BookingApi.Signup
