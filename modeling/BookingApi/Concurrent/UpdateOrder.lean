import BookingApi.Concurrent.UpdateHall
import BookingApi.HallService.Columns
import BookingApi.Serial.Routes

/-!
# Two concurrent updates of one hall

Two `PATCH /halls/:id` of one hall, interleaved.  An update that has loaded the hall before the
other one commits is stale: its `UPDATE` leaves out the columns whose values it has loaded, so that
the final row can mix the two bodies.  `serializable_iff` says when it does not.
-/

namespace BookingApi.Update

open Async HallService Serial StaleUpdate World

abbrev Config := Async.Config RequestId World Update

abbrev Action := Async.Action RequestId World.Fault World.Env

def step : Config → Action → Option Config := Async.step World.semantics next

/-- Two updates of a hall at their starts; no other request is under way. -/
def start (w : World) (hallId : ℤ) (bodies : RequestId → HallUpdate) : Config :=
  ⟨w, fun r => ⟨hallId, bodies r, if r < 2 then .select else .done (.error .hallNotFound)⟩⟩

/-! ### What a step can do -/

/-- A step of an update; it fails by an exception of its own or by a fault. -/
inductive Step (hallId : ℤ) (data : HallUpdate) (r : RequestId) :
    World → UpdatePc → World → UpdatePc → Prop
  | select {w : World} {hall : Hall} : (w.view r).halls.find? hallId = some hall →
      Step hallId data r w .select w (.flush hall)
  | flush {w : World} {hall : Hall} {patch : HallPatch} : hallPatch hall data = .ok patch →
      Step hallId data r w (.flush hall) (w.stage r (updateHallRow hallId patch)) .refresh
  | refresh {w : World} {answer : HallResponse} :
      Step hallId data r w .refresh w (.commit answer)
  | commit {w : World} {answer : HallResponse} :
      Step hallId data r w (.commit answer) (w.commit r) (.done (.ok answer))
  | fail {w : World} {pc : UpdatePc} {e : Exc} : (∀ result, pc ≠ .done result) →
      Step hallId data r w pc w (.rollback e)
  | rollback {w : World} {e e' : Exc} :
      Step hallId data r w (.rollback e) (w.close r) (.done (.error e'))

variable {hallId : ℤ} {data : HallUpdate} {r : RequestId} {w w₀ : World} {c c' : Config}
  {pc pc' : UpdatePc} {β : Type} {op : Op β} {resume : Except Exc β → Update}

theorem step_of_exec (h : next ⟨hallId, data, pc⟩ = .call op resume) :
    ∃ pc', resume (World.exec r β op w).1 = ⟨hallId, data, pc'⟩ ∧
      Step hallId data r w pc (World.exec r β op w).2 pc' := by
  cases pc <;> simp only [next, reduceCtorEq] at h <;> cases h
  case select =>
    simp only [World.exec]
    rcases hfound : (w.view r).halls.find? hallId with _ | hall
    · exact ⟨_, rfl, .fail (by simp)⟩
    · exact ⟨_, rfl, .select hfound⟩
  case flush hall =>
    cases hpatch : hallPatch hall data with
    | error e =>
      have hstatement : updateLoadedHall hallId data hall w.now w.sequences (w.view r)
          = (.error e, w.sequences) := by
        simp only [updateLoadedHall, hpatch]
      rw [exec_flush_of_error hstatement]
      exact ⟨_, rfl, .fail (by simp)⟩
    | ok patch =>
      have hstatement : updateLoadedHall hallId data hall w.now w.sequences (w.view r)
          = (.ok ((), updateHallRow hallId patch), w.sequences) := by
        simp only [updateLoadedHall, hpatch]
      rw [exec_flush_of_ok hstatement]
      exact ⟨_, rfl, .flush hpatch⟩
  case refresh =>
    simp only [World.exec]
    rcases (w.view r).halls.find? hallId with _ | hall
    · exact ⟨_, rfl, .fail (by simp)⟩
    · exact ⟨_, rfl, .refresh⟩
  case commit answer => exact ⟨_, rfl, .commit⟩
  case rollback e => exact ⟨_, rfl, .rollback⟩

theorem step_of_fault {w' : World} {f : World.Fault} {e : Exc}
    (h : next ⟨hallId, data, pc⟩ = .call op resume)
    (hf : World.fault r β op f w = some (e, w')) :
    ∃ pc', resume (.error e) = ⟨hallId, data, pc'⟩ ∧ Step hallId data r w pc w' pc' := by
  cases pc <;> simp only [next, reduceCtorEq] at h <;> cases h <;> cases f <;>
    simp only [World.fault, Option.some.injEq, Prod.mk.injEq, reduceCtorEq] at hf <;>
    obtain ⟨-, rfl⟩ := hf
  case rollback.refl.noEffect => exact ⟨_, rfl, .rollback⟩
  all_goals exact ⟨_, rfl, .fail (by simp)⟩

/-- **A step** of the updates. -/
theorem step_cases {a : Action} (h : step c a = some c') :
    (∃ r pc', Step (c.threads r).hallId (c.threads r).data r c.shared (c.threads r).pc c'.shared
        pc' ∧ c'.threads = Function.update c.threads r { c.threads r with pc := pc' }) ∨
    ∃ e, c' = ⟨World.env e c.shared, c.threads⟩ := by
  cases a with
  | run r =>
    obtain ⟨β, op, resume, hnext, -, hshared, hthreads⟩ := step_run h
    obtain ⟨pc', hpc', hstep⟩ := step_of_exec (r := r) (w := c.shared) hnext
    exact .inl ⟨r, pc', hshared ▸ hstep, hthreads.trans (congrArg _ hpc')⟩
  | fault r f =>
    obtain ⟨β, op, resume, e, hnext, hfault, hthreads⟩ := step_fault h
    obtain ⟨pc', hpc', hstep⟩ := step_of_fault hnext hfault
    exact .inl ⟨r, pc', hstep, hthreads.trans (congrArg _ hpc')⟩
  | env e => exact .inr ⟨e, step_env h⟩

/-! ### The order of events -/

abbrev Trace := List (Transition Config Action)

/-- The update has succeeded. -/
def Committed (c : Config) (r : RequestId) : Prop :=
  ∃ answer, (c.threads r).pc = .done (.ok answer)

/-- In this transition the update loads the hall. -/
def Loads (r : RequestId) (t : Transition Config Action) : Prop :=
  (t.before.threads r).pc = .select ∧ ∃ hall, (t.after.threads r).pc = .flush hall

/-- One update has loaded the hall before the other one has committed. -/
def LoadsBefore (tr : Trace) (i j : RequestId) : Prop :=
  ∃ t ∈ tr, Loads i t ∧ ¬ Committed t.before j

/-- One update has committed before the other one. -/
def CommitsBefore (tr : Trace) (i j : RequestId) : Prop :=
  ∃ t ∈ tr, Committed t.before i ∧ ¬ Committed t.before j

variable {h₀ : Hall} {bodies : RequestId → HallUpdate} {tr : Trace} {t : Transition Config Action}
  {i j : RequestId} {hall : Hall}

theorem loadsBefore_cons : LoadsBefore (t :: tr) i j ↔
    Loads i t ∧ ¬ Committed t.before j ∨ LoadsBefore tr i j := by
  simp only [LoadsBefore, List.exists_mem_cons_iff]

theorem commitsBefore_cons : CommitsBefore (t :: tr) i j ↔
    Committed t.before i ∧ ¬ Committed t.before j ∨ CommitsBefore tr i j := by
  simp only [CommitsBefore, List.exists_mem_cons_iff]

/-! ### The invariant -/

/-- What update `i` has loaded: the hall as it was at the start, or as update `j` has left it. -/
def Snapshot (h₀ : Hall) (bodies : RequestId → HallUpdate) (tr : Trace) (c : Config)
    (i j : RequestId) (hall : Hall) : Prop :=
  hall = h₀ ∧ LoadsBefore tr i j ∨
    ¬ LoadsBefore tr i j ∧ Committed c j ∧
      ∃ patch, hallPatch h₀ (bodies j) = .ok patch ∧ hall = h₀.patch patch

/-- What holds of update `i` at a control point. -/
def Underway (hallId : ℤ) (h₀ : Hall) (bodies : RequestId → HallUpdate) (tr : Trace) (c : Config)
    (i j : RequestId) : UpdatePc → Prop
  | .select => (∀ t ∈ tr, ¬ Loads i t) ∧ c.shared.writesOf i = []
  | .flush hall => Snapshot h₀ bodies tr c i j hall ∧ c.shared.writesOf i = []
  | .refresh | .commit _ => ∃ hall patch, Snapshot h₀ bodies tr c i j hall ∧
      hallPatch hall (bodies i) = .ok patch ∧ c.shared.writesOf i = updateHallRow hallId patch
  | .rollback _ | .done _ => True

/-- How many of the updates have committed. -/
inductive Stage (w₀ : World) (hallId : ℤ) (h₀ : Hall) (bodies : RequestId → HallUpdate)
    (tr : Trace) (c : Config) : Prop
  | none : c.shared.db = w₀.db → (∀ i, ¬ Committed c i) → (∀ t ∈ tr, ∀ i, ¬ Committed t.before i) →
      Stage w₀ hallId h₀ bodies tr c
  | one {i j : RequestId} {patch : HallPatch} : i + j = 1 → Committed c i → ¬ Committed c j →
      (∀ t ∈ tr, ¬ Committed t.before j) → hallPatch h₀ (bodies i) = .ok patch →
      c.shared.db = w₀.db.applyAll (updateHallRow hallId patch) → Stage w₀ hallId h₀ bodies tr c
  | both {i j : RequestId} {patch patch' : HallPatch} {hall : Hall} : i + j = 1 →
      Committed c i → Committed c j → CommitsBefore tr i j → ¬ CommitsBefore tr j i →
      hallPatch h₀ (bodies i) = .ok patch → Snapshot h₀ bodies tr c j i hall →
      hallPatch hall (bodies j) = .ok patch' →
      c.shared.db = (w₀.db.applyAll (updateHallRow hallId patch)).applyAll
        (updateHallRow hallId patch') → Stage w₀ hallId h₀ bodies tr c

/-- The invariant of two updates. -/
structure OrderInv (w₀ : World) (hallId : ℤ) (h₀ : Hall) (bodies : RequestId → HallUpdate)
    (tr : Trace) (c : Config) : Prop where
  inputs : ∀ r, (c.threads r).hallId = hallId ∧ (c.threads r).data = bodies r
  ended : ∀ r, 2 ≤ r → ∃ e, (c.threads r).pc = .done (.error e)
  underway : ∀ i j, i + j = 1 → Underway hallId h₀ bodies tr c i j (c.threads i).pc
  stage : Stage w₀ hallId h₀ bodies tr c

/-! ### One step -/

theorem Snapshot.cons (h : Snapshot h₀ bodies tr c i j hall) {a : Action}
    (hloads : (c.threads i).pc ≠ .select) (hcommitted : Committed c j → Committed c' j) :
    Snapshot h₀ bodies (⟨c, a, c'⟩ :: tr) c' i j hall := by
  have hnot : ¬ Loads i ⟨c, a, c'⟩ := fun h => hloads h.1
  rcases h with ⟨hhall, hbefore⟩ | ⟨hafter, hj, hpatch⟩
  · exact .inl ⟨hhall, loadsBefore_cons.mpr (.inr hbefore)⟩
  · refine .inr ⟨fun h => ?_, hcommitted hj, hpatch⟩
    rcases loadsBefore_cons.mp h with h | h
    · exact hnot h.1
    · exact hafter h

/-- The other update steps. -/
theorem Underway.cons_of_eq (h : Underway hallId h₀ bodies tr c i j (c.threads i).pc) {a : Action}
    (hpc : (c'.threads i).pc = (c.threads i).pc)
    (hwrites : c'.shared.writesOf i = c.shared.writesOf i)
    (hcommitted : Committed c j → Committed c' j) :
    Underway hallId h₀ bodies (⟨c, a, c'⟩ :: tr) c' i j (c'.threads i).pc := by
  rw [hpc]
  cases hpc' : (c.threads i).pc <;> rw [hpc'] at h hpc
  case select =>
    refine ⟨fun t ht => ?_, hwrites.trans h.2⟩
    rcases List.mem_cons.mp ht with rfl | ht
    · rintro ⟨-, hall, hflush⟩
      cases hpc.symm.trans hflush
    · exact h.1 t ht
  case flush hall =>
    exact ⟨h.1.cons (by rw [hpc']; exact nofun) hcommitted, hwrites.trans h.2⟩
  case refresh =>
    obtain ⟨hall, patch, hsnapshot, hpatch, hrow⟩ := h
    exact ⟨hall, patch, hsnapshot.cons (by rw [hpc']; exact nofun) hcommitted, hpatch,
      hwrites.trans hrow⟩
  case commit answer =>
    obtain ⟨hall, patch, hsnapshot, hpatch, hrow⟩ := h
    exact ⟨hall, patch, hsnapshot.cons (by rw [hpc']; exact nofun) hcommitted, hpatch,
      hwrites.trans hrow⟩
  all_goals trivial

/-- A step without a commit. -/
theorem Stage.cons (h : Stage w₀ hallId h₀ bodies tr c) {a : Action}
    (hdb : c'.shared.db = c.shared.db) (hcommitted : ∀ i, Committed c' i ↔ Committed c i) :
    Stage w₀ hallId h₀ bodies (⟨c, a, c'⟩ :: tr) c' := by
  cases h with
  | none hdb' hno hearlier =>
    refine .none (hdb.trans hdb') (fun i hi => hno i ((hcommitted i).mp hi)) fun t ht => ?_
    rcases List.mem_cons.mp ht with rfl | ht
    · exact hno
    · exact hearlier t ht
  | one hij hi hj hearlier hpatch hdb' =>
    refine .one hij ((hcommitted _).mpr hi) (fun h => hj ((hcommitted _).mp h)) (fun t ht => ?_)
      hpatch (hdb.trans hdb')
    rcases List.mem_cons.mp ht with rfl | ht
    · exact hj
    · exact hearlier t ht
  | both hij hi hj hbefore hnot hpatch hsnapshot hpatch' hdb' =>
    refine .both hij ((hcommitted _).mpr hi) ((hcommitted _).mpr hj)
      (commitsBefore_cons.mpr (.inr hbefore)) (fun h => ?_) hpatch
      (hsnapshot.cons ?_ fun _ => (hcommitted _).mpr hi) hpatch' (hdb.trans hdb')
    · rcases commitsBefore_cons.mp h with h | h
      · exact h.2 hi
      · exact hnot h
    · obtain ⟨answer, hpc⟩ := hj
      rw [hpc]
      exact nofun

theorem committed_self (hthreads : c'.threads = Function.update c.threads r
    { c.threads r with pc := pc' }) : Committed c' r ↔ ∃ answer, pc' = .done (.ok answer) := by
  rw [Committed, hthreads, Function.update_self]

theorem committed_of_ne (hthreads : c'.threads = Function.update c.threads r
    { c.threads r with pc := pc' }) (hne : i ≠ r) : Committed c' i ↔ Committed c i := by
  rw [Committed, hthreads, Function.update_of_ne hne, Committed]

theorem not_committed (hpc : (c.threads r).pc = pc) (h : ∀ answer, pc ≠ .done (.ok answer)) :
    ¬ Committed c r :=
  fun ⟨answer, hdone⟩ => h answer (hpc.symm.trans hdone)

theorem ne_of_add_eq_one {i j : ℕ} (h : i + j = 1) : j ≠ i := by omega

/-- The two updates in one order or the other. -/
theorem eq_or_swap {i j i' j' : ℕ} (h : i + j = 1) (h' : i' + j' = 1) :
    i' = i ∧ j' = j ∨ i' = j ∧ j' = i := by omega

theorem find?_updateHallRow {db : Db} (hfind : db.halls.find? hallId = some hall)
    (patch : HallPatch) :
    (db.applyAll (updateHallRow hallId patch)).halls.find? hallId = some (hall.patch patch) := by
  rw [updateHallRow]
  split_ifs with hnone
  · rw [hnone]
    exact hfind
  · obtain ⟨-, hid⟩ := Table.find?_eq_some_iff.mp hfind
    have hmodify : (db.halls.modify hallId (·.patch patch) fun _ => rfl).find? hallId = _ :=
      Table.find?_modify
    refine hmodify.trans ?_
    rw [hfind, Option.map_some, if_pos hid]

/-- The hall that an update loads. -/
theorem snapshot_of_select {a : Action} (hfind : w₀.db.halls.find? hallId = some h₀)
    (hrj : r + j = 1) (hstage : Stage w₀ hallId h₀ bodies tr c)
    (hpc : (c.threads r).pc = .select) (hpc' : (c'.threads r).pc = .flush hall)
    (hfirst : ∀ t ∈ tr, ¬ Loads r t) (hloaded : c.shared.db.halls.find? hallId = some hall)
    (hcommitted : Committed c j → Committed c' j) :
    Snapshot h₀ bodies (⟨c, a, c'⟩ :: tr) c' r j hall := by
  have hr : ¬ Committed c r := not_committed hpc nofun
  cases hstage with
  | none hdb hno _ =>
    rw [hdb, hfind] at hloaded
    obtain rfl := Option.some.inj hloaded
    exact .inl ⟨rfl, loadsBefore_cons.mpr (.inl ⟨⟨hpc, _, hpc'⟩, hno j⟩)⟩
  | @one i k patch hik hi hk _ hpatch hdb =>
    have hir : i ≠ r := by
      rintro rfl
      exact hr hi
    obtain ⟨rfl, rfl⟩ := (eq_or_swap hrj hik).resolve_left fun h => hir h.1
    rw [hdb, find?_updateHallRow hfind] at hloaded
    obtain rfl := Option.some.inj hloaded
    refine .inr ⟨fun h => ?_, hcommitted hi, patch, hpatch, rfl⟩
    rcases loadsBefore_cons.mp h with h | ⟨t, ht, h, -⟩
    · exact h.2 hi
    · exact hfirst t ht h
  | @both i k _ _ _ hik hi hk =>
    have hir : i ≠ r := by
      rintro rfl
      exact hr hi
    obtain ⟨-, rfl⟩ := (eq_or_swap hrj hik).resolve_left fun h => hir h.1
    exact absurd hk hr

/-- What a step of update `r` makes of its control point. -/
theorem underway_self {a : Action} (hfind : w₀.db.halls.find? hallId = some h₀) (hrj : r + j = 1)
    (h : Underway hallId h₀ bodies tr c r j (c.threads r).pc)
    (hstage : Stage w₀ hallId h₀ bodies tr c)
    (hstep : Step hallId (bodies r) r c.shared (c.threads r).pc c'.shared pc')
    (hthreads : c'.threads = Function.update c.threads r { c.threads r with pc := pc' }) :
    Underway hallId h₀ bodies (⟨c, a, c'⟩ :: tr) c' r j pc' := by
  have hcommitted : Committed c j → Committed c' j :=
    (committed_of_ne hthreads (ne_of_add_eq_one hrj)).mpr
  have hself : (c'.threads r).pc = pc' := by rw [hthreads, Function.update_self]
  generalize hpc : (c.threads r).pc = pc at h hstep
  generalize hw : c.shared = w at hstep
  generalize hw' : c'.shared = w' at hstep
  cases hstep with
  | select hfound =>
    obtain ⟨hfirst, hidle⟩ := h
    rw [← hw, view_of_writesOf_nil hidle] at hfound
    refine ⟨snapshot_of_select hfind hrj hstage hpc hself hfirst hfound hcommitted, ?_⟩
    rw [hw', ← hw]
    exact hidle
  | flush hpatch =>
    obtain ⟨hsnapshot, hidle⟩ := h
    refine ⟨_, _, hsnapshot.cons (by rw [hpc]; exact nofun) hcommitted, hpatch, ?_⟩
    rw [hw', writesOf_stage_self, ← hw, hidle, List.nil_append]
  | refresh =>
    obtain ⟨hall, patch, hsnapshot, hpatch, hrow⟩ := h
    refine ⟨hall, patch, hsnapshot.cons (by rw [hpc]; exact nofun) hcommitted, hpatch, ?_⟩
    rw [hw', ← hw]
    exact hrow
  | _ => trivial

/-- A commit. -/
theorem stage_of_commit {a : Action} {answer : HallResponse} (hrj : r + j = 1)
    (h : Underway hallId h₀ bodies tr c r j (c.threads r).pc)
    (hstage : Stage w₀ hallId h₀ bodies tr c) (hpc : (c.threads r).pc = .commit answer)
    (hs : c'.shared = c.shared.commit r) (hr' : Committed c' r)
    (hothers : ∀ i, i ≠ r → (Committed c' i ↔ Committed c i)) :
    Stage w₀ hallId h₀ bodies (⟨c, a, c'⟩ :: tr) c' := by
  have hr : ¬ Committed c r := not_committed hpc (by simp)
  have hj : Committed c' j ↔ Committed c j := hothers j (ne_of_add_eq_one hrj)
  rw [hpc] at h
  obtain ⟨hall, patch, hsnapshot, hpatch, hrow⟩ := h
  have hdb' : c'.shared.db = c.shared.db.applyAll (updateHallRow hallId patch) := by
    rw [hs]
    show c.shared.view r = _
    rw [World.view, hrow]
  cases hstage with
  | none hdb hno hearlier =>
    -- the first commit: the hall was loaded at the start
    rcases hsnapshot with ⟨rfl, -⟩ | ⟨-, hcommitted, -⟩
    · refine .one hrj hr' (fun h => hno j (hj.mp h)) (fun t ht => ?_) hpatch (hdb ▸ hdb')
      rcases List.mem_cons.mp ht with rfl | ht
      · exact hno j
      · exact hearlier t ht j
    · exact absurd hcommitted (hno j)
  | @one i k patch₁ hik hi hk hearlier hpatch₁ hdb =>
    have hir : i ≠ r := by
      rintro rfl
      exact hr hi
    obtain ⟨rfl, rfl⟩ := (eq_or_swap hrj hik).resolve_left fun h => hir h.1
    refine .both hik (hj.mpr hi) hr' (commitsBefore_cons.mpr (.inl ⟨hi, hr⟩)) (fun h => ?_) hpatch₁
      (hsnapshot.cons (by rw [hpc]; rintro ⟨⟩) hj.mpr) hpatch (hdb ▸ hdb')
    rcases commitsBefore_cons.mp h with h | ⟨t, ht, h, -⟩
    · exact hr h.1
    · exact hearlier t ht h
  | @both i k _ _ _ hik hi hk =>
    have hir : i ≠ r := by
      rintro rfl
      exact hr hi
    obtain ⟨-, rfl⟩ := (eq_or_swap hrj hik).resolve_left fun h => hir h.1
    exact absurd hk hr

theorem Step.ne_done {w' : World} (h : Step hallId data r w pc w' pc')
    (result : Except Exc HallResponse) : pc ≠ .done result := by
  cases h with
  | fail h => exact h result
  | _ => exact nofun

theorem Step.writesOf_of_ne {w' : World} (h : Step hallId data r w pc w' pc') (hne : i ≠ r) :
    w'.writesOf i = w.writesOf i := by
  cases h with
  | flush => exact writesOf_stage_of_ne _ hne _
  | commit => exact writesOf_close_of_ne _ hne
  | rollback => exact writesOf_close_of_ne _ hne
  | _ => rfl

theorem Step.commit_or {w' : World} (h : Step hallId data r w pc w' pc') :
    (∃ answer, pc = .commit answer ∧ w' = w.commit r ∧ pc' = .done (.ok answer)) ∨
      w'.db = w.db ∧ ∀ answer, pc' ≠ .done (.ok answer) := by
  cases h with
  | commit => exact .inl ⟨_, rfl, rfl, rfl⟩
  | _ => exact .inr ⟨rfl, nofun⟩

theorem exists_add_eq_one {r : ℕ} (h : r < 2) : ∃ j, r + j = 1 := ⟨1 - r, by omega⟩

theorem Step.not_committed {w' : World} (h : Step hallId data r w (c.threads r).pc w' pc') :
    ¬ Committed c r :=
  fun ⟨answer, hpc⟩ => h.ne_done (.ok answer) hpc

/-- The updates after a step of one of them. -/
theorem underway_step {a : Action} {k : RequestId} (hfind : w₀.db.halls.find? hallId = some h₀)
    (hi : OrderInv w₀ hallId h₀ bodies tr c) (hrj : r + j = 1)
    (hstep : Step hallId (bodies r) r c.shared (c.threads r).pc c'.shared pc')
    (hthreads : c'.threads = Function.update c.threads r { c.threads r with pc := pc' })
    (hik : i + k = 1) : Underway hallId h₀ bodies (⟨c, a, c'⟩ :: tr) c' i k (c'.threads i).pc := by
  by_cases hir : i = r
  · subst hir
    obtain rfl : k = j := Nat.add_left_cancel (hik.trans hrj.symm)
    have hself : (c'.threads i).pc = pc' := by rw [hthreads, Function.update_self]
    rw [hself]
    exact underway_self hfind hik (hi.underway i k hik) hi.stage hstep hthreads
  · have hpc : (c'.threads i).pc = (c.threads i).pc := by
      rw [hthreads, Function.update_of_ne hir]
    refine (hi.underway i k hik).cons_of_eq hpc (hstep.writesOf_of_ne hir) fun hk => ?_
    by_cases hkr : k = r
    · exact absurd (hkr ▸ hk) hstep.not_committed
    · exact (committed_of_ne hthreads hkr).mpr hk

/-- The commits after a step of an update. -/
theorem stage_step {a : Action} (hi : OrderInv w₀ hallId h₀ bodies tr c) (hrj : r + j = 1)
    (hstep : Step hallId (bodies r) r c.shared (c.threads r).pc c'.shared pc')
    (hthreads : c'.threads = Function.update c.threads r { c.threads r with pc := pc' }) :
    Stage w₀ hallId h₀ bodies (⟨c, a, c'⟩ :: tr) c' := by
  have hothers (i : RequestId) (hne : i ≠ r) : Committed c' i ↔ Committed c i :=
    committed_of_ne hthreads hne
  rcases hstep.commit_or with ⟨answer, hpc, hs, rfl⟩ | ⟨hdb, hpc'⟩
  · exact stage_of_commit hrj (hi.underway r j hrj) hi.stage hpc hs
      ((committed_self hthreads).mpr ⟨answer, rfl⟩) hothers
  · refine hi.stage.cons hdb fun i => ?_
    by_cases hir : i = r
    · subst hir
      refine iff_of_false (fun h => ?_) hstep.not_committed
      obtain ⟨answer, hdone⟩ := (committed_self hthreads).mp h
      exact hpc' answer hdone
    · exact hothers i hir

/-- **One step** keeps the invariant. -/
theorem orderInv_step (hfind : w₀.db.halls.find? hallId = some h₀)
    (hi : OrderInv w₀ hallId h₀ bodies tr c) {a : Action} (h : step c a = some c') :
    OrderInv w₀ hallId h₀ bodies (⟨c, a, c'⟩ :: tr) c' := by
  rcases step_cases h with ⟨r, pc', hstep, hthreads⟩ | ⟨e, rfl⟩
  · rw [(hi.inputs r).1, (hi.inputs r).2] at hstep
    -- the other requests have ended
    have hlt : r < 2 := by
      by_contra hge
      obtain ⟨e, hpc⟩ := hi.ended r (Nat.le_of_not_lt hge)
      exact hstep.ne_done _ hpc
    obtain ⟨j, hrj⟩ := exists_add_eq_one hlt
    refine ⟨?inputs, fun k hk => ?ended, fun i k => underway_step hfind hi hrj hstep hthreads,
      stage_step hi hrj hstep hthreads⟩
    case inputs =>
      rw [hthreads]
      exact (Function.forall_update_iff c.threads
        fun k update => update.hallId = hallId ∧ update.data = bodies k).mpr
        ⟨hi.inputs r, fun k _ => hi.inputs k⟩
    case ended =>
      have hne : k ≠ r := (hlt.trans_le hk).ne'
      rw [hthreads, Function.update_of_ne hne]
      exact hi.ended k hk
  · refine ⟨hi.inputs, hi.ended, fun i j hij => ?_, hi.stage.cons ?_ fun _ => Iff.rfl⟩
    · exact (hi.underway i j hij).cons_of_eq rfl (by cases e <;> rfl) id
    · cases e <;> rfl

theorem pc_start (w : World) (hallId : ℤ) (bodies : RequestId → HallUpdate) (r : RequestId) :
    ((start w hallId bodies).threads r).pc
      = if r < 2 then .select else .done (.error .hallNotFound) := rfl

theorem lt_two_of_add_eq_one {i j : ℕ} (h : i + j = 1) : i < 2 := by omega

theorem orderInv_start (hidle : w₀.pending = []) :
    OrderInv w₀ hallId h₀ bodies [] (start w₀ hallId bodies) := by
  have hno (i : RequestId) : ¬ Committed (start w₀ hallId bodies) i := by
    rintro ⟨answer, hpc⟩
    rw [pc_start] at hpc
    split_ifs at hpc
    cases hpc
  refine ⟨fun _ => ⟨rfl, rfl⟩, fun r hr => ⟨.hallNotFound, ?_⟩, fun i j hij => ?_,
    .none rfl hno fun t ht => absurd ht List.not_mem_nil⟩
  · rw [pc_start, if_neg (Nat.not_lt.mpr hr)]
  rw [pc_start, if_pos (lt_two_of_add_eq_one hij)]
  refine ⟨fun t ht => absurd ht List.not_mem_nil, ?_⟩
  show w₀.writesOf i = []
  rw [writesOf, hidle]
  rfl

/-- **The invariant** of every run. -/
theorem orderInv_run (hidle : w₀.pending = []) (hfind : w₀.db.halls.find? hallId = some h₀)
    (h : Run step (start w₀ hallId bodies) tr c) : OrderInv w₀ hallId h₀ bodies tr c :=
  Run.trace_invariant (I := OrderInv w₀ hallId h₀ bodies) (A := fun _ _ => True)
    (orderInv_start hidle) (fun _ hi _ hstep => orderInv_step hfind hi hstep) h fun _ _ => trivial

/-! ### Serial orders -/

/-- The tables after one update and then the other. -/
def serialDb (w : World) (hallId : ℤ) (first second : HallUpdate) : Db :=
  (serve 1 (updateHall hallId second) (serve 0 (updateHall hallId first) w).2).2.db

/-- The hall is as after a serial order of the updates. -/
def Serializable (w₀ : World) (hallId : ℤ) (bodies : RequestId → HallUpdate) (c : Config) : Prop :=
  c.shared.db.halls.find? hallId = (serialDb w₀ hallId (bodies 0) (bodies 1)).halls.find? hallId ∨
    c.shared.db.halls.find? hallId = (serialDb w₀ hallId (bodies 1) (bodies 0)).halls.find? hallId

/-- The second body leaves out a column that the first one sets to another value, and sends one that
the first one sets to another value. -/
def Skewed (h₀ : Hall) (first second : HallUpdate) : Prop :=
  ∃ patch, hallPatch h₀ second = .ok patch ∧
    StaleUpdate.Skewed first.columns second.columns patch.columns

/-- One update alone. -/
theorem find?_serve_updateHall {patch : HallPatch} (hidle : w.writesOf r = [])
    (hfind : w.db.halls.find? hallId = some hall) (hpatch : hallPatch hall data = .ok patch) :
    (serve r (updateHall hallId data) w).2.db.halls.find? hallId = some (hall.patch patch) := by
  obtain ⟨answer, hrun⟩ := run_updateHall_of_ok hidle hfind hpatch
  rw [(serve_of_run_stage hidle hrun).2.1, find?_updateHallRow hfind]

/-- The hall after a serial order has the values of the first body and then those of the second. -/
theorem find?_serialDb {first second : HallUpdate} {patch patch₂ : HallPatch}
    (hidle : w₀.pending = []) (hfind : w₀.db.halls.find? hallId = some h₀)
    (hpatch : hallPatch h₀ first = .ok patch)
    (hpatch₂ : hallPatch (h₀.patch patch) second = .ok patch₂) (hall : Hall) :
    some hall = (serialDb w₀ hallId first second).halls.find? hallId ↔
      (hall.id = h₀.id ∧ hall.createdAt = h₀.createdAt) ∧
        hall.columns = assign second.columns (assign first.columns h₀.columns) := by
  have hidle₀ : w₀.writesOf 0 = [] := by rw [writesOf, hidle]; rfl
  have hidle₁ : (serve 0 (updateHall hallId first) w₀).2.writesOf 1 = [] := by
    rw [writesOf, pending_serve _ hidle]
    rfl
  have hfirst := find?_serve_updateHall hidle₀ hfind hpatch
  have hcolumns : ((h₀.patch patch).patch patch₂).columns
      = assign second.columns (assign first.columns h₀.columns) := by
    rw [columns_patch_of_hallPatch hpatch₂, columns_patch_of_hallPatch hpatch]
  rw [serialDb, find?_serve_updateHall hidle₁ hfirst hpatch₂, Option.some_inj, ← hcolumns]
  constructor
  · rintro rfl
    exact ⟨⟨rfl, rfl⟩, rfl⟩
  · rintro ⟨⟨hid, hcreated⟩, h⟩
    exact Hall.eq_of_columns hid hcreated h

theorem serializable_iff_of_add {i j : ℕ} (hij : i + j = 1) : Serializable w₀ hallId bodies c ↔
    c.shared.db.halls.find? hallId
        = (serialDb w₀ hallId (bodies i) (bodies j)).halls.find? hallId ∨
      c.shared.db.halls.find? hallId
        = (serialDb w₀ hallId (bodies j) (bodies i)).halls.find? hallId := by
  rcases eq_or_swap hij (Nat.zero_add 1) with ⟨rfl, rfl⟩ | ⟨rfl, rfl⟩
  · exact Iff.rfl
  · exact or_comm

/-- Both updates have loaded the hall as it was at the start. -/
theorem serializable_iff_of_stale {patch patch' : HallPatch} (hidle : w₀.pending = [])
    (hfind : w₀.db.halls.find? hallId = some h₀) (hfits : FitsNumeric h₀.hourlyRate)
    (hij : i + j = 1) (hpatch : hallPatch h₀ (bodies i) = .ok patch)
    (hpatch' : hallPatch h₀ (bodies j) = .ok patch')
    (hdb : c.shared.db.halls.find? hallId = some ((h₀.patch patch).patch patch')) :
    Serializable w₀ hallId bodies c ↔ ¬ Skewed h₀ (bodies i) (bodies j) := by
  obtain ⟨q, hq⟩ := exists_hallPatch_of_hallPatch hpatch' hfits (h₀.patch patch)
  obtain ⟨q', hq'⟩ := exists_hallPatch_of_hallPatch hpatch hfits (h₀.patch patch')
  have hcolumns : ((h₀.patch patch).patch patch').columns
      = assign patch'.columns (assign patch.columns h₀.columns) := by
    rw [Hall.columns_patch, Hall.columns_patch]
  have hskewed : Skewed h₀ (bodies i) (bodies j) ↔
      StaleUpdate.Skewed (bodies i).columns (bodies j).columns patch'.columns := by
    constructor
    · rintro ⟨p, hp, h⟩
      obtain rfl := Except.ok.inj (hpatch'.symm.trans hp)
      exact h
    · exact fun h => ⟨patch', hpatch', h⟩
  rw [serializable_iff_of_add hij, hdb, find?_serialDb hidle hfind hpatch hq,
    find?_serialDb hidle hfind hpatch' hq', hcolumns, hskewed,
    ← serial_iff_not_skewed (sends_hallPatch hpatch) (sends_hallPatch hpatch')]
  refine or_congr (and_iff_right ⟨rfl, rfl⟩) (and_iff_right ⟨rfl, rfl⟩)

/-- **When two updates are serializable.**  After both have succeeded the hall is as after one of
the serial orders, unless the one that commits last has loaded the hall before the other one has
committed, and leaves out a column that the other one sets to another value, and sends one that the
other one sets to another value. -/
theorem serializable_iff (hidle : w₀.pending = []) (hfind : w₀.db.halls.find? hallId = some h₀)
    (hfits : FitsNumeric h₀.hourlyRate) (h : Run step (start w₀ hallId bodies) tr c)
    (h0 : Committed c 0) (h1 : Committed c 1) :
    Serializable w₀ hallId bodies c ↔ ∀ i j, i + j = 1 → CommitsBefore tr i j →
      LoadsBefore tr j i → ¬ Skewed h₀ (bodies i) (bodies j) := by
  cases (orderInv_run hidle hfind h).stage with
  | none _ hno => exact absurd h0 (hno 0)
  | @one i j _ hij _ hj =>
    rcases eq_or_swap hij (Nat.zero_add 1) with ⟨rfl, rfl⟩ | ⟨rfl, rfl⟩
    · exact absurd h1 hj
    · exact absurd h0 hj
  | @both i j patch patch' hall hij _ _ hbefore hnot hpatch hsnapshot hpatch' hdb =>
    have hfinal : c.shared.db.halls.find? hallId = some ((h₀.patch patch).patch patch') := by
      rw [hdb, find?_updateHallRow (find?_updateHallRow hfind patch)]
    -- only this order of the commits is possible
    have honly (i' j' : RequestId) (hij' : i' + j' = 1) (hbefore' : CommitsBefore tr i' j') :
        i' = i ∧ j' = j :=
      (eq_or_swap hij hij').resolve_right fun ⟨hi', hj'⟩ => hnot (hi' ▸ hj' ▸ hbefore')
    rcases hsnapshot with ⟨rfl, hloads⟩ | ⟨hlate, -, p, hp, rfl⟩
    · rw [serializable_iff_of_stale hidle hfind hfits hij hpatch hpatch' hfinal]
      constructor
      · intro hskewed i' j' hij' hbefore' _
        obtain ⟨rfl, rfl⟩ := honly i' j' hij' hbefore'
        exact hskewed
      · exact fun hall => hall i j hij hbefore hloads
    · -- the second update has seen the first one
      obtain rfl := Except.ok.inj (hpatch.symm.trans hp)
      have hcolumns : ((h₀.patch patch).patch patch').columns
          = assign (bodies j).columns (assign (bodies i).columns h₀.columns) := by
        rw [columns_patch_of_hallPatch hpatch', columns_patch_of_hallPatch hpatch]
      have hserial : Serializable w₀ hallId bodies c := by
        rw [serializable_iff_of_add hij, hfinal]
        exact .inl ((find?_serialDb hidle hfind hpatch hpatch' _).mpr ⟨⟨rfl, rfl⟩, hcolumns⟩)
      refine iff_of_true hserial fun i' j' hij' hbefore' hloads => ?_
      obtain ⟨rfl, rfl⟩ := honly i' j' hij' hbefore'
      exact absurd hloads hlate

namespace Scenario

open Concurrent.Scenario (hallBody)

/-- A hall "Red" of 10 seats. -/
def hallCreated : World := Serial.run BookingApi.settings [.serve (.createHall hallBody)]

def redHall : Hall := ⟨1, "Red", 10, 1000, true, 0⟩

theorem of_map_some {α : Type} {P : α → Prop} {x : Option α} (h : ∀ v, x = some v → P v) (v : α)
    (hv : x.map some = some (some v)) : P v := by
  obtain ⟨_, hx, he⟩ := Option.map_eq_some_iff.mp hv
  exact h v (hx.trans he)

/-- A body without nulls. -/
def body (name : Option String) (capacity : Option ℤ) (hourlyRate : Option Decimal)
    (hname : ∀ n, name = some n → 1 ≤ n.length ∧ n.length ≤ 100)
    (hcapacity : ∀ n, capacity = some n → 0 < n)
    (hrate : ∀ rate, hourlyRate = some rate → rate.isPositive) : HallUpdate :=
  ⟨name.map some, capacity.map some, hourlyRate.map some, none, of_map_some hname,
    of_map_some hcapacity, of_map_some hrate⟩

def pair (first second : HallUpdate) (r : RequestId) : HallUpdate := if r = 0 then first else second

/-- Different columns. -/
def disjointBodies : RequestId → HallUpdate :=
  pair (body (some "Blue") none none (by simp; decide) nofun nofun)
    (body none (some 20) none nofun (by simp) nofun)

/-- The first body leaves the capacity as it is, the second one leaves the name. -/
def halfChanged : RequestId → HallUpdate :=
  pair (body (some "Blue") (some 10) none (by simp; decide) (by simp) nofun)
    (body (some "Red") (some 20) none (by simp; decide) (by simp) nofun)

/-- Both load the hall before the first one commits. -/
def bothLoad : List Action := [.run 0, .run 1] ++ List.replicate 3 (.run 0) ++
  List.replicate 3 (.run 1)

def answer (name : String) (capacity : ℤ) : HallResponse :=
  { HallResponse.ofHall { redHall with name, capacity } with totalSeats := 0, freeSeats := 0 }

end Scenario

open Update.Scenario

/-- Interleaved updates of different columns, each of a hall as it was at the start. -/
theorem serializable_disjointBodies : ∃ tr c,
    Run step (start hallCreated 1 disjointBodies) tr c ∧
    ((c.threads 0).pc = .done (.ok (answer "Blue" 10)) ∧
      (c.threads 1).pc = .done (.ok (answer "Blue" 20))) ∧
    Serializable hallCreated 1 disjointBodies c := by
  have hreplay : ((replay step bothLoad (start hallCreated 1 disjointBodies)).map fun c => decide
      ((c.threads 0).pc = .done (.ok (answer "Blue" 10)) ∧
        (c.threads 1).pc = .done (.ok (answer "Blue" 20)))) = some true := by decide +kernel
  have hfind : hallCreated.db.halls.find? 1 = some redHall := by decide +kernel
  have hdisjoint (k : HallColumn) :
      (disjointBodies 0).columns k = none ∨ (disjointBodies 1).columns k = none := by
    cases k with
    | name => exact .inr rfl
    | capacity => exact .inl rfl
    | hourlyRate => exact .inl rfl
    | isActive => exact .inl rfl
  obtain ⟨tr, c, hrun, hpc, hpc'⟩ := Run.exists_of_replay _ hreplay
  refine ⟨tr, c, hrun, ⟨hpc, hpc'⟩, (serializable_iff (by decide +kernel) hfind (by decide)
    hrun ⟨_, hpc⟩ ⟨_, hpc'⟩).mpr fun i j hij _ _ => ?_⟩
  rintro ⟨_, -, hskewed⟩
  refine not_skewed_of_disjoint (fun k => ?_) hskewed
  rcases eq_or_swap hij (Nat.zero_add 1) with ⟨rfl, rfl⟩ | ⟨rfl, rfl⟩
  · exact hdisjoint k
  · exact (hdisjoint k).symm

/-- Each of the updates leaves out a column that the other one changes: the hall has the name of the
first body and the capacity of the second one. -/
theorem exists_not_serializable : ∃ tr c, Run step (start hallCreated 1 halfChanged) tr c ∧
    (Committed c 0 ∧ Committed c 1) ∧ ¬ Serializable hallCreated 1 halfChanged c := by
  have hreplay : ((replay step bothLoad (start hallCreated 1 halfChanged)).map fun c => decide
      (((c.threads 0).pc = .done (.ok (answer "Blue" 10)) ∧
        (c.threads 1).pc = .done (.ok (answer "Blue" 20))) ∧
        c.shared.db.halls.find? 1 = some ⟨1, "Blue", 20, 1000, true, 0⟩)) =
      some true := by decide +kernel
  obtain ⟨tr, c, hrun, ⟨hpc, hpc'⟩, hfinal⟩ := Run.exists_of_replay _ hreplay
  refine ⟨tr, c, hrun, ⟨⟨_, hpc⟩, ⟨_, hpc'⟩⟩, ?_⟩
  rw [Serializable, hfinal]
  decide +kernel

end BookingApi.Update
