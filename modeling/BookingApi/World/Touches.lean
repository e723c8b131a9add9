import BookingApi.World.Frame
import BookingApi.World.Handler

/-!
# What a handler may change

`Touches writes keys` says of an operation that it makes no other row changes than `writes` and
changes no other keys in Redis than `keys`.  A handler whose operations do so leaves, served alone,
the tables with such changes (`exists_applyAll_serve`) and the other keys as they were
(`redis_serve`).
-/

namespace BookingApi

open Async

/-- The key that a command may change. -/
def RedisCommand.target {β : Type} : RedisCommand β → Option String
  | .get _ => none
  | .setex key _ _ | .setNx key _ _ | .evalRelease key _ => some key

/-- The operation makes row changes in `writes` only and changes keys in `keys` only. -/
def Touches (writes : Write → Prop) (keys : String → Prop) : ∀ β : Type, Op β → Prop
  | _, .flush statement => ∀ now seqs db b ws, (statement now seqs db).1 = .ok (b, ws) →
    ∀ x ∈ ws, writes x
  | _, .redis command => ∀ key, command.target = some key → keys key
  | _, _ => True

theorem Touches.mono {writes writes' : Write → Prop} {keys keys' : String → Prop}
    (hwrites : ∀ x, writes x → writes' x) (hkeys : ∀ key, keys key → keys' key) {β : Type}
    {op : Op β} (h : Touches writes keys β op) : Touches writes' keys' β op := by
  cases op with
  | flush statement => exact fun now seqs db b ws hs x hx => hwrites x (h now seqs db b ws hs x hx)
  | redis command => exact fun key htarget => hkeys key (h key htarget)
  | _ => trivial

namespace World

variable {writes : Write → Prop} {keys : String → Prop} {α β : Type} {p : App α} {r : RequestId}
  {w w₀ : World}

/-! ### The clock -/

@[simp] theorem now_exec (op : Op β) : (exec r _ op w).2.now = w.now := by
  cases op with
  | flush statement =>
    rcases exec_flush (w := w) (r := r) statement with
      ⟨b, ws, seqs, -, he⟩ | ⟨e, seqs, -, he⟩ <;> rw [he] <;> rfl
  | _ => rfl

theorem now_run (p : App α) (r : RequestId) (w : World) : (p.run (exec r) w).2.now = w.now := by
  have huses : p.Uses fun _ _ => True := Program.uses_of_forall (fun _ _ => trivial) p
  exact huses.run_rel _ (R := fun w w' => w'.now = w.now) (fun _ => rfl)
    (fun {s t u} (h : t.now = s.now) (h' : u.now = t.now) => h'.trans h)
    (fun op _ _ => now_exec op) w

/-- A request is served at one instant. -/
theorem now_serve (p : App α) (r : RequestId) (w : World) : (serve r p w).2.now = w.now :=
  now_run (getDb p) r w

/-! ### Redis -/

theorem redis_exec_of_ne (rd : Redis) (command : RedisCommand β) {key : String}
    (h : command.target ≠ some key) : (rd.exec command).2 key = rd key := by
  have hne {key' : String} (h' : some key' ≠ some key) : key ≠ key' := fun he => h' (by rw [he])
  cases command with
  | get key' => rfl
  | setex key' ttl value => exact Function.update_of_ne (hne h) _ _
  | setNx key' value ex =>
    rw [Redis.exec]
    split_ifs
    · rfl
    · exact Function.update_of_ne (hne h) _ _
  | evalRelease key' token =>
    show (rd.lockReleaseScript key' token).2 key = rd key
    rw [Redis.lockReleaseScript]
    split_ifs
    · exact Function.update_of_ne (hne h) _ _
    · rfl

theorem redis_exec {op : Op β} (hop : Touches writes keys β op) {key : String} (h : ¬ keys key) :
    (exec r _ op w).2.redis key = w.redis key := by
  cases op with
  | flush statement =>
    rcases exec_flush (w := w) (r := r) statement with
      ⟨b, ws, seqs, -, he⟩ | ⟨e, seqs, -, he⟩ <;> rw [he] <;> rfl
  | redis command => exact redis_exec_of_ne _ _ fun ht => h (hop key ht)
  | _ => rfl

theorem redis_run (hp : p.Uses (Touches writes keys)) {key : String} (h : ¬ keys key)
    (r : RequestId) (w : World) : (p.run (exec r) w).2.redis key = w.redis key :=
  hp.run_rel _ (R := fun w w' => w'.redis key = w.redis key) (fun _ => rfl)
    (fun {s t u} (h : t.redis key = s.redis key) (h' : u.redis key = t.redis key) => h'.trans h)
    (fun _ _ hop => redis_exec hop h) w

/-- The end of the transaction does not change Redis. -/
theorem redis_serve_eq (p : App α) (r : RequestId) (w : World) :
    (serve r p w).2.redis = (p.run (exec r) w).2.redis := by
  rw [serve_eq]
  rcases p.run (exec r) w with ⟨e | a, w'⟩ <;> rfl

/-- The other keys are as they were. -/
theorem redis_serve (hp : p.Uses (Touches writes keys)) {key : String} (h : ¬ keys key)
    (r : RequestId) (w : World) : (serve r p w).2.redis key = w.redis key := by
  rw [redis_serve_eq]
  exact redis_run hp h r w

/-! ### The tables -/

/-- The open transaction and what was committed since make changes in `writes` only. -/
structure Changed (writes : Write → Prop) (r : RequestId) (w₀ w : World) : Prop where
  pending : ∀ x ∈ w.writesOf r, writes x
  db : ∃ ws, (∀ x ∈ ws, writes x) ∧ w.db = w₀.db.applyAll ws

theorem Changed.refl (hidle : w.writesOf r = []) : Changed writes r w w :=
  ⟨by simp [hidle], [], by simp, rfl⟩

theorem Changed.commit (h : Changed writes r w₀ w) : Changed writes r w₀ (w.commit r) := by
  obtain ⟨hpending, ws, hws, hdb⟩ := h
  refine ⟨fun x hx => absurd hx (by simp [World.commit]), ws ++ w.writesOf r, fun x hx => ?_, ?_⟩
  · exact (List.mem_append.mp hx).elim (hws x) (hpending x)
  · rw [Db.applyAll_append, ← hdb]
    rfl

theorem Changed.close (h : Changed writes r w₀ w) : Changed writes r w₀ (w.close r) :=
  ⟨fun _ hx => absurd hx (by simp), h.db⟩

theorem Changed.exec {op : Op β} (h : Changed writes r w₀ w) (hop : Touches writes keys β op) :
    Changed writes r w₀ (World.exec r _ op w).2 := by
  cases op with
  | flush statement =>
    rcases exec_flush (w := w) (r := r) statement with
      ⟨b, ws, seqs, hs, he⟩ | ⟨e, seqs, -, he⟩ <;> rw [he]
    · refine ⟨fun x hx => ?_, h.db⟩
      rw [writesOf_stage_self] at hx
      rcases List.mem_append.mp hx with hx | hx
      · exact h.pending x hx
      · exact hop _ _ _ _ _ (congrArg Prod.fst hs) x hx
    · exact ⟨h.pending, h.db⟩
  | commit => exact h.commit
  | rollback => exact h.close
  | _ => exact ⟨h.pending, h.db⟩

theorem Changed.run (h : Changed writes r w₀ w) (hp : p.Uses (Touches writes keys)) :
    Changed writes r w₀ (p.run (World.exec r) w).2 :=
  hp.run_rel _ (R := fun w w' => Changed writes r w₀ w → Changed writes r w₀ w') (fun _ h => h)
    (fun h h' hw => h' (h hw)) (fun _ _ hop h => h.exec hop) w h

/-- **The tables** after a handler was served alone. -/
theorem exists_applyAll_serve (hp : p.Uses (Touches writes keys)) (hidle : w.writesOf r = []) :
    ∃ ws, (∀ x ∈ ws, writes x) ∧ (serve r p w).2.db = w.db.applyAll ws := by
  have hrun : Changed writes r w (p.run (World.exec r) w).2 := (Changed.refl hidle).run hp
  rw [serve_eq]
  rcases hp' : p.run (World.exec r) w with ⟨e | a, w'⟩ <;> rw [hp'] at hrun
  · exact hrun.close.db
  · exact hrun.commit.db

end World

end BookingApi
