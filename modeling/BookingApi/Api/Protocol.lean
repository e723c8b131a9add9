import BookingApi.Api.Basic
import BookingApi.Async.Protocol
import BookingApi.Models.Evolution
import BookingApi.World.Transactions

/-!
# What concurrent requests promise each other

The protocol that the handlers of the API keep while any number of them run over one world: the
database keeps its constraints in the committed rows and in every open transaction, the cache holds
nothing but encoded slots, and a transaction that waits for a lock holds none.

`sound_protocol` says that the operations of the world honour it, with or without faults.
-/

namespace BookingApi.Api

open Async BookingService

/-- What is cached under the key of a day is a list of slots. -/
def CacheSound (rd : Redis) : Prop :=
  ∀ hallId date entry, rd (cacheKey hallId date) = some entry →
    ∃ slots : List Slot, entry.value = Json.dumps (.arr (slots.map Slot.toJson))

/-- What holds at any time. -/
structure Inv (w : World) : Prop where
  consistent : w.Consistent
  /-- No transaction confirms a booking again. -/
  legal : ∀ r, ∀ x ∈ w.writesOf r, x.Legal
  cache : CacheSound w.redis

/-- What a request may rely on while others run. -/
structure Rely (r : RequestId) (w w' : World) : Prop where
  writes : w'.writesOf r = w.writesOf r
  /-- The rows that the request has changed. -/
  rows : ∀ x ∈ w.writesOf r, w'.db.row x.target = w.db.row x.target
  later : w.db.Later w'.db

theorem Rely.refl (r : RequestId) (w : World) : Rely r w w := ⟨rfl, fun _ _ => rfl, .refl _⟩

theorem Rely.trans {r : RequestId} {w w' w'' : World} (h : Rely r w w') (h' : Rely r w' w'') :
    Rely r w w'' where
  writes := h'.writes.trans h.writes
  rows x hx := (h'.rows x (h.writes ▸ hx)).trans (h.rows x hx)
  later := h.later.trans h'.later

/-- The changes that a flush of `r` may stage, with the sequences after it. -/
structure Admissible (r : RequestId) (w : World) (ws : List Write) (seqs : Sequences) : Prop where
  stageable : Transaction.Stageable schema w.transactions r ws seqs.allocated
  legal : ∀ x ∈ ws, x.Legal
  /-- A transaction that holds locks takes no more. -/
  locks : w.writesOf r ≠ [] → ∀ x ∈ ws, x.inserts = true ∧ x.claims = none

/-- The operations that a request may await. -/
def Permits (r : RequestId) : ∀ β : Type, Op β → World → Prop
  | _, .flush statement, w =>
    (∀ name, w.sequences.next name
      ≤ (statement w.now w.sequences (w.view r)).2.next name) ∧
    ∀ b ws, (statement w.now w.sequences (w.view r)).1 = .ok (b, ws) →
      Admissible r w ws (statement w.now w.sequences (w.view r)).2
  | _, .redis command, _ => ∀ rd, CacheSound rd → CacheSound (rd.exec command).2
  | _, _, _ => True

/-- The faults that may hit the operations of a request. -/
abbrev Faults := RequestId → World.Fault → Prop

/-- How an operation may end. -/
def Outcome (faults : Faults) (r : RequestId) (β : Type) (op : Op β) (w : World)
    (res : Except Exc β) (w' : World) : Prop :=
  (res, w') = World.exec r β op w ∨
    ∃ f e, faults r f ∧ World.fault r β op f w = some (e, w') ∧ res = .error e

/-- The protocol of the requests, of which some may be hit by faults. -/
def protocol (faults : Faults) : Protocol Op Exc RequestId World where
  inv := Inv
  rely := Rely
  permits := Permits
  outcome := Outcome faults
  rely_refl := Rely.refl
  rely_trans := Rely.trans

/-! ### The operations honour the protocol -/

variable {w w' : World} {r r' : RequestId} {ws : List Write}

theorem inv_initial : Inv .initial :=
  ⟨World.consistent_initial, fun _ _ hx => absurd hx List.not_mem_nil, fun _ _ _ h => nomatch h⟩

theorem Rely.of_eq (hdb : w'.db = w.db) (hwrites : w'.writesOf r = w.writesOf r) : Rely r w w' :=
  ⟨hwrites, fun _ _ => by rw [hdb], hdb ▸ .refl _⟩

theorem CacheSound.expire {rd : Redis} (h : CacheSound rd) (key : String) :
    CacheSound (rd.expire key) := by
  intro hallId date entry hentry
  rcases rd.expire_apply key (cacheKey hallId date) with hnone | hsame
  · exact absurd (hentry.symm.trans hnone) (by simp)
  · exact h hallId date entry (hsame.symm.trans hentry)

/-- A key that is not the one of a day. -/
theorem CacheSound.update {rd : Redis} (h : CacheSound rd) {key : String}
    (hkey : ∀ hallId date, cacheKey hallId date ≠ key) (entry : Option RedisEntry) :
    CacheSound (Function.update rd key entry) := by
  intro hallId date entry' hentry
  rw [Function.update_of_ne (hkey hallId date)] at hentry
  exact h hallId date entry' hentry

theorem CacheSound.setex {rd : Redis} (h : CacheSound rd) (hallId : ℤ) (date : Date)
    (slots : List Slot) : CacheSound
      (rd.exec (.setex (cacheKey hallId date) cacheTtl
        (Json.dumps (.arr (slots.map Slot.toJson))))).2 := by
  intro hallId' date' entry hentry
  rw [Redis.exec] at hentry
  dsimp only at hentry
  rw [Function.update_apply] at hentry
  split_ifs at hentry
  · obtain rfl := Option.some.inj hentry
    exact ⟨slots, rfl⟩
  · exact h hallId' date' entry hentry

theorem CacheSound.setNx {rd : Redis} (h : CacheSound rd) {key : String}
    (hkey : ∀ hallId date, cacheKey hallId date ≠ key) (value : String) (ex : ℕ) :
    CacheSound (rd.exec (.setNx key value ex)).2 := by
  rw [Redis.exec]
  split_ifs
  · exact h
  · exact h.update hkey _

theorem CacheSound.evalRelease {rd : Redis} (h : CacheSound rd) {key : String}
    (hkey : ∀ hallId date, cacheKey hallId date ≠ key) (token : String) :
    CacheSound (rd.exec (.evalRelease key token)).2 := by
  rw [Redis.exec, Redis.lockReleaseScript]
  split_ifs
  · exact h.update hkey _
  · exact h

theorem Inv.commit (h : Inv w) : Inv (w.commit r) where
  consistent := h.consistent.commit
  legal r' x hx := by
    by_cases hr : r' = r
    · subst hr
      exact absurd hx (by simp [World.commit])
    · rw [World.commit, World.writesOf_close_of_ne _ hr] at hx
      exact h.legal r' x hx
  cache := h.cache

theorem Inv.rely_commit (h : Inv w) (hr : r' ≠ r) : Rely r' w (w.commit r) where
  writes := World.writesOf_close_of_ne _ hr
  rows _ hx := h.consistent.row_commit hr hx
  later := Db.later_applyAll w.db (h.legal r)

theorem Inv.close (h : Inv w) : Inv (w.close r) where
  consistent := h.consistent.close
  legal r' x hx := by
    by_cases hr : r' = r
    · subst hr
      exact absurd hx (by simp)
    · rw [World.writesOf_close_of_ne _ hr] at hx
      exact h.legal r' x hx
  cache := h.cache

theorem Inv.publish (h : Inv w) (event : BookingEvent) : Inv (w.publish r event) :=
  { h with }

theorem Inv.setSequences (h : Inv w) {seqs : Sequences}
    (hseqs : ∀ name, w.sequences.next name ≤ seqs.next name) : Inv (w.setSequences seqs) :=
  { h with consistent := h.consistent.setSequences hseqs }

theorem Inv.stage (h : Inv w) {seqs : Sequences} (hws : Admissible r w ws seqs)
    (hfree : Transaction.Unlocked schema w.transactions r ws) :
    Inv ((w.setSequences seqs).stage r ws) where
  consistent := h.consistent.stage hws.stageable hfree
  legal r' x hx := by
    by_cases hr : r' = r
    · subst hr
      rw [World.writesOf_stage_self] at hx
      exact (List.mem_append.mp hx).elim (h.legal r' x) (hws.legal x)
    · rw [World.writesOf_stage_of_ne _ hr] at hx
      exact h.legal r' x hx
  cache := h.cache

theorem Inv.exec {β : Type} {op : Op β} (h : Inv w) (hop : Permits r β op w)
    (henabled : World.enabled r β op w = true) : Inv (World.exec r β op w).2 := by
  cases op with
  | execute query => exact h
  | flush statement =>
    rcases World.exec_flush (w := w) (r := r) statement with
      ⟨b, ws, seqs, hs, he⟩ | ⟨e, seqs, hs, he⟩ <;> rw [he]
    · have hws := hop.2 b ws (by rw [hs])
      rw [hs] at hws
      exact h.stage hws (World.unlocked_of_enabled henabled hs)
    · have hseqs := hop.1
      rw [hs] at hseqs
      exact h.setSequences hseqs
  | commit => exact h.commit
  | rollback => exact h.close
  | redis command => exact { h with cache := hop _ h.cache }
  | send event => exact h.publish event

/-- What the others may rely on when `r` performs an operation. -/
theorem Inv.rely_exec {β : Type} {op : Op β} (h : Inv w) (hr : r' ≠ r) :
    Rely r' w (World.exec r β op w).2 := by
  cases op with
  | commit => exact h.rely_commit hr
  | flush statement =>
    exact .of_eq (World.db_exec_flush statement) (World.untouched_exec hr).writes
  | execute query => exact .refl r' w
  | rollback => exact .of_eq rfl (World.writesOf_close_of_ne w hr)
  | redis command => exact .of_eq rfl rfl
  | send event => exact .of_eq rfl rfl

theorem Inv.fault {β : Type} {op : Op β} {f : World.Fault} {e : Exc} (h : Inv w)
    (hfault : World.fault r β op f w = some (e, w')) :
    Inv w' ∧ ∀ r', r' ≠ r → Rely r' w w' := by
  have hrely : ∀ r', r' ≠ r → Rely r' w w' := fun r' hr =>
    .of_eq (World.db_fault hfault) (World.untouched_fault hr hfault).writes
  rcases World.fault_cases hfault with rfl | rfl | ⟨event, rfl⟩
  · exact ⟨h, hrely⟩
  · exact ⟨h.close, hrely⟩
  · exact ⟨h.publish event, hrely⟩

theorem Inv.env (h : Inv w) (e : World.Env) :
    Inv (World.env e w) ∧ ∀ r, Rely r w (World.env e w) := by
  cases e with
  | expire key => exact ⟨{ h with cache := h.cache.expire key }, fun r => .of_eq rfl rfl⟩
  | tick micros => exact ⟨{ h with }, fun r => .of_eq rfl rfl⟩

/-- No request is hit by another fault. -/
def Considered (faults : Faults) (a : Async.Action RequestId World.Fault World.Env) : Prop :=
  ∀ r f, a = .fault r f → faults r f

/-- **The operations honour the protocol.** -/
theorem sound_protocol (faults : Faults) :
    (protocol faults).Sound World.semantics (Considered faults) where
  exec _ h hop henabled := ⟨Inv.exec h hop henabled, .inl rfl, fun _ hr => Inv.rely_exec h hr⟩
  fault {i β op f s s' e} ha h _ hfault := by
    obtain ⟨hinv, hrely⟩ := Inv.fault h hfault
    exact ⟨hinv, .inr ⟨f, e, ha i f rfl, hfault, rfl⟩, hrely⟩
  env _ h := Inv.env h _

end BookingApi.Api
