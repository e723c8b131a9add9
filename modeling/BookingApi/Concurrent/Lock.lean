import BookingApi.Concurrent.Bystanders
import BookingApi.Concurrent.Invariant
import BookingApi.TokenLock.Basic

/-!
# The lock of a time slot

The Redis lock of `create_booking` as a `TokenLock`: a request is a client, and a run is the history
of the acquisitions, releases and expiries in it (`lockEvents`).  `lock_protocol` says what the lock
guarantees, and `lock_simulation` that Redis holds what the history says.
-/

namespace BookingApi.Concurrent

open Async BookingService World

variable {settings : Settings} {requests : RequestId → Request} {tr : Trace} {c c' : Config}

/-! ### How a step changes the locks -/

/-- Requests in a run with the same token are one request. -/
theorem RunOf.eq_of_token (h : RunOf settings requests tr c) (htokens : DistinctTokens requests)
    {r r' : RequestId} {args args' : CreateArgs} {pc pc' : CreatePc}
    (hr : c.threads r = .create args pc) (hr' : c.threads r' = .create args' pc')
    (ht : args.token.text = args'.token.text) : r = r' :=
  htokens r r' args args' ((RunOf.create_iff h).mpr ⟨pc, hr⟩) ((RunOf.create_iff h).mpr ⟨pc', hr'⟩)
    (Token.ext ht)

/-- The control points between the acquisition of the lock and its release. -/
def InSection : CreatePc → Prop
  | .release _ => True
  | pc => Locked pc

/-- What a transition does with a lock, if anything: a request acquires a key that is free, a
request releases its key, or a key expires. -/
def lockEvent (t : Transition Config Action) : Option (TokenLock.Event RequestId String) :=
  match t.action with
  | .run i => match t.before.threads i with
    | .create args (.acquire _ _) =>
      if t.before.shared.redis args.lockKey = none then some (.acquire i args.lockKey) else none
    | .create args (.release _) => some (.release i args.lockKey)
    | _ => none
  | .env (.expire key) => some (.expire key)
  | _ => none

/-- The history of the locks in a run. -/
def lockEvents (tr : Trace) : List (TokenLock.Event RequestId String) := tr.filterMap lockEvent

/-- What a step does to Redis. -/
inductive RedisStep (c c' : Config) : Action → Prop
  | acquire {i : RequestId} {args : CreateArgs} {hall : Hall} {user : User} {ttl : ℕ} :
      c.threads i = .create args (.acquire hall user) → c.shared.redis args.lockKey = none →
      c'.shared.redis = Function.update c.shared.redis args.lockKey (some ⟨args.token.text, ttl⟩) →
      RedisStep c c' (.run i)
  | release {i : RequestId} {args : CreateArgs} {outcome : Except Exc LoadedBooking} :
      c.threads i = .create args (.release outcome) →
      c'.shared.redis
        = (c.shared.redis.lockReleaseScript args.lockKey args.token.text).2 →
      RedisStep c c' (.run i)
  | expire {key : String} : c'.shared.redis = c.shared.redis.expire key →
      RedisStep c c' (.env (.expire key))
  | setex {a : Action} {key value : String} {ttl : ℕ} :
      (∀ hallId startTime, key ≠ lockKey hallId startTime) → (∀ token : Token, value ≠ token.text) →
      c'.shared.redis = Function.update c.shared.redis key (some ⟨value, ttl⟩) →
      lockEvent ⟨c, a, c'⟩ = none → RedisStep c c' a
  | keep {a : Action} : c'.shared.redis = c.shared.redis → lockEvent ⟨c, a, c'⟩ = none →
      RedisStep c c' a

theorem redisStep_create {i : RequestId} {f : Option Fault} {args : CreateArgs}
    {pc pc' : CreatePc} (hpc : c.threads i = .create args pc)
    (hs : CreateStep settings args i f c.shared pc c'.shared pc') :
    RedisStep c c' (actionOf i f) := by
  generalize hw : c.shared = w at *
  generalize hw' : c'.shared = w' at *
  cases hs with
  | acquire hfree => exact .acquire hpc (hw ▸ hfree) (by rw [hw, hw']; rfl)
  | release => exact .release hpc (by rw [hw, hw']; rfl)
  | @acquireFail f _ _ _ _ htaken =>
    refine .keep (by rw [hw, hw']) ?_
    cases f with
    | some f => rfl
    | none =>
      have : c.shared.redis args.lockKey ≠ none := by
        rw [hw]
        exact Option.isSome_iff_ne_none.mp (htaken rfl)
      simp only [lockEvent, actionOf, hpc, if_neg this]
  | @abortEarly f _ pc _ hearly =>
    refine .keep (by rw [hw, hw']) ?_
    cases f <;> cases pc <;> first | exact hearly.elim | simp only [lockEvent, actionOf, hpc]
  | @abortLocked f _ pc _ _ hlocked =>
    refine .keep (by rw [hw, hw']; rfl) ?_
    cases f <;> cases pc <;> first | exact hlocked.elim | simp only [lockEvent, actionOf, hpc]
  | @rollback f =>
    refine .keep (by rw [hw, hw']; rfl) ?_
    cases f <;> simp only [lockEvent, actionOf, hpc]
  | _ => exact .keep (by rw [hw, hw'] <;> rfl) (by simp only [lockEvent, actionOf, hpc])

theorem redisStep_of_step {a : Action} (h : step settings c a = some c') : RedisStep c c' a := by
  cases step_cases h with
  | create hpc hs _ => exact redisStep_create hpc hs
  | @cancel i f args pc pc' hpc hs _ =>
    have hevent : lockEvent ⟨c, actionOf i f, c'⟩ = none := by
      cases f <;> simp only [lockEvent, actionOf, hpc]
    generalize hw : c.shared = w at *
    generalize hw' : c'.shared = w' at *
    cases hs <;> exact .keep (by rw [hw, hw'] <;> rfl) hevent
  | @other i f b b' hpc hs _ =>
    have hevent : lockEvent ⟨c, actionOf i f, c'⟩ = none := by
      cases f <;> simp only [lockEvent, actionOf, hpc]
    generalize hw : c.shared = w at *
    generalize hw' : c'.shared = w' at *
    cases hs with
    | setex hkey hvalue => exact .setex hkey hvalue (by rw [hw, hw']; rfl) hevent
    | _ => exact .keep (by rw [hw, hw'] <;> rfl) hevent
  | @env e hs _ =>
    cases e with
    | expire key => exact .expire (by rw [hs]; rfl)
    | tick micros => exact .keep (by rw [hs]; rfl) rfl

/-- A token that is stored after a step was stored before, or its request has acquired the key. -/
theorem lookup_of_step {a : Action} (hstep : step settings c a = some c') {key : String}
    {token : Token} (h : c'.shared.redis.lookup key = some token.text) :
    c.shared.redis.lookup key = some token.text ∨
      ∃ i args hall user, a = .run i ∧ c.threads i = .create args (.acquire hall user) ∧
        args.token.text = token.text ∧ key = args.lockKey := by
  cases redisStep_of_step hstep with
  | acquire hpc _ hrd =>
    rw [hrd, Redis.lookup_update] at h
    split_ifs at h with hk
    · exact .inr ⟨_, _, _, _, rfl, hpc, Option.some.inj h, hk⟩
    · exact .inl h
  | release _ hrd =>
    rw [hrd, Redis.lookup_lockReleaseScript] at h
    split_ifs at h
    exact .inl h
  | expire hrd =>
    rw [hrd, Redis.expire, Redis.lookup_update] at h
    split_ifs at h
    · cases h
    · exact .inl h
  | setex _ hvalue hrd _ =>
    rw [hrd, Redis.lookup_update] at h
    split_ifs at h
    · exact absurd (Option.some.inj h) (hvalue token)
    · exact .inl h
  | keep hrd _ => exact .inl (hrd ▸ h)

/-- An entry of a lock key that a step changes was released by the request whose token it holds, or
has expired. -/
theorem lookup_lost_of_step {a : Action} (hstep : step settings c a = some c') {args : CreateArgs}
    {value : String} (h : c.shared.redis.lookup args.lockKey = some value)
    (h' : c'.shared.redis.lookup args.lockKey ≠ some value) :
    a = .env (.expire args.lockKey) ∨
      ∃ i args' outcome, a = .run i ∧ c.threads i = .create args' (.release outcome) ∧
        args'.lockKey = args.lockKey ∧ args'.token.text = value := by
  cases redisStep_of_step hstep with
  | @acquire i args' _ _ _ hpc hfree hrd =>
    have hne : args.lockKey ≠ args'.lockKey := by
      intro hk
      rw [hk, Redis.lookup, hfree] at h
      cases h
    rw [hrd, Redis.lookup_update, if_neg hne] at h'
    exact absurd h h'
  | @release i args' outcome hpc hrd =>
    rw [hrd, Redis.lookup_lockReleaseScript] at h'
    split_ifs at h' with hk
    · refine .inr ⟨i, args', outcome, rfl, hpc, hk.1.symm, ?_⟩
      rw [← hk.1, h] at hk
      exact (Option.some.inj hk.2).symm
    · exact absurd h h'
  | @expire key hrd =>
    rw [hrd, Redis.expire, Redis.lookup_update] at h'
    split_ifs at h' with hk
    · rw [hk]
      exact .inl rfl
    · exact absurd h h'
  | setex hkey _ hrd _ =>
    have hne : args.lockKey ≠ _ := fun hk => hkey args.hallId args.startTime hk.symm
    rw [hrd, Redis.lookup_update, if_neg hne] at h'
    exact absurd h h'
  | keep hrd _ => exact absurd (hrd ▸ h) h'

/-! ### The lock as a token lock -/

/-- Redis holds under the lock keys what the history says, and the history is valid. -/
structure Simulates (requests : RequestId → Request) (tr : Trace) (w : World) : Prop where
  valid : TokenLock.Valid (lockEvents tr)
  creating : ∀ key r, TokenLock.store (lockEvents tr) key = some r →
    ∃ args, requests r = .createBooking args
  lookup : ∀ hallId startTime, w.redis.lookup (lockKey hallId startTime)
    = (TokenLock.store (lockEvents tr) (lockKey hallId startTime)).bind fun r =>
      (requests r).token?.map Token.text

theorem lockEvents_cons_none {t : Transition Config Action} (h : lockEvent t = none) :
    lockEvents (t :: tr) = lockEvents tr :=
  List.filterMap_cons_none h

theorem lockEvents_cons_some {t : Transition Config Action}
    {e : TokenLock.Event RequestId String} (h : lockEvent t = some e) :
    lockEvents (t :: tr) = e :: lockEvents tr :=
  List.filterMap_cons_some h

/-- A request holds its key in Redis exactly if the history says so. -/
theorem Simulates.store_iff {w : World} (h : Simulates requests tr w)
    (htokens : DistinctTokens requests) {r : RequestId} {args : CreateArgs}
    (hr : requests r = .createBooking args) (hallId : ℤ) (startTime : DateTime) :
    TokenLock.store (lockEvents tr) (lockKey hallId startTime) = some r ↔
      w.redis.lookup (lockKey hallId startTime) = some args.token.text := by
  rw [h.lookup]
  constructor
  · intro hs
    rw [hs]
    simp [hr, Request.token?]
  · intro hl
    obtain ⟨r', hs, ht⟩ := Option.bind_eq_some_iff.mp hl
    obtain ⟨args', hr'⟩ := h.creating _ r' hs
    rw [hr', Request.token?, Option.map_some, Option.some_inj] at ht
    rw [hs, htokens r' r args' args hr' hr (Token.ext ht)]

/-- A key that is free in Redis is free in the history. -/
theorem Simulates.store_eq_none {w : World} (h : Simulates requests tr w) {args : CreateArgs}
    (hfree : w.redis args.lockKey = none) :
    TokenLock.store (lockEvents tr) args.lockKey = none := by
  have hnone : w.redis.lookup args.lockKey = none := by
    unfold Redis.lookup
    rw [hfree]
    rfl
  rw [CreateArgs.lockKey, h.lookup, Option.bind_eq_none_iff] at hnone
  rw [Option.eq_none_iff_forall_ne_some]
  intro r hr
  -- a holder has a token, and Redis would have it
  obtain ⟨args', hr'⟩ := h.creating _ r hr
  have htoken := hnone r hr
  rw [hr'] at htoken
  cases htoken

section

variable {w w' : World} {t : Transition Config Action} {i : RequestId} {args : CreateArgs}

theorem Simulates.acquire {ttl : ℕ} (h : Simulates requests tr w)
    (hi : requests i = .createBooking args) (hevent : lockEvent t = some (.acquire i args.lockKey))
    (hfree : w.redis args.lockKey = none)
    (hrd : w'.redis = Function.update w.redis args.lockKey (some ⟨args.token.text, ttl⟩)) :
    Simulates requests (t :: tr) w' := by
  constructor <;> rw [lockEvents_cons_some hevent]
  case valid => exact ⟨h.store_eq_none hfree, h.valid⟩
  case creating =>
    intro key r hr
    unfold TokenLock.store at hr
    split_ifs at hr
    · exact Option.some.inj hr ▸ ⟨args, hi⟩
    · exact h.creating key r hr
  case lookup =>
    intro hallId startTime
    rw [hrd, Redis.lookup_update]
    unfold TokenLock.store
    split_ifs
    · simp [hi, Request.token?]
    · exact h.lookup hallId startTime

theorem Simulates.release (h : Simulates requests tr w) (htokens : DistinctTokens requests)
    (hi : requests i = .createBooking args) (hevent : lockEvent t = some (.release i args.lockKey))
    (hrd : w'.redis = (w.redis.lockReleaseScript args.lockKey args.token.text).2) :
    Simulates requests (t :: tr) w' := by
  constructor <;> rw [lockEvents_cons_some hevent]
  case valid => exact h.valid
  case creating =>
    intro key r hr
    unfold TokenLock.store at hr
    split_ifs at hr
    exact h.creating key r hr
  case lookup =>
    intro hallId startTime
    have hiff := h.store_iff htokens hi hallId startTime
    rw [hrd, Redis.lookup_lockReleaseScript]
    unfold TokenLock.store
    by_cases hk : lockKey hallId startTime = args.lockKey
    · -- the script compares the tokens, and the history the holders
      simp only [← hk, true_and, hiff]
      split_ifs
      · rfl
      · exact h.lookup hallId startTime
    · simp only [hk, false_and, if_false]
      exact h.lookup hallId startTime

theorem Simulates.expire {key : String} (h : Simulates requests tr w)
    (hevent : lockEvent t = some (.expire key)) (hrd : w'.redis = w.redis.expire key) :
    Simulates requests (t :: tr) w' := by
  constructor <;> rw [lockEvents_cons_some hevent]
  case valid => exact h.valid
  case creating =>
    intro key' r hr
    unfold TokenLock.store at hr
    split_ifs at hr
    exact h.creating key' r hr
  case lookup =>
    intro hallId startTime
    rw [hrd, Redis.expire, Redis.lookup_update]
    unfold TokenLock.store
    split_ifs
    · rfl
    · exact h.lookup hallId startTime

/-- A step that leaves the lock keys alone. -/
theorem Simulates.keep (h : Simulates requests tr w) (hevent : lockEvent t = none)
    (hkeys : ∀ hallId startTime,
      w'.redis.lookup (lockKey hallId startTime) = w.redis.lookup (lockKey hallId startTime)) :
    Simulates requests (t :: tr) w' := by
  constructor <;> rw [lockEvents_cons_none hevent]
  case valid => exact h.valid
  case creating => exact h.creating
  case lookup => exact fun hallId startTime => (hkeys _ _).trans (h.lookup hallId startTime)

end

/-- **The history of a run is a token lock**: Redis holds what it says. -/
theorem lock_simulation (htokens : DistinctTokens requests) (h : RunOf settings requests tr c) :
    Simulates requests tr c.shared := by
  refine Run.trace_invariant (I := fun tr c => Simulates requests tr c.shared)
    (A := fun _ _ => True) ⟨trivial, nofun, fun _ _ => rfl⟩ ?_ h fun _ _ => trivial
  rintro tr c a c' hrun ih - hstep
  cases redisStep_of_step hstep with
  | @acquire i args hall user ttl hpc hfree hrd =>
    have hrequest : requests i = .createBooking args := (RunOf.create_iff hrun).mpr ⟨_, hpc⟩
    have hevent : lockEvent ⟨c, .run i, c'⟩ = some (.acquire i args.lockKey) := by
      simp only [lockEvent, hpc, if_pos hfree]
    exact ih.acquire hrequest hevent hfree hrd
  | @release i args outcome hpc hrd =>
    have hrequest : requests i = .createBooking args := (RunOf.create_iff hrun).mpr ⟨_, hpc⟩
    have hevent : lockEvent ⟨c, .run i, c'⟩ = some (.release i args.lockKey) := by
      simp only [lockEvent, hpc]
    exact ih.release htokens hrequest hevent hrd
  | expire hrd => exact ih.expire rfl hrd
  | setex hkey _ hrd hevent =>
    refine ih.keep hevent fun hallId startTime => ?_
    rw [hrd, Redis.lookup_update, if_neg (hkey hallId startTime).symm]
  | keep hrd hevent => exact ih.keep hevent fun _ _ => by rw [hrd]

/-! ### What the lock guarantees -/

/-- A request that creates a booking changes an entry of Redis only by the release of its own lock,
and only if the entry still holds its own token. -/
theorem entry_of_createStep {args : CreateArgs} {i : RequestId} {f : Option Fault} {w w' : World}
    {pc pc' : CreatePc} (hs : CreateStep settings args i f w pc w' pc') {key : String}
    {e : RedisEntry} (he : w.redis key = some e) (he' : w'.redis key ≠ some e) :
    f = none ∧ (∃ outcome, pc = .release outcome) ∧ key = args.lockKey
      ∧ e.value = args.token.text := by
  cases hs with
  | acquire hfree =>
    by_cases hk : key = args.lockKey
    · rw [hk, hfree] at he
      cases he
    · exact absurd ((Function.update_of_ne hk _ _).trans he) he'
  | release =>
    simp only [World.setRedis, Redis.lockReleaseScript] at he'
    split_ifs at he' with hl
    · by_cases hk : key = args.lockKey
      · rw [Redis.lookup, ← hk, he] at hl
        exact ⟨rfl, ⟨_, rfl⟩, hk, Option.some.inj hl⟩
      · exact absurd ((Function.update_of_ne hk _ _).trans he) he'
    · exact absurd he he'
  | _ => exact absurd he he'

/-- The release of a request has failed. -/
def ReleaseFailed (tr : Trace) (r : RequestId) : Prop :=
  ∃ t ∈ tr, ∃ f args outcome,
    t.action = .fault r f ∧ t.before.threads r = .create args (.release outcome)

/-- The token of a request is only stored under its own key, and only while the request is in the
critical section or if its release has failed. -/
def TokenStored (tr : Trace) (w : World) (r : RequestId) : Pc → Prop
  | .create args pc => ∀ key, w.redis.lookup key = some args.token.text →
    key = args.lockKey ∧ (InSection pc ∨ ReleaseFailed tr r)
  | _ => True

theorem ReleaseFailed.mono {r : RequestId} (h : ReleaseFailed tr r)
    (t : Transition Config Action) : ReleaseFailed (t :: tr) r := by
  obtain ⟨t', ht', h'⟩ := h
  exact ⟨t', List.mem_cons_of_mem _ ht', h'⟩

/-- Where a request has stored its token, after a step of its own. -/
theorem stored_of_createStep {args : CreateArgs} {i : RequestId} {f : Option Fault} {w w' : World}
    {pc pc' : CreatePc} {failed : Prop} (hs : CreateStep settings args i f w pc w' pc')
    (hold : ∀ key, w.redis.lookup key = some args.token.text →
      key = args.lockKey ∧ (InSection pc ∨ failed))
    (hfault : ∀ f' outcome, f = some f' → pc = .release outcome → failed) {key : String}
    (hkey : w'.redis.lookup key = some args.token.text) :
    key = args.lockKey ∧ (InSection pc' ∨ failed) := by
  cases hs with
  | acquire =>
    unfold World.setRedis at hkey
    rw [Redis.lookup_update] at hkey
    split_ifs at hkey with hk
    · exact ⟨hk, .inl trivial⟩
    · exact ⟨(hold key hkey).1, .inl trivial⟩
  | release =>
    -- the script has removed the token from the only key that could have it
    unfold World.setRedis at hkey
    rw [Redis.lookup_lockReleaseScript] at hkey
    split_ifs at hkey with hk
    obtain ⟨rfl, -⟩ := hold key hkey
    exact absurd ⟨rfl, hkey⟩ hk
  | releaseFault => exact ⟨(hold key hkey).1, .inr (hfault _ _ rfl rfl)⟩
  | abortLocked => exact (hold key hkey).imp_right fun _ => .inl trivial
  | @abortEarly _ _ pc _ hearly =>
    have hout : ¬ InSection pc := by
      cases pc <;> first | exact hearly.elim | exact id
    exact (hold key hkey).imp_right (Or.imp_left fun hin => absurd hin hout)
  | @lateFault _ _ pc _ hlate =>
    have hout : ¬ InSection pc := by
      cases pc <;> first | exact hlate.elim | exact id
    exact (hold key hkey).imp_right (Or.imp_left fun hin => absurd hin hout)
  | _ => exact hold key hkey

theorem RunOf.tokenStored (htokens : DistinctTokens requests)
    (h : RunOf settings requests tr c) : ∀ r, TokenStored tr c.shared r (c.threads r) := by
  refine Run.trace_invariant (I := fun tr c => ∀ r, TokenStored tr c.shared r (c.threads r))
    (A := fun _ _ => True) ?_ ?_ h fun _ _ => trivial
  · intro r
    show TokenStored [] initial r (requests r).start
    cases requests r with
    | createBooking args => exact fun key hkey => by cases hkey
    | _ => trivial
  intro tr c a c' hrun ih _ hstep
  refine forall_threads hstep ?_ ?_ (fun _ _ _ => trivial) (fun _ _ _ => trivial)
  · intro r hne _
    have hr := ih r
    cases hpc : c.threads r with
    | create args pc =>
      rw [hpc] at hr
      intro key hkey
      obtain hkey | ⟨i, args', hall, user, rfl, hpc', ht, -⟩ := lookup_of_step hstep hkey
      · exact (hr key hkey).imp_right (Or.imp_right (·.mono _))
      · obtain rfl := RunOf.eq_of_token hrun htokens hpc' hpc ht
        exact absurd rfl (hne none)
    | _ => trivial
  · intro i f args pc pc' ha hpc hs
    have hi := ih i
    rw [hpc] at hi
    refine fun key hkey => stored_of_createStep hs (fun key hkey => ?_) ?_ hkey
    · exact (hi key hkey).imp_right (Or.imp_right (·.mono _))
    · rintro f' outcome rfl rfl
      exact ⟨_, List.mem_cons_self .., f', args, outcome, ha, hpc⟩

/-- The request with the lock of a key is between its acquisition and its release. -/
def InUse (c : Config) (key : String) : Prop :=
  ∃ r args pc, c.threads r = .create args pc ∧ InSection pc ∧ args.lockKey = key ∧
    c.shared.redis.lookup key = some args.token.text

/-- No lock expires while it is in use. -/
def NoExpiryInUse (c : Config) : Action → Prop
  | .env (.expire key) => ¬ InUse c key
  | _ => True

/-- A request inside the critical section has its lock. -/
def HasLock (w : World) : Pc → Prop
  | .create args pc => InSection pc → w.redis.lookup args.lockKey = some args.token.text
  | _ => True

/-- The request keeps its lock in a step of its own. -/
theorem hasLock_of_createStep {args : CreateArgs} {i : RequestId} {f : Option Fault}
    {w w' : World} {pc pc' : CreatePc} (hs : CreateStep settings args i f w pc w' pc')
    (h : HasLock w (.create args pc)) : HasLock w' (.create args pc') := by
  intro hin
  cases hs with
  | acquire =>
    unfold World.setRedis
    rw [Redis.lookup_update, if_pos rfl]
    rfl
  | @abortLocked _ _ pc _ _ hlocked =>
    have hbefore : InSection pc := by
      cases pc <;> first | exact hlocked.elim | exact trivial
    exact h hbefore
  | @release _ outcome => cases outcome <;> exact hin.elim
  | lateFault => exact hin.elim
  | rollback => exact hin.elim
  | commit => exact hin.elim
  | _ => first | exact hin.elim | exact h trivial

theorem RunOf.hasLock (htokens : DistinctTokens requests) (h : RunOf settings requests tr c)
    (hexpiry : ∀ t ∈ tr, NoExpiryInUse t.before t.action) :
    ∀ r, HasLock c.shared (c.threads r) := by
  refine Run.trace_invariant (I := fun _ c => ∀ r, HasLock c.shared (c.threads r)) ?_ ?_ h hexpiry
  · intro r
    show HasLock initial (requests r).start
    cases requests r <;> first | exact False.elim | trivial
  intro tr c a c' hrun ih hexpiry hstep
  refine forall_threads hstep ?_ ?_ (fun _ _ _ => trivial) (fun _ _ _ => trivial)
  · intro r hne _
    have hr := ih r
    cases hpc : c.threads r with
    | create args pc =>
      rw [hpc] at hr
      intro hin
      have hlock := hr hin
      by_contra hlost
      obtain rfl | ⟨i, args', outcome, rfl, hpc', -, ht⟩ := lookup_lost_of_step hstep hlock hlost
      · exact hexpiry ⟨r, args, pc, hpc, hin, rfl, hlock⟩
      · -- the request that released the lock has the same token, so it is `r`
        obtain rfl := RunOf.eq_of_token hrun htokens hpc' hpc ht
        exact hne none rfl
    | _ => trivial
  · intro i f args pc pc' _ hpc hs
    have hi := ih i
    rw [hpc] at hi
    exact hasLock_of_createStep hs hi

/-- Mutual exclusion inside the critical section. -/
theorem section_unique (htokens : DistinctTokens requests) (h : RunOf settings requests tr c)
    (hexpiry : ∀ t ∈ tr, NoExpiryInUse t.before t.action) {r r' : RequestId}
    {args args' : CreateArgs} {pc pc' : CreatePc} (hr : c.threads r = .create args pc)
    (hr' : c.threads r' = .create args' pc') (hin : InSection pc) (hin' : InSection pc')
    (hkey : args.lockKey = args'.lockKey) : r = r' := by
  have hl := RunOf.hasLock htokens h hexpiry r
  have hl' := RunOf.hasLock htokens h hexpiry r'
  rw [hr] at hl
  rw [hr'] at hl'
  have htext : some args.token.text = some args'.token.text := by
    rw [← hl hin, ← hl' hin', hkey]
  exact RunOf.eq_of_token h htokens hr hr' (Option.some.inj htext)

/-- A request holds its lock in the history exactly if Redis has its token under the key. -/
theorem held_iff_lookup (htokens : DistinctTokens requests) (h : RunOf settings requests tr c)
    {r : RequestId} {args : CreateArgs} (hr : requests r = .createBooking args) :
    TokenLock.Held (lockEvents tr) r args.lockKey ↔
      c.shared.redis.lookup args.lockKey = some args.token.text := by
  have hsim := lock_simulation htokens h
  rw [TokenLock.held_iff_store hsim.valid]
  exact hsim.store_iff htokens hr args.hallId args.startTime

/-- **The lock protocol**, for requests with distinct tokens.

(a) What a request removes from Redis is a lock that it holds itself, at its release.
(b) A key has at most one holder: a request that has acquired it, and since then neither released it
nor seen it expire.
(c) If no lock expires while it is in use, at most one request per key is in the critical section.
-/
theorem lock_protocol (htokens : DistinctTokens requests) (h : RunOf settings requests tr c) :
    (∀ later t earlier, tr = later ++ t :: earlier →
      ∀ r args f, requests r = .createBooking args → t.action = actionOf r f →
      ∀ key e, t.before.shared.redis key = some e → t.after.shared.redis key ≠ some e →
        f = none ∧ (∃ outcome, t.before.threads r = .create args (.release outcome)) ∧
          key = args.lockKey ∧ e.value = args.token.text ∧
          TokenLock.Held (lockEvents earlier) r key) ∧
    (∀ key r r', TokenLock.Held (lockEvents tr) r key → TokenLock.Held (lockEvents tr) r' key →
      r = r') ∧
    ((∀ t ∈ tr, NoExpiryInUse t.before t.action) →
      ∀ r r' args args' pc pc', c.threads r = .create args pc → c.threads r' = .create args' pc' →
        InSection pc → InSection pc' → args.lockKey = args'.lockKey → r = r') := by
  refine ⟨?_, ?_, ?_⟩
  · rintro later t earlier rfl r args f hr ha key e he he'
    obtain ⟨hrun, hstep⟩ := Run.of_append h
    obtain ⟨pc, hpc⟩ := (RunOf.create_iff hrun).mp hr
    rw [ha] at hstep
    obtain ⟨pc', hs, -⟩ := createStep_of_step hstep hpc
    obtain ⟨rfl, ⟨outcome, rfl⟩, rfl, hvalue⟩ := entry_of_createStep hs he he'
    refine ⟨rfl, ⟨outcome, hpc⟩, rfl, hvalue, (held_iff_lookup htokens hrun hr).mpr ?_⟩
    rw [Redis.lookup, he, Option.map_some, hvalue]
  · exact fun key r r' => (lock_simulation htokens h).valid.held_unique
  · exact fun hexpiry r r' args args' pc pc' hr hr' hin hin' =>
      section_unique htokens h hexpiry hr hr' hin hin'

/-- Two requests for two seats at the same time. -/
def Scenario.twoSeats : List Request :=
  [.createBooking Scenario.booking,
    .createBooking { Scenario.booking with seatIds := [2], token := otherToken }]

/-- The first request still holds the lock when the second one is refused. -/
theorem lock_protocol_twoSeats :
    ∃ tr c, RunOf BookingApi.settings (Scenario.requests Scenario.twoSeats) tr c ∧
      c.shared.redis.lookup Scenario.booking.lockKey = some Scenario.booking.token.text ∧
      ∀ key r r', TokenLock.Held (lockEvents tr) r key → TokenLock.Held (lockEvents tr) r' key →
        r = r' := by
  have htokens : DistinctTokens (Scenario.requests Scenario.twoSeats) :=
    Scenario.distinctTokens (by simp [Scenario.twoSeats]; decide)
  have hreplay : ((Scenario.run Scenario.twoSeats (Scenario.times 10 3 ++ Scenario.times 7 4)).map
      fun c => decide (c.shared.redis.lookup Scenario.booking.lockKey
        = some Scenario.booking.token.text)) = some true := by decide +kernel
  obtain ⟨tr, c, hrun, hlock⟩ := Scenario.exists_run _ hreplay
  exact ⟨tr, c, hrun, hlock, (lock_protocol htokens hrun).2.1⟩

end BookingApi.Concurrent
