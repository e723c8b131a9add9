import BookingApi.Api.Guarantees
import BookingApi.Async.Yields

/-!
# How the operations of a handler end

Whatever the other requests do, a query answers from the tables as one request sees them, so from
tables with whatever property all views have (`EndsIn`); everything but a flush fails only by a
fault, and only a statement is ever refused.
-/

namespace BookingApi.Api

open Async BookingService

/-- A query answers from tables of `G`, a flush ends in any way, and the other operations fail with
the exceptions of their faults. -/
def EndsIn (G : Db → Prop) : ∀ β : Type, Op β → Except Exc β → Prop
  | _, .execute query, .ok b => ∃ db, G db ∧ b = query db
  | _, .execute _, .error e => ∃ f : World.Fault, f.Raises e
  | _, .flush _, _ => True
  | _, _, .ok _ => True
  | _, _, .error e => ∃ f : World.Fault, f ≠ .refused ∧ f.Raises e

variable {G : Db → Prop} {security : Security} {now : Instant} {authorization : Option String}
  {α : Type} {P : α → Prop} {E : Exc → Prop}

theorem ends_of_view {w : World} {r : RequestId} (h : G (w.view r)) :
    World.semantics.Ends r (EndsIn G) w := by
  intro β op
  constructor
  · cases op with
    | execute query => exact ⟨w.view r, h, rfl⟩
    | _ => trivial
  · intro φ e s' hfault
    have hraises : φ.Raises e := World.raises_of_fault hfault
    have hconnection (hop : World.fault r β op .refused w = none) : φ ≠ .refused := by
      rintro rfl
      exact absurd (hop.symm.trans hfault) (by simp)
    cases op with
    | execute query => exact ⟨φ, hraises⟩
    | flush statement => trivial
    | _ => exact ⟨φ, hconnection rfl, hraises⟩

theorem yields_execute {query : Db → α} (h : ∀ db, G db → P (query db))
    (hE : ∀ {f : World.Fault} (e : Exc), f.Raises e → E e) :
    (execute query).Yields (EndsIn G) P E := by
  refine Program.yields_perform ?_ fun e ⟨_, he⟩ => hE e he
  rintro _ ⟨db, hdb, rfl⟩
  exact h db hdb

theorem yields_redisCall {command : RedisCommand α}
    (hE : ∀ {f : World.Fault} (e : Exc), f.Raises e → E e) :
    (redisCall command).Yields (EndsIn G) (fun _ => True) E :=
  Program.yields_perform (fun _ _ => trivial) fun e ⟨_, _, he⟩ => hE e he

/-- A commit and a rollback have no value that could be refused. -/
theorem yields_getDb {p : App α}
    (hE : ∀ {f : World.Fault} (e : Exc), f ≠ .refused → f.Raises e → E e)
    (h : p.Yields (EndsIn G) P E) : (getDb p).Yields (EndsIn G) P E := by
  have hend (op : Op Unit) (hop : ∀ e, EndsIn G Unit op (.error e) →
        ∃ f : World.Fault, f ≠ .refused ∧ f.Raises e) :
      (Program.perform op : App Unit).Yields (EndsIn G) (fun _ => True) E :=
    Program.yields_perform (fun _ _ => trivial) fun e he =>
      let ⟨_, hf, hraises⟩ := hop e he
      hE e hf hraises
  exact .tryCatch (.bind h fun _ ha => .bind (hend .commit fun _ he => he) fun _ _ => ha)
    fun _ he => .bind (hend .rollback fun _ he => he) fun _ _ => he

/-- The objects of the session belong to the user. -/
def Session.OwnedBy (session : Session) (userId : ℤ) : Prop :=
  ∀ b ∈ session.bookings, b.userId = userId

/-- A user who is served is the one that the token names. -/
theorem yields_loadCurrentUser (hE : ∀ {f : World.Fault} (e : Exc), f.Raises e → E e)
    (hauth : ∀ e, AuthenticationError security now authorization e → E e) :
    (loadCurrentUser security now authorization).Yields (EndsIn G)
      (fun loaded => authenticatedId security now authorization = .ok loaded.1.id ∧
        Session.OwnedBy loaded.2 loaded.1.id) E := by
  refine .bind (Program.yields_ofExcept (fun _ hid => hid) fun e he => hauth e (.inl he))
    fun userId hid => ?_
  refine .bind (yields_execute (P := fun row => ∀ user session, row = some (user, session) →
    user.id = userId ∧ Session.OwnedBy session userId) ?_ hE) fun row hrow => ?_
  · intro db _ user session hfound
    obtain ⟨hfind, rfl⟩ := selectCurrentUser_eq_some hfound
    exact ⟨(Table.find?_eq_some_iff.mp hfind).2,
      fun b hb => of_decide_eq_true (List.mem_filter.mp hb).2⟩
  · rcases row with _ | ⟨user, session⟩
    · exact hauth _ (.inr (List.mem_cons_self ..))
    · show Program.Yields _ _ _ (if _ then _ else _)
      obtain ⟨rfl, howned⟩ := hrow user session rfl
      split_ifs
      · exact ⟨hid, howned⟩
      · exact hauth _ (.inr (List.mem_cons_of_mem _ (List.mem_cons_self ..)))

theorem yields_asUser {p : User → Session → App α} {respond : α → Response} {P : Response → Prop}
    (hE : ∀ {f : World.Fault} (e : Exc), f.Raises e → E e)
    (hauth : ∀ e, AuthenticationError security now authorization e → E e)
    (h : ∀ user session, authenticatedId security now authorization = .ok user.id →
      Session.OwnedBy session user.id →
        (p user session).Yields (EndsIn G) (fun a => P (respond a)) E) :
    (asUser security now authorization p respond).Yields (EndsIn G) P E :=
  .bind (yields_loadCurrentUser hE hauth) fun loaded hloaded =>
    .bind (h loaded.1 loaded.2 hloaded.1 hloaded.2) fun _ ha => ha

end BookingApi.Api
