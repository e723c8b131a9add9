import BookingApi.Api.Protocol

/-!
# Rules for handlers

`Meets faults r E ok p w`: from the world `w` on the handler `p` of request `r` keeps the protocol;
if it returns, then with a result and in a world as `ok` says, and if it raises, then an exception
that `E` allows or one of a fault that may hit it.  Each rule is about one way in which the
handlers are built; between two operations a fact is kept if it only says what `Rely` keeps.
-/

namespace BookingApi

open Async

/-- The exceptions of a fault: of a driver that refuses a value, or of a connection that fails. -/
def World.Fault.Raises : Fault → Exc → Prop
  | .refused, e => e = .dbapiError
  | _, e => e ∈ [.operationalError, .redisError, .kafkaError]

theorem World.raises_of_fault {r : RequestId} {β : Type} {op : Op β} {f : Fault} {w w' : World}
    {e : Exc} (h : fault r β op f w = some (e, w')) : f.Raises e := by
  cases op <;> cases f <;> cases h <;> simp [Fault.Raises]

theorem World.Fault.Raises.cases {f : Fault} {e : Exc} (h : f.Raises e) :
    e = .dbapiError ∨ e = .operationalError ∨ e = .redisError ∨ e = .kafkaError := by
  cases f with
  | refused => exact .inl h
  | _ => exact .inr (by simpa [Raises] using h)

namespace Api

/-- The exceptions that a handler may raise, with what the committed rows then say for good. -/
structure Failures where
  may : Exc → Db → Prop
  lasts : ∀ {e db db'}, db.Later db' → may e db → may e db'

/-- Exceptions that say nothing about the rows. -/
def Failures.of (may : Exc → Prop) : Failures := ⟨fun e _ => may e, fun _ h => h⟩

variable {faults : Faults} {r : RequestId} {E : Failures} {α β : Type} {w t : World}

/-- The outcome of a handler. -/
def Ends (faults : World.Fault → Prop) (E : Failures) (ok : α → World → Prop) :
    Except Exc α → World → Prop
  | .ok a, t => ok a t
  | .error e, t => E.may e t.db ∨ ∃ f, faults f ∧ f.Raises e

/-- The handler keeps the protocol and ends as `ok` and `E` say. -/
def Meets (faults : Faults) (r : RequestId) (E : Failures) (ok : α → World → Prop)
    (p : App α) (w : World) : Prop :=
  p.Ensures (protocol faults) r (Ends (faults r) E ok) w

variable {ok : α → World → Prop} {p : App α}

theorem Meets.of_rely (h : Meets faults r E ok p w) (hrely : Rely r w t) :
    Meets faults r E ok p t :=
  Program.Ensures.of_rely h hrely

theorem Meets.mono {ok' : α → World → Prop} (h : Meets faults r E ok p w)
    (hok : ∀ a t, Inv t → ok a t → ok' a t) : Meets faults r E ok' p w :=
  Program.Ensures.mono h fun res t ht hend => by
    cases res with
    | ok a => exact hok a t ht hend
    | error e => exact hend

/-- More exceptions. -/
theorem Meets.weaken {E' : Failures} (h : Meets faults r E ok p w)
    (hE : ∀ e db, E.may e db → E'.may e db) : Meets faults r E' ok p w :=
  Program.Ensures.mono h fun res t _ hend => by
    cases res with
    | ok a => exact hend
    | error e => exact hend.imp_left (hE e t.db)

/-! ### The rules -/

/-- It holds, and goes on to hold whatever the others do. -/
def Stably (r : RequestId) (P : World → Prop) (w : World) : Prop := ∀ t, Rely r w t → Inv t → P t

theorem Meets.stably (h : Meets faults r E ok p w) : Stably r (Meets faults r E ok p) w :=
  fun _ hrely _ => h.of_rely hrely

theorem meets_ret {a : α} (h : Stably r (ok a) w) : Meets faults r E ok (.ret a) w := h

theorem meets_raise {e : Exc} (h : E.may e w.db) : Meets faults r E ok (.raise e) w :=
  fun _ hrely _ => .inl (E.lasts hrely.later h)

theorem meets_ofExcept {x : Except Exc α} (hok : ∀ a, x = .ok a → Stably r (ok a) w)
    (herr : ∀ e, x = .error e → E.may e w.db) : Meets faults r E ok (.ofExcept x) w := by
  cases x with
  | ok a => exact hok a rfl
  | error e => exact meets_raise (herr e rfl)

theorem Meets.bind {ok : β → World → Prop} {f : α → App β}
    (h : Meets faults r E (fun a t => Meets faults r E ok (f a) t) p w) :
    Meets faults r E ok (p.bind f) w :=
  Program.Ensures.bind (Program.Ensures.mono h fun res _ _ hend => by cases res <;> exact hend)

/-- A function of the result. -/
theorem Meets.map {γ : Type} {ok : γ → World → Prop} {f : α → γ}
    (h : Meets faults r E (fun a t => Stably r (ok (f a)) t) p w) :
    Meets faults r E ok (p.bind (.ret ∘ f)) w :=
  Meets.bind (h.mono fun _ _ _ hok => meets_ret hok)

/-- An exception of `p` goes to the handler, those of the faults too. -/
theorem Meets.tryCatch {E' : Failures} {handler : Exc → App α}
    (h : Meets faults r E' ok p w)
    (hhandler : ∀ e t, Inv t → E'.may e t.db ∨ (∃ f, faults r f ∧ f.Raises e) →
      Meets faults r E ok (handler e) t) : Meets faults r E ok (p.tryCatch handler) w :=
  Program.Ensures.tryCatch (Program.Ensures.mono h fun res t ht hend => by
    cases res with
    | ok a => exact hend
    | error e => exact hhandler e t ht hend)

/-- An operation, whether it returns, raises or is hit by a fault. -/
theorem meets_call {op : Op β} {next : Except Exc β → App α}
    (h : ∀ t, Rely r w t → Inv t → Permits r β op t ∧
      Meets faults r E ok (next (World.exec r β op t).1) (World.exec r β op t).2 ∧
      ∀ f e t', faults r f → World.fault r β op f t = some (e, t') →
        Meets faults r E ok (next (.error e)) t') : Meets faults r E ok (.call op next) w := by
  intro t hrely ht
  obtain ⟨hop, hexec, hfault⟩ := h t hrely ht
  refine ⟨hop, fun res u hout => ?_⟩
  rcases hout with hout | ⟨f, e, hfaults, hf, rfl⟩
  · rw [Prod.ext_iff] at hout
    obtain ⟨rfl, rfl⟩ := hout
    exact hexec
  · exact hfault f e u hfaults hf

/-- An exception of a fault that nobody catches. -/
theorem meets_raise_of_fault {op : Op β} {f : World.Fault} {e : Exc} (hfaults : faults r f)
    (h : World.fault r β op f w = some (e, t)) : Meets faults r E ok (.raise e) t :=
  fun _ _ _ => .inr ⟨f, hfaults, World.raises_of_fault h⟩

/-- A query, and what follows it. -/
theorem meets_execute_bind {query : Db → β} {f : β → App α}
    (h : ∀ t, Rely r w t → Inv t → Meets faults r E ok (f (query (t.view r))) t) :
    Meets faults r E ok ((execute query).bind f) w :=
  meets_call fun t hrely ht =>
    ⟨trivial, h t hrely ht, fun _ _ _ hfaults hf => meets_raise_of_fault hfaults hf⟩

/-- A query alone. -/
theorem meets_execute {query : Db → α}
    (h : ∀ t, Rely r w t → Inv t → Stably r (ok (query (t.view r))) t) :
    Meets faults r E ok (execute query) w :=
  meets_call fun t hrely ht =>
    ⟨trivial, h t hrely ht, fun _ _ _ hfaults hf => meets_raise_of_fault hfaults hf⟩

/-- A flush, and what follows it. -/
theorem meets_flush_bind {statement : Statement β} {f : β → App α}
    (h : ∀ t, Rely r w t → Inv t → Permits r β (.flush statement) t ∧
      (∀ b ws seqs, statement t.now t.sequences (t.view r) = (.ok (b, ws), seqs) →
        Meets faults r E ok (f b) ((t.setSequences seqs).stage r ws)) ∧
      ∀ e seqs, statement t.now t.sequences (t.view r) = (.error e, seqs) → E.may e t.db) :
    Meets faults r E ok ((flush statement).bind f) w := by
  refine meets_call fun t hrely ht => ?_
  obtain ⟨hop, hok, herr⟩ := h t hrely ht
  refine ⟨hop, ?_, fun _ _ _ hfaults hf => meets_raise_of_fault hfaults hf⟩
  rcases World.exec_flush (w := t) (r := r) statement with
    ⟨b, ws, seqs, hs, he⟩ | ⟨e, seqs, hs, he⟩
  · rw [he]
    exact hok b ws seqs hs
  · rw [he]
    exact meets_raise (herr e seqs hs)

/-- A flush alone. -/
theorem meets_flush {statement : Statement α}
    (h : ∀ t, Rely r w t → Inv t → Permits r α (.flush statement) t ∧
      (∀ a ws seqs, statement t.now t.sequences (t.view r) = (.ok (a, ws), seqs) →
        Stably r (ok a) ((t.setSequences seqs).stage r ws)) ∧
      ∀ e seqs, statement t.now t.sequences (t.view r) = (.error e, seqs) → E.may e t.db) :
    Meets faults r E ok (flush statement) w := by
  have hbind : (flush statement).bind .ret = flush statement := by
    rw [flush, Program.perform, Program.call_bind]
    congr 1
    funext res
    cases res <;> rfl
  rw [← hbind]
  exact meets_flush_bind h

/-- A command in Redis, and what follows it. -/
theorem meets_redisCall_bind {command : RedisCommand β} {f : β → App α}
    (hcache : ∀ rd, CacheSound rd → CacheSound (rd.exec command).2)
    (h : ∀ t, Rely r w t → Inv t →
      Meets faults r E ok (f (t.redis.exec command).1) (t.setRedis (t.redis.exec command).2)) :
    Meets faults r E ok ((redisCall command).bind f) w :=
  meets_call fun t hrely ht =>
    ⟨hcache, h t hrely ht, fun _ _ _ hfaults hf => meets_raise_of_fault hfaults hf⟩

/-- An event, and what follows it. -/
theorem meets_sendBookingEvent_bind {event : BookingEvent} {f : Unit → App α}
    (h : ∀ t, Rely r w t → Inv t → Meets faults r E ok (f ()) (t.publish r event)) :
    Meets faults r E ok ((sendBookingEvent event).bind f) w :=
  meets_call fun t hrely ht =>
    ⟨trivial, h t hrely ht, fun _ _ _ hfaults hf => meets_raise_of_fault hfaults hf⟩

/-! ### What a request sees -/

/-- The rows that a request has changed look to it as before. -/
theorem Rely.row_view (h : Rely r w t) {x : Write} (hx : x ∈ w.writesOf r) :
    (t.view r).row x.target = (w.view r).row x.target := by
  rw [World.view, World.view, Db.row_applyAll, Db.row_applyAll, h.writes]
  exact Transaction.Schema.applyAll_congr (h.rows x hx)

/-- What a request has seen is still there, in a later state. -/
theorem Rely.later_view (h : Rely r w t) : (w.view r).Later (t.view r) := by
  intro key row hrow
  by_cases hkey : ∃ x ∈ w.writesOf r, x.target = key
  · obtain ⟨x, hx, rfl⟩ := hkey
    exact ⟨row, (h.row_view hx).trans hrow, .refl row⟩
  · have hne : ∀ x ∈ w.writesOf r, schema.target x ≠ key := fun x hx he => hkey ⟨x, hx, he⟩
    rw [World.view, Db.row_applyAll, Transaction.Schema.applyAll_of_forall_ne hne] at hrow
    rw [World.view, Db.row_applyAll, h.writes, Transaction.Schema.applyAll_of_forall_ne hne]
    exact h.later key row hrow

theorem Rely.view_of_idle (h : Rely r w t) (hidle : w.writesOf r = []) : t.view r = t.db :=
  World.view_of_writesOf_nil (h.writes.trans hidle)

/-- What is staged is seen. -/
theorem view_stage (w : World) (r : RequestId) (ws : List Write) (seqs : Sequences) :
    ((w.setSequences seqs).stage r ws).view r = (w.view r).applyAll ws := by
  rw [World.view, World.writesOf_stage_self, Db.applyAll_append]
  rfl

/-- What was seen before a flush is seen after it. -/
theorem row_view_stage_ne_none {key : RowKey} {ws : List Write} {seqs : Sequences}
    (h : (w.view r).row key ≠ none) :
    (((w.setSequences seqs).stage r ws).view r).row key ≠ none := by
  rw [view_stage, Db.row_applyAll]
  exact Transaction.Schema.applyAll_ne_none h

/-- A row that a request has inserted is what it sees from then on. -/
theorem Rely.row_of_new {ws : List Write} {seqs : Sequences} (h : Inv w)
    (hws : Admissible r w ws seqs) (hnodup : (ws.map Write.target).Nodup)
    (hrely : Rely r ((w.setSequences seqs).stage r ws) t) {x : Write} (hx : x ∈ ws)
    (hins : x.inserts = true) : (t.view r).row x.target = x.act none := by
  have hmem : x ∈ ((w.setSequences seqs).stage r ws).writesOf r := by
    rw [World.writesOf_stage_self]
    exact List.mem_append_right _ hx
  have hnew : (w.view r).row x.target = none := by
    by_contra hne
    rw [World.row_view] at hne
    exact (hws.stageable.inserts x hx hins).1 (h.consistent.view_allocated hne)
  rw [hrely.row_view hmem, view_stage, Db.row_applyAll]
  exact Transaction.Schema.applyAll_insert (S := schema) hnodup hx hnew

/-- What the rows say for good. -/
def Lasting (P : Db → Prop) : Prop := ∀ ⦃db db' : Db⦄, db.Later db' → P db → P db'

theorem Lasting.stably {P : Db → Prop} (hP : Lasting P) (h : P (w.view r)) :
    Stably r (fun t => P (t.view r)) w :=
  fun _ hrely _ => hP hrely.later_view h

/-! ### The end of a request -/

/-- The transaction is closed. -/
def Closed (r : RequestId) (w : World) : Prop := w.writesOf r = []

theorem Closed.of_rely (h : Closed r w) (hrely : Rely r w t) : Closed r t :=
  hrely.writes.trans h

theorem closed_commit (w : World) (r : RequestId) : Closed r (w.commit r) := by
  simp [Closed, World.commit]

theorem closed_close (w : World) (r : RequestId) : Closed r (w.close r) := by
  simp [Closed]

end Api

end BookingApi
