import BookingApi.World.Basic

/-!
# What an operation leaves unchanged

An operation of request `r` changes neither the open transaction nor the events of another request,
whether it returns, raises or is hit by a fault; and no row of the committed tables is ever lost.
-/

namespace BookingApi.World

variable {w w' : World} {r r' : RequestId} {β : Type} {op : Op β}

/-- The events that a request has sent. -/
def sentBy (w : World) (r : RequestId) : List Message := w.topic.filter fun m => m.sender = r

theorem sentBy_congr (h : w'.topic = w.topic) (r : RequestId) : w'.sentBy r = w.sentBy r := by
  rw [sentBy, h, sentBy]

@[simp] theorem sentBy_publish_self (w : World) (r : RequestId) (event : BookingEvent) :
    (w.publish r event).sentBy r = w.sentBy r ++ [⟨r, event⟩] := by
  simp [sentBy, publish]

@[simp] theorem sentBy_publish_of_ne (w : World) (h : r' ≠ r) (event : BookingEvent) :
    (w.publish r event).sentBy r' = w.sentBy r' := by
  simp [sentBy, publish, h.symm]

theorem mem_sentBy {m : Message} : m ∈ w.sentBy r ↔ m ∈ w.topic ∧ m.sender = r := by
  simp [sentBy]

/-! ### The operations of a request -/

/-- The end of a transaction without changes. -/
theorem close_of_idle (hidle : w.writesOf r = []) : w.close r = w := by
  have hfilter : w.pending.filter (fun p => p.1 ≠ r) = w.pending := by
    refine List.filter_eq_self.mpr fun p hp => decide_eq_true fun hpr => ?_
    have hmem : p.2 ∈ w.writesOf r :=
      List.mem_map_of_mem (List.mem_filter.mpr ⟨hp, decide_eq_true hpr⟩)
    rw [hidle] at hmem
    exact absurd hmem List.not_mem_nil
  rw [close, hfilter]

/-- A flush within the constraints. -/
theorem exec_flush_of_ok {statement : Statement β} {b : β} {ws : List Write} {seqs : Sequences}
    (h : statement w.now w.sequences (w.view r) = (.ok (b, ws), seqs)) :
    exec r _ (.flush statement) w = (.ok b, (w.setSequences seqs).stage r ws) := by
  simp only [exec, h]

/-- A flush that violates a constraint still hands out ids. -/
theorem exec_flush_of_error {statement : Statement β} {e : Exc} {seqs : Sequences}
    (h : statement w.now w.sequences (w.view r) = (.error e, seqs)) :
    exec r _ (.flush statement) w = (.error e, w.setSequences seqs) := by
  simp only [exec, h]

/-- The outcome of a flush. -/
theorem exec_flush (statement : Statement β) :
    (∃ b ws seqs, statement w.now w.sequences (w.view r) = (.ok (b, ws), seqs) ∧
      exec r _ (.flush statement) w = (.ok b, (w.setSequences seqs).stage r ws)) ∨
    ∃ e seqs, statement w.now w.sequences (w.view r) = (.error e, seqs) ∧
      exec r _ (.flush statement) w = (.error e, w.setSequences seqs) := by
  rcases h : statement w.now w.sequences (w.view r) with ⟨e | ⟨b, ws⟩, seqs⟩
  · exact .inr ⟨e, seqs, rfl, exec_flush_of_error h⟩
  · exact .inl ⟨b, ws, seqs, rfl, exec_flush_of_ok h⟩

/-- A flush does not change the committed tables. -/
theorem db_exec_flush (statement : Statement β) :
    (exec r _ (.flush statement) w).2.db = w.db := by
  rcases exec_flush (w := w) (r := r) statement with
    ⟨b, ws, seqs, -, he⟩ | ⟨e, seqs, -, he⟩ <;> rw [he] <;> rfl

/-- What a step of another request keeps for request `r`. -/
structure Untouched (r : RequestId) (w w' : World) : Prop where
  writes : w'.writesOf r = w.writesOf r
  sent : w'.sentBy r = w.sentBy r
  grows : w.db.Grows w'.db

theorem Untouched.of_eq (hp : w'.pending = w.pending) (ht : w'.topic = w.topic)
    (hdb : w'.db = w.db) : Untouched r w w' :=
  ⟨writesOf_congr hp r, sentBy_congr ht r, hdb ▸ .refl _⟩

theorem Untouched.close (h : r' ≠ r) : Untouched r' w (w.close r) :=
  ⟨writesOf_close_of_ne w h, rfl, .refl _⟩

theorem Untouched.publish (h : r' ≠ r) {event : BookingEvent} :
    Untouched r' w (w.publish r event) :=
  ⟨rfl, sentBy_publish_of_ne w h event, .refl _⟩

/-- An operation of `r` leaves the other requests alone. -/
theorem untouched_exec (h : r' ≠ r) : Untouched r' w (exec r _ op w).2 := by
  cases op with
  | flush statement =>
    rcases exec_flush (w := w) (r := r) statement with
      ⟨b, ws, seqs, -, he⟩ | ⟨e, seqs, -, he⟩ <;> rw [he]
    · exact ⟨writesOf_stage_of_ne _ h ws, rfl, .refl _⟩
    · exact .of_eq rfl rfl rfl
  | commit => exact ⟨writesOf_close_of_ne _ h, rfl, Db.grows_applyAll _ _⟩
  | rollback => exact .close h
  | send event => exact .publish h
  | _ => exact .of_eq rfl rfl rfl

/-! ### Faults -/

variable {f : Fault} {e : Exc}

/-- A fault changes the world in two cases only: a failed rollback, and a lost acknowledgement. -/
theorem fault_cases (h : fault r _ op f w = some (e, w')) :
    w' = w ∨ w' = w.close r ∨ ∃ event, w' = w.publish r event := by
  cases op <;> cases f <;> simp only [fault, Option.some.injEq, Prod.mk.injEq, reduceCtorEq] at h
  case rollback.noEffect => exact .inr (.inl h.2.symm)
  case send.acknowledgementLost event => exact .inr (.inr ⟨event, h.2.symm⟩)
  all_goals exact .inl h.2.symm

theorem untouched_fault (hne : r' ≠ r) (h : fault r _ op f w = some (e, w')) :
    Untouched r' w w' := by
  rcases fault_cases h with rfl | rfl | ⟨event, rfl⟩
  · exact .of_eq rfl rfl rfl
  · exact .close hne
  · exact .publish hne

theorem db_fault (h : fault r _ op f w = some (e, w')) : w'.db = w.db := by
  rcases fault_cases h with rfl | rfl | ⟨event, rfl⟩ <;> rfl

/-- An operation that changes the committed tables sends no event. -/
theorem db_or_topic_exec : (exec r _ op w).2.db = w.db ∨ (exec r _ op w).2.topic = w.topic := by
  cases op with
  | flush statement => exact .inl (db_exec_flush statement)
  | commit => exact .inr rfl
  | _ => exact .inl rfl

end BookingApi.World
