import BookingApi.UserService.Basic

/-!
# What a `PATCH` body writes

The fields that a body sets become columns of one `UPDATE`, or an exception: `hallPatch_eq_ok_iff`
and `userPatch_eq_ok_iff` take the columns one by one, and `PatchField.sets_of_column` and
`sets_of_rateColumn` say that the new row has the values of the body.
-/

namespace BookingApi

/-- `x` comes first, and then `f`. -/
theorem Except.bind_eq_ok_iff {ε α β : Type} {x : Except ε α} {f : α → Except ε β} {b : β} :
    (x >>= f) = .ok b ↔ ∃ a, x = .ok a ∧ f a = .ok b := by
  cases x with
  | ok a => exact ⟨fun h => ⟨a, rfl, h⟩, fun ⟨_, ha, h⟩ => Except.ok.inj ha ▸ h⟩
  | error e => exact ⟨nofun, nofun⟩

theorem Except.bind_eq_error_iff {ε α β : Type} {x : Except ε α} {f : α → Except ε β} {e : ε} :
    (x >>= f) = .error e ↔ x = .error e ∨ ∃ a, x = .ok a ∧ f a = .error e := by
  cases x with
  | ok a =>
    refine ⟨fun h => .inr ⟨a, rfl, h⟩, fun h => ?_⟩
    rcases h with h | ⟨_, ha, h⟩
    · cases h
    · exact Except.ok.inj ha ▸ h
  | error e' =>
    refine ⟨fun h => .inl (congrArg _ (Except.error.inj h)), fun h => ?_⟩
    rcases h with h | ⟨_, ha, _⟩
    · exact congrArg _ (Except.error.inj h)
    · cases ha

namespace PatchField

variable {α : Type}

variable [DecidableEq α] {old : α} {field : PatchField α}

theorem ne_of_column {value : α} (h : field.column old = .ok (some value)) :
    field = some (some value) ∧ value ≠ old := by
  rcases field with _ | _ | value'
  · cases h
  · cases h
  · rw [column] at h
    split_ifs at h with heq
    · cases h
    · obtain rfl := Option.some.inj (Except.ok.inj h)
      exact ⟨rfl, heq⟩

theorem column_eq_error {e : Exc} (h : field.column old = .error e) : e = .integrityError := by
  rcases field with _ | _ | value
  · cases h
  · exact (Except.error.inj h).symm
  · cases h

/-- A column is written unless the field is null. -/
theorem exists_column_iff (old : α) : (∃ v, field.column old = .ok v) ↔ field ≠ some none := by
  rcases field with _ | _ | value
  · exact iff_of_true ⟨_, rfl⟩ nofun
  · exact iff_of_false (fun ⟨_, h⟩ => nomatch h) fun h => h rfl
  · exact iff_of_true ⟨_, rfl⟩ nofun

end PatchField

/-! ### Users -/

namespace UserService

/-- The exception of a null. -/
theorem userPatch_eq_error {user : User} {data : UserUpdate} {e : Exc}
    (h : userPatch user data = .error e) : e = .integrityError := by
  simp only [userPatch, Except.bind_eq_error_iff] at h
  rcases h with h | ⟨_, -, h | ⟨_, -, h | ⟨_, -, h⟩⟩⟩
  · exact PatchField.column_eq_error h
  · exact PatchField.column_eq_error h
  · exact PatchField.column_eq_error h
  · cases h

end UserService

/-! ### Halls -/

namespace HallService

/-- The column of the rate, which is compared as a `Decimal`. -/
def rateColumn (old : ℤ) : PatchField Decimal → Except Exc (Option ℤ)
  | none => .ok none
  | some none => .error .integrityError
  | some (some rate) =>
    if rate.mantissa * 100 = old * 10 ^ rate.scale then .ok none else (storeNumeric rate).map some

theorem hallPatch_eq (hall : Hall) (data : HallUpdate) :
    hallPatch hall data = do
      data.encode
      let name ← data.name.column hall.name
      let capacity ← data.capacity.column hall.capacity
      let hourlyRate ← rateColumn hall.hourlyRate data.hourlyRate
      let isActive ← data.isActive.column hall.isActive
      return ⟨name, capacity, hourlyRate, isActive⟩ := by
  rw [hallPatch]
  rcases data.hourlyRate with _ | _ | rate
  · rfl
  · rfl
  · simp only [rateColumn]
    split_ifs <;> rfl

theorem encode_eq_ok_iff {data : HallUpdate} {u : Unit} : data.encode = .ok u ↔ data.fits := by
  rw [HallUpdate.encode]
  split_ifs with hfits
  · exact iff_of_true rfl hfits
  · exact iff_of_false nofun hfits

theorem hallPatch_eq_ok_iff {hall : Hall} {data : HallUpdate} {patch : HallPatch} :
    hallPatch hall data = .ok patch ↔ data.fits ∧ data.name.column hall.name = .ok patch.name ∧
      data.capacity.column hall.capacity = .ok patch.capacity ∧
      rateColumn hall.hourlyRate data.hourlyRate = .ok patch.hourlyRate ∧
      data.isActive.column hall.isActive = .ok patch.isActive := by
  simp only [hallPatch_eq, Except.bind_eq_ok_iff, encode_eq_ok_iff]
  constructor
  · rintro ⟨-, hfits, name, hname, capacity, hcapacity, rate, hrate, isActive, hactive, h⟩
    obtain rfl := Except.ok.inj h
    exact ⟨hfits, hname, hcapacity, hrate, hactive⟩
  · rintro ⟨hfits, hname, hcapacity, hrate, hactive⟩
    exact ⟨(), hfits, _, hname, _, hcapacity, _, hrate, _, hactive, rfl⟩

/-- A body with columns has no nulls. -/
theorem ne_null_of_hallPatch {hall : Hall} {data : HallUpdate} {patch : HallPatch}
    (h : hallPatch hall data = .ok patch) :
    data.name ≠ some none ∧ data.capacity ≠ some none ∧ data.hourlyRate ≠ some none ∧
      data.isActive ≠ some none := by
  obtain ⟨-, hname, hcapacity, hrate, hactive⟩ := hallPatch_eq_ok_iff.mp h
  refine ⟨(PatchField.exists_column_iff _).mp ⟨_, hname⟩,
    (PatchField.exists_column_iff _).mp ⟨_, hcapacity⟩, fun hnull => ?_,
    (PatchField.exists_column_iff _).mp ⟨_, hactive⟩⟩
  rw [hnull] at hrate
  cases hrate

variable {old : ℤ} {field : PatchField Decimal}

/-- The rate that is written is the one of the field, rounded. -/
theorem eq_toHundredths_of_rateColumn {n : ℤ} (h : rateColumn old field = .ok (some n)) :
    ∃ rate, field = some (some rate) ∧ n = rate.toHundredths ∧ FitsNumeric n := by
  rcases field with _ | _ | rate
  · cases h
  · cases h
  · rw [rateColumn] at h
    split_ifs at h
    · cases h
    · rw [storeNumeric] at h
      split_ifs at h with hfits
      · obtain rfl := Option.some.inj (Except.ok.inj h)
        exact ⟨rate, rfl, rfl, hfits⟩
      · cases h

theorem rateColumn_eq_error {e : Exc} (h : rateColumn old field = .error e) :
    e = .integrityError ∨ e = .dbapiError := by
  rcases field with _ | _ | rate
  · cases h
  · exact .inl (Except.error.inj h).symm
  · rw [rateColumn] at h
    split_ifs at h
    rw [storeNumeric] at h
    split_ifs at h
    · cases h
    · exact .inr (Except.error.inj h).symm

/-- The exception of a null, or of a value that does not fit. -/
theorem hallPatch_eq_error {hall : Hall} {data : HallUpdate} {e : Exc}
    (h : hallPatch hall data = .error e) : e = .integrityError ∨ e = .dbapiError := by
  simp only [hallPatch_eq, Except.bind_eq_error_iff] at h
  rcases h with h | ⟨_, -, h | ⟨_, -, h | ⟨_, -, h | ⟨_, -, h | ⟨_, -, h⟩⟩⟩⟩⟩
  · rw [HallUpdate.encode] at h
    split_ifs at h
    exact .inr (Except.error.inj h).symm
  · exact .inl (PatchField.column_eq_error h)
  · exact .inl (PatchField.column_eq_error h)
  · exact rateColumn_eq_error h
  · exact .inl (PatchField.column_eq_error h)
  · cases h

/-- A rate that is written over one stored rate can be written over any other. -/
theorem exists_rateColumn_of_rateColumn {v : Option ℤ} (h : rateColumn old field = .ok v)
    (hold : FitsNumeric old) (new : ℤ) : ∃ v', rateColumn new field = .ok v' := by
  rcases field with _ | _ | rate
  · exact ⟨_, rfl⟩
  · cases h
  · have hfits : FitsNumeric rate.toHundredths := by
      rw [rateColumn] at h
      split_ifs at h with heq
      · rwa [Decimal.IsHundredths.toHundredths_eq heq]
      · rw [storeNumeric] at h
        split_ifs at h with hfits
        · exact hfits
        · cases h
    rw [rateColumn, storeNumeric, if_pos hfits]
    split_ifs
    · exact ⟨_, rfl⟩
    · exact ⟨_, rfl⟩

end HallService

end BookingApi
