import BookingApi.Schemas.Patch
import BookingApi.StaleUpdate.Basic

/-!
# The columns of a hall

A hall, the columns that an `UPDATE` of it sets, and the body of a `PATCH` as values of columns, so
that `PATCH /halls/:id` is an update of a loaded row: `sends_hallPatch` and `columns_patch`.
-/

namespace BookingApi

open StaleUpdate

/-- The columns that a `PATCH` can set. -/
inductive HallColumn
  | name
  | capacity
  | hourlyRate
  | isActive
deriving DecidableEq

/-- The values of a column; a rate is in hundredths. -/
def HallColumn.Value : HallColumn → Type
  | name => String
  | capacity => ℤ
  | hourlyRate => ℤ
  | isActive => Bool

def Hall.columns (hall : Hall) : ∀ k : HallColumn, k.Value
  | .name => hall.name
  | .capacity => hall.capacity
  | .hourlyRate => hall.hourlyRate
  | .isActive => hall.isActive

def HallPatch.columns (patch : HallPatch) : Columns HallColumn.Value
  | .name => patch.name
  | .capacity => patch.capacity
  | .hourlyRate => patch.hourlyRate
  | .isActive => patch.isActive

/-- The values of the body as they are stored. -/
def HallService.HallUpdate.columns (data : HallUpdate) : Columns HallColumn.Value
  | .name => data.name.join
  | .capacity => data.capacity.join
  | .hourlyRate => data.hourlyRate.join.map Decimal.toHundredths
  | .isActive => data.isActive.join

theorem Hall.columns_patch (hall : Hall) (patch : HallPatch) :
    (hall.patch patch).columns = assign patch.columns hall.columns := by
  funext k
  cases k <;> rfl

/-- A hall is its columns, its id and its time of creation. -/
theorem Hall.eq_of_columns {hall hall' : Hall} (hid : hall.id = hall'.id)
    (hcreated : hall.createdAt = hall'.createdAt) (h : hall.columns = hall'.columns) :
    hall = hall' := by
  obtain ⟨id, name, capacity, rate, isActive, createdAt⟩ := hall
  obtain ⟨id', name', capacity', rate', isActive', createdAt'⟩ := hall'
  obtain rfl : id = id' := hid
  obtain rfl : createdAt = createdAt' := hcreated
  obtain rfl : name = name' := congrFun h .name
  obtain rfl : capacity = capacity' := congrFun h .capacity
  obtain rfl : rate = rate' := congrFun h .hourlyRate
  obtain rfl : isActive = isActive' := congrFun h .isActive
  rfl

namespace HallService

/-- The column of a field: the supplied value is sent, or it is loaded. -/
theorem column_cases {α : Type} [DecidableEq α] {old : α} {field : PatchField α} {v : Option α}
    (h : field.column old = .ok v) : v = field.join ∨ v = none ∧ field.join = some old := by
  rcases field with _ | _ | value
  · exact .inl (Except.ok.inj h).symm
  · cases h
  · rw [PatchField.column] at h
    split_ifs at h with heq <;> obtain rfl := Except.ok.inj h
    · exact .inr ⟨rfl, congrArg some heq⟩
    · exact .inl rfl

theorem rateColumn_cases {old : ℤ} {field : PatchField Decimal} {v : Option ℤ}
    (h : rateColumn old field = .ok v) : v = field.join.map Decimal.toHundredths ∨
      v = none ∧ field.join.map Decimal.toHundredths = some old := by
  rcases field with _ | _ | rate
  · exact .inl (Except.ok.inj h).symm
  · cases h
  · rw [rateColumn] at h
    split_ifs at h with heq
    · exact .inr ⟨(Except.ok.inj h).symm, congrArg some (Decimal.IsHundredths.toHundredths_eq heq)⟩
    · rw [storeNumeric] at h
      split_ifs at h
      · exact .inl (Except.ok.inj h).symm
      · cases h

/-- **A `PATCH` is an update of the loaded row.** -/
theorem sends_hallPatch {hall : Hall} {data : HallUpdate} {patch : HallPatch}
    (h : hallPatch hall data = .ok patch) : Sends hall.columns data.columns patch.columns := by
  obtain ⟨-, hname, hcapacity, hrate, hactive⟩ := hallPatch_eq_ok_iff.mp h
  have hname' := column_cases hname
  have hcapacity' := column_cases hcapacity
  have hrate' := rateColumn_cases hrate
  have hactive' := column_cases hactive
  have hcases (k : HallColumn) : patch.columns k = data.columns k ∨
      patch.columns k = none ∧ data.columns k = some (hall.columns k) := by
    cases k with
    | name => exact hname'
    | capacity => exact hcapacity'
    | hourlyRate => exact hrate'
    | isActive => exact hactive'
  constructor
  · intro k v hsent
    rcases hcases k with heq | ⟨hnone, -⟩
    · exact heq ▸ hsent
    · cases hnone.symm.trans hsent
  · intro k v hvalue hsent
    rcases hcases k with heq | ⟨-, hloaded⟩
    · cases hvalue.symm.trans (heq.symm.trans hsent)
    · exact Option.some.inj (hvalue.symm.trans hloaded)

/-- A body that one stored row accepts is accepted by every other one. -/
theorem exists_hallPatch_of_hallPatch {hall : Hall} {data : HallUpdate} {patch : HallPatch}
    (h : hallPatch hall data = .ok patch) (hfits : FitsNumeric hall.hourlyRate) (hall' : Hall) :
    ∃ patch', hallPatch hall' data = .ok patch' := by
  obtain ⟨hname, hcapacity, -, hactive⟩ := ne_null_of_hallPatch h
  obtain ⟨hencodes, -, -, hrate, -⟩ := hallPatch_eq_ok_iff.mp h
  obtain ⟨name, hname'⟩ := (PatchField.exists_column_iff hall'.name).mpr hname
  obtain ⟨capacity, hcapacity'⟩ := (PatchField.exists_column_iff hall'.capacity).mpr hcapacity
  obtain ⟨rate, hrate'⟩ := exists_rateColumn_of_rateColumn hrate hfits hall'.hourlyRate
  obtain ⟨isActive, hactive'⟩ := (PatchField.exists_column_iff hall'.isActive).mpr hactive
  exact ⟨⟨name, capacity, rate, isActive⟩,
    hallPatch_eq_ok_iff.mpr ⟨hencodes, hname', hcapacity', hrate', hactive'⟩⟩

/-- What a `PATCH` makes of the columns. -/
theorem columns_patch_of_hallPatch {hall : Hall} {data : HallUpdate} {patch : HallPatch}
    (h : hallPatch hall data = .ok patch) :
    (hall.patch patch).columns = assign data.columns hall.columns := by
  rw [Hall.columns_patch, (sends_hallPatch h).assign_eq]

end HallService

end BookingApi
