import BookingApi.Schemas.Patch
import BookingApi.Serial.Effects
import BookingApi.Serial.Occupancy
import BookingApi.Serial.Routes

/-!
# Rates and prices

The schemas ask for a positive rate, but a rate below half a hundredth is stored as zero, and a rate
that fits its column may give a price that does not fit the column of prices.
`moneyInRange_of_ratesInRange` says that in a serial run in which no operation stores such a rate
all rates and prices are positive, and every price fits.
-/

namespace BookingApi.Serial

open Api Async BookingService Concurrent HallService UserService World

variable {settings : Settings} {w : World} {r : RequestId} {db : Db} {moves : List Move}

/-- The rate, in hundredths, is positive, and so small that the longest slot has a price. -/
def RateInRange (settings : Settings) (rate : ℤ) : Prop :=
  0 < rate ∧ FitsNumeric (rate * settings.maxBookingHours)

instance (rate : ℤ) : Decidable (RateInRange settings rate) := inferInstanceAs (Decidable (_ ∧ _))

/-- The operation stores the rate. -/
def Operation.StoresRate (db : Db) (rate : Decimal) : Operation → Prop
  | .createHall data => data.hourlyRate = rate ∧ FitsNumeric rate.toHundredths
  | .updateHall hallId data => data.hourlyRate = some (some rate) ∧
      ∃ hall, db.halls.find? hallId = some hall ∧ Accepts hall data
  | _ => False

/-- The rates of all halls have the property. -/
def RatesHave (P : ℤ → Prop) (db : Db) : Prop := ∀ hall ∈ db.halls.rows, P hall.hourlyRate

/-- The change sets a rate. -/
def SetsRate (rate : ℤ) : Write → Prop
  | .insertHall hall => hall.hourlyRate = rate
  | .updateHall _ patch => patch.hourlyRate = some rate
  | _ => False

/-! ### Rates -/

theorem ratesHave_applyAll {P : ℤ → Prop} (h : RatesHave P db) {ws : List Write}
    (hws : ∀ x ∈ ws, ∀ rate, SetsRate rate x → P rate) : RatesHave P (db.applyAll ws) := by
  induction ws generalizing db with
  | nil => exact h
  | cons x ws ih =>
    refine ih ?_ fun x' hx' => hws x' (List.mem_cons_of_mem _ hx')
    have hx := hws x (List.mem_cons_self ..)
    intro hall hmem
    cases x with
    | insertHall hall' =>
      rcases Table.mem_of_mem_insert hmem with hold | rfl
      · exact h hall hold
      · exact hx _ rfl
    | updateHall id patch =>
      simp only [Write.apply] at hmem
      obtain ⟨old, hold, rfl⟩ := Table.mem_modify.mp hmem
      split_ifs
      · rcases hrate : patch.hourlyRate with _ | rate
        · simpa only [Hall.patch, hrate, Option.getD_none] using h old hold
        · simpa only [Hall.patch, hrate, Option.getD_some] using hx rate hrate
      · exact h old hold
    | _ => exact h hall hmem

/-- An operation that stores rates with a property only. -/
theorem ratesHave_serve_handler {P : ℤ → Prop} (hidle : w.writesOf r = []) (h : RatesHave P w.db)
    {op : Operation} (hop : ∀ rate, op.StoresRate w.db rate → P rate.toHundredths) :
    RatesHave P (serve r (op.handler settings) w).2.db := by
  by_cases hhalls : .halls ∉ op.tables
  · rw [RatesHave, halls_serve_handler hidle hhalls]
    exact h
  cases op with
  | createHall data =>
    rw [Operation.handler, discard, serve_map]
    have huses : (HallService.createHall data).Uses (Touches (fun x => ∃ hall,
        x = .insertHall hall ∧ storeNumeric data.hourlyRate = .ok hall.hourlyRate) fun _ => True) :=
      touches_createHall data fun hall hrate => ⟨hall, rfl, hrate⟩
    obtain ⟨ws, hws, hdb⟩ := exists_applyAll_serve huses hidle
    rw [hdb]
    refine ratesHave_applyAll h fun x hx rate hsets => ?_
    obtain ⟨hall, rfl, hrate⟩ := hws x hx
    obtain rfl : hall.hourlyRate = rate := hsets
    rw [storeNumeric] at hrate
    split_ifs at hrate with hfits
    rw [← Except.ok.inj hrate]
    exact hop _ ⟨rfl, hfits⟩
  | updateHall hallId data =>
    rw [Operation.handler, discard, serve_map]
    rcases db_updateHall hidle hallId data with hdb | ⟨hall, patch, hfind, hpatch, hdb⟩
    · rwa [hdb]
    · rw [hdb]
      refine ratesHave_applyAll h fun x hx rate hsets => ?_
      rw [updateHallRow] at hx
      split_ifs at hx
      · exact absurd hx List.not_mem_nil
      · obtain rfl := List.mem_singleton.mp hx
        obtain ⟨-, -, -, hcolumn, -⟩ := hallPatch_eq_ok_iff.mp hpatch
        rw [show patch.hourlyRate = some rate from hsets] at hcolumn
        -- the column that is sent is the rate of the body, rounded
        obtain ⟨given, hgiven, rfl, -⟩ := eq_toHundredths_of_rateColumn hcolumn
        exact hop given ⟨hgiven, hall, hfind, patch, hpatch⟩
  | deleteHall hallId =>
    rw [Operation.handler, discard, serve_map]
    have huses : (HallService.deleteHall hallId).Uses (Touches
        (fun x => x = .updateHall hallId ⟨none, none, none, some false⟩) fun _ => True) :=
      touches_deleteHall hallId rfl
    obtain ⟨ws, hws, hdb⟩ := exists_applyAll_serve huses hidle
    rw [hdb]
    refine ratesHave_applyAll h fun x hx rate hsets => ?_
    obtain rfl := hws x hx
    cases hsets
  | _ => exact absurd (by simp [Operation.tables]) hhalls

/-! ### Prices -/

/-- An accepted slot of at least an hour has from one to the greatest number of whole hours. -/
theorem truncate_of_validateTimeSlot (hmin : 1 ≤ settings.minBookingHours)
    {startTime endTime : DateTime} (h : validateTimeSlot settings startTime endTime = .ok ()) :
    1 ≤ truncate (durationHours (endTime.instant - startTime.instant)) ∧
      truncate (durationHours (endTime.instant - startTime.instant)) ≤
        settings.maxBookingHours := by
  obtain ⟨-, -, hlow, hhigh, -⟩ := validateTimeSlot_eq_ok_iff.mp h
  have hone : (1 : ℚ) ≤ durationHours (endTime.instant - startTime.instant) :=
    le_trans (by exact_mod_cast hmin) hlow
  rw [truncate, if_pos (by linarith)]
  constructor
  · exact Int.le_floor.mpr (by exact_mod_cast hone)
  · exact_mod_cast (Int.floor_le _).trans hhigh

/-- The price of whole hours within the limits. -/
theorem RateInRange.mul {rate hours : ℤ} (h : RateInRange settings rate) (h1 : 1 ≤ hours)
    (hmax : hours ≤ settings.maxBookingHours) : 0 < rate * hours ∧ FitsNumeric (rate * hours) := by
  obtain ⟨hpos, hfits⟩ := h
  have hprice : 0 < rate * hours := Int.mul_pos hpos (by omega)
  have hle : rate * hours ≤ rate * settings.maxBookingHours :=
    Int.mul_le_mul_of_nonneg_left hmax hpos.le
  rw [FitsNumeric] at hfits ⊢
  exact ⟨hprice, by omega⟩

/-- The price of every accepted slot of a hall is positive and fits its column. -/
def PricesFit (settings : Settings) (hall : Hall) : Prop :=
  ∀ args : CreateArgs, validateTimeSlot settings args.startTime args.endTime = .ok () →
    0 < (price args hall).toHundredths ∧
      storeNumeric (price args hall) = .ok (price args hall).toHundredths

theorem pricesFit_of_rateInRange (hmin : 1 ≤ settings.minBookingHours) {hall : Hall}
    (h : RateInRange settings hall.hourlyRate) : PricesFit settings hall := by
  intro args hslot
  obtain ⟨h1, hmax⟩ := truncate_of_validateTimeSlot hmin hslot
  have hprice : (price args hall).toHundredths = hall.hourlyRate *
      truncate (durationHours (args.endTime.instant - args.startTime.instant)) :=
    toHundredths_mulInt_ofHundredths _ _
  rw [storeNumeric, hprice]
  obtain ⟨hpos, hfits⟩ := h.mul h1 hmax
  exact ⟨hpos, if_pos hfits⟩

/-! ### Runs -/

/-- Money after some moves: rates are positive, prices are positive and fit, a request to create a
booking never fails for its price, and no booking is free. -/
structure MoneyInRange (settings : Settings) (moves : List Move) : Prop where
  rate : ∀ hall ∈ (run settings moves).db.halls.rows, 0 < hall.hourlyRate
  price : ∀ hall ∈ (run settings moves).db.halls.rows, PricesFit settings hall
  insert : ∀ args : CreateArgs, Bookable settings args (run settings moves).db →
    ∃ a, answer settings moves (args.program settings) = .ok a
  booking : ∀ b ∈ (run settings moves).db.bookings.rows, 0 < b.totalPrice

/-- The rates in a serial run without an operation that stores a rate out of range. -/
theorem ratesInRange_run
    (hrates : ∀ op earlier, .serve op :: earlier <:+ moves → ∀ rate,
      op.StoresRate (run settings earlier).db rate → RateInRange settings rate.toHundredths) :
    RatesHave (RateInRange settings) (run settings moves).db := by
  induction moves with
  | nil => exact fun hall hmem => absurd hmem List.not_mem_nil
  | cons move moves ih =>
    have hkept := ih fun op earlier hsuffix =>
      hrates op earlier (hsuffix.trans (List.suffix_cons _ _))
    cases move with
    | env e => cases e <;> exact hkept
    | serve op =>
      exact ratesHave_serve_handler (writesOf_run _ _) hkept (hrates op moves List.suffix_rfl)

/-- The prices in a serial run in whose states all rates are in range. -/
theorem totalPrice_pos_run (hmin : 1 ≤ settings.minBookingHours)
    (hrates : ∀ earlier, earlier <:+ moves →
      RatesHave (RateInRange settings) (run settings earlier).db) :
    ∀ b ∈ (run settings moves).db.bookings.rows, 0 < b.totalPrice := by
  induction moves with
  | nil => exact fun b hb => absurd hb List.not_mem_nil
  | cons move moves ih =>
    have hkept := ih fun earlier hsuffix => hrates earlier (hsuffix.trans (List.suffix_cons _ _))
    intro b hb
    cases moveStep moves move with
    | @created args hall user a hpasses ha hanswer hdb =>
      rw [hdb, (applyAll_newWrites (sound_run moves) args hall).1, List.mem_append,
        List.mem_singleton] at hb
      rcases hb with hb | rfl
      · exact hkept b hb
      · obtain ⟨hmem, -⟩ := selectActiveHall_eq_some hpasses.hall
        have hrate := hrates moves (List.suffix_cons _ _) hall hmem
        exact (pricesFit_of_rateInRange hmin hrate args hpasses.slot).1
    | cancelled hc ha hdb =>
      rw [hdb] at hb
      simp only [Write.apply] at hb
      obtain ⟨b₀, hb₀, rfl⟩ := Table.mem_modify.mp hb
      split_ifs <;> exact hkept b₀ hb₀
    | kept _ hbookings _ => exact hkept b (hbookings ▸ hb)

/-- **Money stays in range** in every state of a serial run in which no operation stores a rate
that is rounded to zero, or whose price for the longest slot does not fit. -/
theorem moneyInRange_of_ratesInRange (hmin : 1 ≤ settings.minBookingHours)
    (hrates : ∀ op earlier, .serve op :: earlier <:+ moves → ∀ rate,
      op.StoresRate (run settings earlier).db rate → RateInRange settings rate.toHundredths)
    {reached : List Move} (hreached : reached <:+ moves) : MoneyInRange settings reached := by
  have hreach (earlier : List Move) (hsuffix : earlier <:+ reached) :
      RatesHave (RateInRange settings) (run settings earlier).db :=
    ratesInRange_run fun op _ hsuffix' =>
      hrates op _ (hsuffix'.trans (hsuffix.trans hreached))
  have hprices : ∀ hall ∈ (run settings reached).db.halls.rows, PricesFit settings hall :=
    fun hall hmem => pricesFit_of_rateInRange hmin (hreach reached List.suffix_rfl hall hmem)
  refine ⟨fun hall hmem => (hreach reached List.suffix_rfl hall hmem).1, hprices,
    fun args hbookable => ?_, totalPrice_pos_run hmin hreach⟩
  refine (createBooking_iff args fun hall hmem _ => ?_).mpr hbookable
  have hstored := (hprices hall hmem args hbookable.slot).2
  rw [storeNumeric] at hstored
  split_ifs at hstored with hfits
  exact hfits

namespace Scenario

open Concurrent.Scenario (hallBody booking)

/-- The installation with another rate of its hall, and a booking of two hours. -/
def bookedAt (rate : Decimal) (hrate : rate.isPositive) : List Move :=
  [.serve (.createBooking booking), .serve (.bulkCreateSeats 1 1 2),
    .serve (.createHall { hallBody with hourlyRate := rate, hourlyRate_pos := hrate }),
    .serve (.signup id "ann@example.com" "secret")]

/-- A rate of 10, one of 0.001, and one of 99999999.99. -/
def fairRate : List Move := bookedAt ⟨10, 0⟩ rfl
def tinyRate : List Move := bookedAt ⟨1, 3⟩ rfl
def hugeRate : List Move := bookedAt ⟨9999999999, 2⟩ rfl

end Scenario

open Scenario Concurrent.Scenario

theorem moneyInRange_fairRate : MoneyInRange BookingApi.settings fairRate := by
  refine moneyInRange_of_ratesInRange (by decide) (fun op earlier hsuffix rate hstores => ?_)
    List.suffix_rfl
  simp only [fairRate, bookedAt, List.suffix_cons_iff, List.suffix_nil, List.cons.injEq,
    Move.serve.injEq, reduceCtorEq, or_false] at hsuffix
  rcases hsuffix with ⟨rfl, -⟩ | ⟨rfl, -⟩ | ⟨rfl, -⟩ | ⟨rfl, -⟩
  · cases hstores
  · cases hstores
  · obtain ⟨rfl, -⟩ := hstores
    decide
  · cases hstores

/-- The tiny rate is stored as zero, and the booking is free; the huge one has no price for two
hours. -/
theorem not_moneyInRange : ¬ MoneyInRange BookingApi.settings tinyRate ∧
    ¬ MoneyInRange BookingApi.settings hugeRate := by
  constructor
  · intro h
    have hfree : ∃ b ∈ (run BookingApi.settings tinyRate).db.bookings.rows, b.totalPrice = 0 := by
      decide +kernel
    obtain ⟨b, hb, hprice⟩ := hfree
    exact absurd (h.booking b hb) (by omega)
  · intro h
    have hhall : ∃ hall ∈ (run BookingApi.settings hugeRate).db.halls.rows,
        storeNumeric (price booking hall) = .error .dbapiError := by
      decide +kernel
    obtain ⟨hall, hmem, hprice⟩ := hhall
    have hstored := (h.price hall hmem booking (by decide +kernel)).2
    rw [hprice] at hstored
    cases hstored

end BookingApi.Serial
