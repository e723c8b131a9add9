import BookingApi.DateTime.Basic
import BookingApi.Text.Basic

/-!
# The text of dates and datetimes

The fields of `date.isoformat` consist of digits, so the dashes separate them and the text
determines the date (`Date.isoformat_injective`).  In `datetime.isoformat` a single `T` comes before
the time, which begins with `HH:MM`.
-/

namespace BookingApi

/-! ### Fields -/

theorem toList_zeroPad (width n : ℕ) : (zeroPad width n).toList
    = List.replicate (width - (toString n).length) '0' ++ Nat.toDigits 10 n := by
  simp [zeroPad, toString, Nat.toList_repr]

theorem isDigit_of_mem_zeroPad {width n : ℕ} {c : Char} (h : c ∈ (zeroPad width n).toList) :
    c.isDigit := by
  rw [toList_zeroPad, List.mem_append] at h
  rcases h with h | h
  · rw [List.eq_of_mem_replicate h]
    rfl
  · exact isDigit_of_mem_toDigits h

/-- A field consists of digits. -/
theorem notMem_zeroPad {width n : ℕ} {c : Char} (hc : c.isDigit = false) :
    c ∉ (zeroPad width n).toList := by
  intro h
  rw [isDigit_of_mem_zeroPad h] at hc
  cases hc

theorem zeroPad_injective (width : ℕ) : Function.Injective (zeroPad width) := by
  have hread : ∀ n, Nat.ofDigitChars 10 (zeroPad width n).toList 0 = n := by
    intro n
    rw [toList_zeroPad, Nat.ofDigitChars_append, Nat.ofDigitChars_replicate_zero, Nat.mul_zero,
      Nat.ofDigitChars_ten_toDigits]
  intro n m h
  rw [← hread n, h, hread]

/-- A field of two digits. -/
theorem length_zeroPad_two {n : ℕ} (h : n < 100) : (zeroPad 2 n).toList.length = 2 := by
  have hlen : (toString n).length = (Nat.toDigits 10 n).length := by
    rw [← String.length_toList]
    simp [toString, Nat.toList_repr]
  rw [toList_zeroPad, List.length_append, List.length_replicate, hlen]
  have hle : (Nat.toDigits 10 n).length ≤ 2 :=
    (Nat.length_toDigits_le_iff (by decide) (by decide)).mpr h
  omega

/-! ### Dates -/

namespace Date

theorem notMem_isoformat {c : Char} (hc : c.isDigit = false) (hdash : c ≠ '-') (d : Date) :
    c ∉ d.isoformat.toList := by
  simp [isoformat, notMem_zeroPad hc, hdash]

/-- **Dates are determined by their text.** -/
theorem isoformat_injective : Function.Injective isoformat := by
  intro d d' h
  have hdash {width n : ℕ} : '-' ∉ (zeroPad width n).toList := notMem_zeroPad rfl
  have hassoc (d : Date) : d.isoformat = zeroPad 4 d.year ++ String.singleton '-'
      ++ (zeroPad 2 d.month ++ String.singleton '-' ++ zeroPad 2 d.day) := by
    simp only [isoformat, String.append_assoc]
    rfl
  rw [hassoc, hassoc] at h
  obtain ⟨hyear, h⟩ := eq_of_separated hdash hdash h
  obtain ⟨hmonth, hday⟩ := eq_of_separated hdash hdash h
  have h1 := zeroPad_injective 4 hyear
  have h2 := zeroPad_injective 2 hmonth
  have h3 := zeroPad_injective 2 hday
  cases d
  cases d'
  simp_all

end Date

/-! ### Datetimes -/

namespace DateTime

/-- What follows the `T`. -/
def timeText (t : DateTime) : String :=
  zeroPad 2 t.hour ++ colonPad t.minute ++ colonPad t.second ++ microText t.microsecond
    ++ (t.utcoffset.map offsetText).getD ""

/-- `HH:MM`. -/
def hourMinute (t : DateTime) : String := zeroPad 2 t.hour ++ colonPad t.minute

theorem isoformat_eq (t : DateTime) : t.isoformat = t.date.isoformat ++ "T" ++ t.timeText := by
  simp only [isoformat, timeText, String.append_assoc]

theorem notMem_colonPad {c : Char} (hc : c.isDigit = false) (hcolon : c ≠ ':') (n : ℕ) :
    c ∉ (colonPad n).toList := by
  simp [colonPad, notMem_zeroPad hc, hcolon]

theorem notMem_microText {c : Char} (hc : c.isDigit = false) (hpoint : c ≠ '.') (n : ℕ) :
    c ∉ (microText n).toList := by
  rw [microText]
  split_ifs <;> simp [notMem_zeroPad hc, hpoint]

/-- There is no other `T`. -/
theorem notMem_timeText (t : DateTime) : 'T' ∉ t.timeText.toList := by
  have hmicro (n : ℕ) : 'T' ∉ (microText n).toList := notMem_microText rfl (by decide) n
  have hcolon (n : ℕ) : 'T' ∉ (colonPad n).toList := notMem_colonPad rfl (by decide) n
  have hpad (n : ℕ) : 'T' ∉ (zeroPad 2 n).toList := notMem_zeroPad rfl
  have hoffset : 'T' ∉ ((t.utcoffset.map offsetText).getD "").toList := by
    cases t.utcoffset with
    | none => simp
    | some o =>
      simp only [Option.map_some, Option.getD_some, offsetText]
      split_ifs <;> simp [hpad, hcolon, hmicro]
  simp [timeText, hpad, hcolon, hmicro, hoffset]

theorem take_timeText (t : DateTime) : t.timeText.toList.take 5 = t.hourMinute.toList := by
  have hhour : (zeroPad 2 t.hour).toList.length = 2 := length_zeroPad_two (by omega)
  have hminute : (zeroPad 2 t.minute).toList.length = 2 := length_zeroPad_two (by omega)
  have hlen : t.hourMinute.toList.length = 5 := by
    simp only [hourMinute, colonPad, String.toList_append, List.length_append, hhour, hminute]
    rfl
  rw [timeText]
  simp only [String.toList_append, List.append_assoc]
  rw [← List.append_assoc, ← String.toList_append]
  exact List.take_left' hlen

end DateTime

end BookingApi
