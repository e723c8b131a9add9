import Mathlib.Data.List.Basic

/-!
# Pages of a list

A list cut into pages of one size, as `OFFSET` and `LIMIT` do, and the number of its pages as a
ceiling division.  `flatMap_page`: the pages together are the list.  `page_eq_nil_iff` and
`length_page_of_succ_lt`: exactly the pages below the number of pages have rows, and all of them but
the last one are full.
-/

namespace BookingApi.Paging

variable {α β : Type*} {size k n : ℕ} {rows : List α}

/-- The page with number `k`, counted from 0. -/
def page (size k : ℕ) (rows : List α) : List α := (rows.drop (k * size)).take size

/-- The number of pages of `total` rows. -/
def count (total size : ℕ) : ℕ := (total + size - 1) / size

theorem lt_count_iff (hsize : 0 < size) : k < count n size ↔ k * size < n := by
  rw [count, Nat.lt_div_iff_mul_lt hsize, Nat.mul_comm]
  omega

theorem count_le_iff (hsize : 0 < size) : count n size ≤ k ↔ n ≤ k * size := by
  rw [← Nat.not_lt, lt_count_iff hsize, Nat.not_lt]

theorem map_page (f : α → β) : (page size k rows).map f = page size k (rows.map f) := by
  rw [page, page, List.map_take, List.map_drop]

theorem page_sublist (size k : ℕ) (rows : List α) : (page size k rows).Sublist rows :=
  (List.take_sublist _ _).trans (List.drop_sublist _ _)

/-! ### The pages together -/

/-- The first pages together are the rows up to the end of the last of them. -/
theorem flatMap_page_range (size : ℕ) (rows : List α) (n : ℕ) :
    (List.range n).flatMap (fun k => page size k rows) = rows.take (n * size) := by
  induction n with
  | zero => rw [Nat.zero_mul, List.take_zero, List.range_zero, List.flatMap_nil]
  | succ n ih =>
    rw [List.range_succ, List.flatMap_append, ih, List.flatMap_singleton, page, Nat.succ_mul,
      List.take_add]

/-- **The pages together** are the list. -/
theorem flatMap_page (hsize : 0 < size) (rows : List α) :
    (List.range (count rows.length size)).flatMap (fun k => page size k rows) = rows := by
  rw [flatMap_page_range]
  exact List.take_of_length_le ((count_le_iff hsize).mp (Nat.le_refl _))

/-! ### One page -/

theorem length_page : (page size k rows).length = min size (rows.length - k * size) := by
  rw [page, List.length_take, List.length_drop]

/-- The pages without rows are the ones after the last page. -/
theorem page_eq_nil_iff (hsize : 0 < size) :
    page size k rows = [] ↔ count rows.length size ≤ k := by
  rw [← List.length_eq_zero_iff, length_page, count_le_iff hsize]
  omega

/-- Before the last page, the pages are full. -/
theorem length_page_of_succ_lt (hsize : 0 < size) (h : k + 1 < count rows.length size) :
    (page size k rows).length = size := by
  rw [lt_count_iff hsize, Nat.succ_mul] at h
  rw [length_page]
  omega

theorem getElem?_page (i : ℕ) :
    (page size k rows)[i]? = if i < size then rows[k * size + i]? else none := by
  rw [page, List.getElem?_take, List.getElem?_drop]

/-- The rows of a page are those at its positions. -/
theorem mem_page_iff {a : α} (hsize : 0 < size) :
    a ∈ page size k rows ↔ ∃ i, rows[i]? = some a ∧ i / size = k := by
  rw [List.mem_iff_getElem?]
  constructor
  · rintro ⟨i, hi⟩
    rw [getElem?_page] at hi
    split_ifs at hi with hlt
    refine ⟨k * size + i, hi, ?_⟩
    rw [Nat.div_eq_iff hsize]
    omega
  · rintro ⟨i, hi, hk⟩
    rw [Nat.div_eq_iff hsize] at hk
    refine ⟨i - k * size, ?_⟩
    rw [getElem?_page, if_pos (by omega), Nat.add_sub_cancel' hk.1]
    exact hi

/-- If one can tell the page of a row, a page is a filter. -/
theorem page_eq_filter {pageOf : α → ℕ} (hsize : 0 < size)
    (h : ∀ i a, rows[i]? = some a → pageOf a = i / size) (k : ℕ) :
    page size k rows = rows.filter fun a => pageOf a = k := by
  have hsplit :
      rows = rows.take (k * size) ++ (page size k rows ++ rows.drop ((k + 1) * size)) := by
    rw [page, Nat.succ_mul, ← List.drop_drop, List.take_append_drop, List.take_append_drop]
  have hbefore : (rows.take (k * size)).filter (fun a => pageOf a = k) = [] := by
    refine List.filter_eq_nil_iff.mpr fun a ha => ?_
    obtain ⟨i, hi⟩ := List.mem_iff_getElem?.mp ha
    rw [List.getElem?_take] at hi
    split_ifs at hi with hlt
    rw [h i a hi, decide_eq_true_eq, Nat.div_eq_iff hsize]
    omega
  have hpage : (page size k rows).filter (fun a => pageOf a = k) = page size k rows := by
    refine List.filter_eq_self.mpr fun a ha => ?_
    obtain ⟨i, hi, hk⟩ := (mem_page_iff hsize).mp ha
    rw [h i a hi, hk, decide_eq_true_eq]
  have hafter : (rows.drop ((k + 1) * size)).filter (fun a => pageOf a = k) = [] := by
    refine List.filter_eq_nil_iff.mpr fun a ha => ?_
    obtain ⟨i, hi⟩ := List.mem_iff_getElem?.mp ha
    rw [List.getElem?_drop] at hi
    rw [h _ a hi, decide_eq_true_eq, Nat.div_eq_iff hsize, Nat.succ_mul]
    omega
  conv_rhs => rw [hsplit, List.filter_append, List.filter_append, hbefore, hpage, hafter]
  rw [List.nil_append, List.append_nil]

end BookingApi.Paging
