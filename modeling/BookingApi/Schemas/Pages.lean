import BookingApi.Paging.Basic
import BookingApi.Schemas.Common
import Mathlib.Algebra.Order.Ring.Int
import Mathlib.Data.Int.Range

/-!
# All pages of a list

A client who reads a list asks for its pages one by one: every page is an answer to a request of its
own, and every answer says how many pages there are.  `limitOffset_page` and `pages_create` connect
the offset, the limit and the ceiling division of the code to the pages of a list, which are counted
from 0 there.
-/

namespace BookingApi

variable {α : Type} {page pageSize pages pages' : ℤ} {items items' : ℤ → List α}
  {answers : ℤ → Except Exc (PaginatedResponse α)}

/-- Every request for a page is answered with its items and with the number of pages. -/
def Answered (answers : ℤ → Except Exc (PaginatedResponse α)) (pages : ℤ) (items : ℤ → List α) :
    Prop :=
  ∀ page, 1 ≤ page →
    ∃ response, answers page = .ok response ∧ response.pages = pages ∧ response.items = items page

/-- The items of the pages from 1 to `pages`. -/
def allItems (pages : ℤ) (items : ℤ → List α) : List α := (Int.range 1 (pages + 1)).flatMap items

/-! ### The answers -/

theorem Answered.pages_eq (h : Answered answers pages items) (h' : Answered answers pages' items') :
    pages = pages' := by
  obtain ⟨response, hanswer, hpages, -⟩ := h 1 le_rfl
  obtain ⟨response', hanswer', hpages', -⟩ := h' 1 le_rfl
  obtain rfl := Except.ok.inj (hanswer.symm.trans hanswer')
  exact hpages.symm.trans hpages'

theorem Answered.items_eq (h : Answered answers pages items) (h' : Answered answers pages' items')
    (hpage : 1 ≤ page) : items page = items' page := by
  obtain ⟨response, hanswer, -, hitems⟩ := h page hpage
  obtain ⟨response', hanswer', -, hitems'⟩ := h' page hpage
  obtain rfl := Except.ok.inj (hanswer.symm.trans hanswer')
  exact hitems.symm.trans hitems'

theorem Answered.allItems_eq (h : Answered answers pages items)
    (h' : Answered answers pages' items') : allItems pages items = allItems pages' items' := by
  rw [allItems, allItems, h.pages_eq h']
  refine List.flatMap_congr fun page hpage => h.items_eq h' ?_
  exact (Int.mem_range_iff.mp hpage).1

/-! ### Pages counted from 0 -/

/-- The offset and the limit of a page. -/
theorem limitOffset_page (hpage : 1 ≤ page) (hsize : 1 ≤ pageSize) (rows : List α) :
    limitOffset ((page - 1) * pageSize) pageSize rows
      = .ok (Paging.page pageSize.toNat (page - 1).toNat rows) := by
  have hoffset : 0 ≤ (page - 1) * pageSize := Int.mul_nonneg (by omega) (by omega)
  rw [limitOffset, if_neg (by omega), Paging.page, Int.toNat_mul (by omega) (by omega)]

/-- The number of pages. -/
theorem pages_create (items : List α) (total : ℕ) (page : ℤ) (hsize : 1 ≤ pageSize) :
    (PaginatedResponse.create items total page pageSize).pages
      = Paging.count total pageSize.toNat := by
  obtain ⟨size, rfl⟩ := Int.eq_ofNat_of_zero_le (show 0 ≤ pageSize by omega)
  have hpages : (total : ℤ) + size - 1 = ((total + size - 1 : ℕ) : ℤ) := by omega
  rw [PaginatedResponse.create, if_pos (by omega), Paging.count, hpages, Int.toNat_natCast,
    Int.natCast_div]

theorem allItems_eq_flatMap {f : ℕ → List α} (h : ∀ k : ℕ, items (k + 1) = f k) (n : ℕ) :
    allItems n items = (List.range n).flatMap f := by
  have hlength : ((n : ℤ) + 1 - 1).toNat = n := by omega
  rw [allItems, Int.range, hlength, List.flatMap_map]
  refine List.flatMap_congr fun k _ => ?_
  rw [Int.add_comm]
  exact h k

end BookingApi
