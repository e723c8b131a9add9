import BookingApi.Exceptions
import Mathlib.Algebra.Group.Int.Defs

/-!
# Pages

`app/schemas/common.py`, and the `OFFSET` and `LIMIT` of a query.
-/

namespace BookingApi

/-- Valid query parameters of a list. -/
structure PaginationParams where
  page : ℤ
  pageSize : ℤ
  page_ge : 1 ≤ page
  pageSize_ge : 1 ≤ pageSize
  pageSize_le : pageSize ≤ 100

structure PaginatedResponse (α : Type) where
  items : List α
  total : ℤ
  page : ℤ
  pageSize : ℤ
  pages : ℤ
deriving DecidableEq

namespace PaginatedResponse

variable {α : Type}

def create (items : List α) (total page pageSize : ℤ) : PaginatedResponse α where
  items
  total
  page
  pageSize
  pages := if pageSize > 0 then (total + pageSize - 1) / pageSize else 0

end PaginatedResponse

/-- `.offset(offset).limit(limit)`, where the server rejects a negative number. -/
def limitOffset {α : Type} (offset limit : ℤ) (rows : List α) : Except Exc (List α) :=
  if offset < 0 ∨ limit < 0 then .error .dbapiError
  else .ok ((rows.drop offset.toNat).take limit.toNat)

end BookingApi
