import SoftwareHub.Semantics.Paging

/-! Validated pagination values and page results. -/
namespace SoftwareHub.Public

open SoftwareHub.Semantics

/-- A one-based page request; the constructor refuses any other values. -/
structure Pagination where
  page : Nat
  perPage : Nat
  maxPerPage : Nat
  page_pos : 1 ≤ page
  perPage_pos : 1 ≤ perPage
  maxPerPage_pos : 1 ≤ maxPerPage
  perPage_le : perPage ≤ maxPerPage

namespace Pagination

/-- The number of rows before the page. -/
def offset (pagination : Pagination) : Nat := (pagination.page - 1) * pagination.perPage

/-- `Pagination(page=1, per_page=perPage)` under the default ceiling of 100. -/
def first (perPage : Nat) (h : 1 ≤ perPage ∧ perPage ≤ 100) : Pagination where
  page := 1
  perPage := perPage
  maxPerPage := 100
  page_pos := Nat.le_refl 1
  perPage_pos := h.1
  maxPerPage_pos := by decide
  perPage_le := h.2

/-- The request for another page of the same size. -/
def turnTo (pagination : Pagination) (number : Nat) : Pagination :=
  { pagination with page := number + 1, page_pos := Nat.le_add_left 1 number }

end Pagination

/-- A page of a result, with the total number of its rows. -/
structure Page (α : Type) where
  items : List α
  total : Nat
  page : Nat
  perPage : Nat
  deriving DecidableEq

namespace Page

variable {α : Type}

/-- `ceil(total / per_page)`. The quotient of the code is a double, which is
off for no number of rows below 2^53. -/
def pages (page : Page α) : Nat := if page.total = 0 then 0 else pageCount page.total page.perPage

def hasNext (page : Page α) : Bool := page.page < page.pages

/-- The number of pages is the quotient rounded up, also when there are no rows. -/
theorem pages_eq (page : Page α) (h : 1 ≤ page.perPage) : page.pages = pageCount page.total page.perPage := by
  unfold pages
  split_ifs with hZero
  · rw [hZero, pageCount, Nat.zero_add, Nat.div_eq_of_lt (Nat.sub_lt h Nat.one_pos)]
  · rfl

end Page
end SoftwareHub.Public
