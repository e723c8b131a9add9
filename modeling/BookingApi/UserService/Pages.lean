import BookingApi.Schemas.Pages
import BookingApi.UserService.Basic
import BookingApi.World.Handler
import Mathlib.Data.List.Sort

/-!
# All users, page by page

The rows behind `GET /users` are ordered by their primary key, so that every query cuts its page out
of the same list.  `usersPartition`: the pages are a partition of the users, whatever the page size
is.
-/

namespace BookingApi.UserService

open Async

variable {page pageSize : ℤ} {r : RequestId} {w : World}

/-- The route `GET /users` for any two numbers. -/
def listUsersPage (page pageSize : ℤ) : App (PaginatedResponse UserResponse) := do
  let (users, total) ← listUsers page pageSize
  return .create (users.map .ofUser) total page pageSize

theorem listUsersRoute_eq (pagination : PaginationParams) :
    listUsersRoute pagination = listUsersPage pagination.page pagination.pageSize := rfl

/-- The pages are full up to the last one and contain every user once, in ascending order. -/
structure UsersPartition (users : Table User) (pageSize pages : ℤ)
    (items : ℤ → List UserResponse) : Prop where
  perm : (allItems pages items).Perm (users.rows.map .ofUser)
  ascending : (allItems pages items).Pairwise fun u u' => u.id < u'.id
  nonempty : ∀ page, 1 ≤ page → page ≤ pages → items page ≠ []
  full : ∀ page, 1 ≤ page → page < pages → (items page).length = pageSize
  beyond : ∀ page, 1 ≤ page → pages < page → items page = []

/-! ### The rows -/

/-- The rows of `select(User).order_by(User.id)`. -/
def selectUsers (users : Table User) : List User :=
  users.rows.mergeSort fun u u' => u.id ≤ u'.id

theorem perm_selectUsers (users : Table User) : (selectUsers users).Perm users.rows :=
  List.mergeSort_perm _ _

theorem length_selectUsers (users : Table User) : (selectUsers users).length = users.rows.length :=
  (perm_selectUsers users).length_eq

/-- No two users have the same id. -/
theorem pairwise_selectUsers (users : Table User) :
    (selectUsers users).Pairwise fun u u' => u.id < u'.id := by
  have hle : (selectUsers users).Pairwise fun u u' => u.id ≤ u'.id :=
    List.pairwise_mergeSort' (Order.Preimage User.id (· ≤ ·)) users.rows
  have hne : (selectUsers users).Pairwise fun u u' => u.id ≠ u'.id :=
    List.pairwise_map.mp (((perm_selectUsers users).map User.id).nodup_iff.mpr users.nodup)
  exact (hle.and hne).imp fun h => lt_of_le_of_ne h.1 h.2

/-! ### One page -/

/-- The users on a page. -/
def userItems (users : Table User) (pageSize page : ℤ) : List UserResponse :=
  Paging.page pageSize.toNat (page - 1).toNat ((selectUsers users).map .ofUser)

theorem run_listUsersPage (hpage : 1 ≤ page) (hsize : 1 ≤ pageSize) (r : RequestId) (w : World) :
    (listUsersPage page pageSize).run (World.exec r) w
      = (.ok (.create (userItems (w.view r).users pageSize page) (w.view r).users.rows.length page
          pageSize), w) := by
  have hrows := limitOffset_page hpage hsize (selectUsers (w.view r).users)
  rw [selectUsers] at hrows
  simp only [listUsersPage, listUsers, Program.bind_eq, Program.pure_eq, Program.run_bind,
    run_execute, hrows, Program.ofExcept, Program.run_ret, Paging.map_page]
  rfl

theorem answered_listUsers {users : Table User} (hsize : 1 ≤ pageSize) {w : ℤ → World}
    {r : ℤ → RequestId} (hidle : ∀ page, (w page).writesOf (r page) = [])
    (husers : ∀ page, (w page).db.users = users) :
    Answered (fun page => (serve (r page) (listUsersPage page pageSize) (w page)).1)
      (Paging.count users.rows.length pageSize.toNat) (userItems users pageSize) := by
  intro page hpage
  refine ⟨.create (userItems users pageSize page) users.rows.length page pageSize, ?_,
    pages_create _ _ _ hsize, rfl⟩
  show (serve (r page) (listUsersPage page pageSize) (w page)).1 = _
  rw [serve_fst, run_listUsersPage hpage hsize, World.view_of_writesOf_nil (hidle page),
    husers page]

/-! ### All pages -/

theorem allItems_userItems (users : Table User) (hsize : 1 ≤ pageSize) :
    allItems (Paging.count users.rows.length pageSize.toNat) (userItems users pageSize)
      = (selectUsers users).map .ofUser := by
  have hitems (k : ℕ) : userItems users pageSize (k + 1)
      = Paging.page pageSize.toNat k ((selectUsers users).map .ofUser) := by
    rw [userItems, Int.add_sub_cancel, Int.toNat_natCast]
  rw [allItems_eq_flatMap hitems, ← length_selectUsers users,
    ← List.length_map (f := UserResponse.ofUser)]
  exact Paging.flatMap_page (by omega) _

theorem partition_userItems (users : Table User) (hsize : 1 ≤ pageSize) :
    UsersPartition users pageSize (Paging.count users.rows.length pageSize.toNat)
      (userItems users pageSize) where
  perm := by
    rw [allItems_userItems users hsize]
    exact (perm_selectUsers users).map _
  ascending := by
    rw [allItems_userItems users hsize]
    exact List.pairwise_map.mpr (pairwise_selectUsers users)
  nonempty page hpage hlast := by
    rw [userItems, Ne, Paging.page_eq_nil_iff (by omega), List.length_map, length_selectUsers]
    omega
  full page hpage hlast := by
    rw [userItems, Paging.length_page_of_succ_lt (by omega), Int.toNat_of_nonneg (by omega)]
    rw [List.length_map, length_selectUsers]
    omega
  beyond page hpage hlast := by
    rw [userItems, Paging.page_eq_nil_iff (by omega), List.length_map, length_selectUsers]
    omega

/-- **The user listing is a partition** of an unchanging table of users into pages. -/
theorem usersPartition {users : Table User} {pageSize : ℤ} (hsize : 1 ≤ pageSize)
    {w : ℤ → World} {r : ℤ → RequestId} (hidle : ∀ page, (w page).writesOf (r page) = [])
    (husers : ∀ page, (w page).db.users = users) :
    ∃ pages items,
      Answered (fun page => (serve (r page) (listUsersPage page pageSize) (w page)).1) pages items ∧
        UsersPartition users pageSize pages items :=
  ⟨_, _, answered_listUsers hsize hidle husers, partition_userItems users hsize⟩

namespace Scenario

def user (id : ℤ) (email : String) : User := ⟨id, email, "secret", .user, true, 0⟩

/-- Three users whose rows do not stand in the order of their ids. -/
def threeUsers : World :=
  (World.initial.stage 0 [.insertUser (user 2 "ben@example.com"),
    .insertUser (user 3 "cleo@example.com"), .insertUser (user 1 "ann@example.com")]).commit 0

end Scenario

open Scenario in
/-- A full page and one with a single user. -/
theorem usersPartition_threeUsers :
    ∃ pages items,
      Answered (fun page => (serve 1 (listUsersPage page 2) threeUsers).1) pages items ∧
        UsersPartition threeUsers.db.users 2 pages items :=
  usersPartition (by decide) (fun _ => by decide) fun _ => rfl

end BookingApi.UserService
