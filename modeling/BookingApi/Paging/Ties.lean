import BookingApi.Paging.Basic
import Mathlib.Data.List.Nodup
import Mathlib.Data.List.Perm.Basic
import Mathlib.Order.Lattice
import Mathlib.Order.Nat

/-!
# Pages of rows with equal keys

Rows in descending order of a key, as `ORDER BY key DESC` gives them: rows with equal keys stand in
any order, which may be another one for every page that is asked for.  The positions of the rows
with one key are known (`before_le` and `lt_before_add_tied`).  So a page has the same rows in every
order if rows with one key never stand on two pages (`TiesOnOnePage`, `flatMap_page_perm`), and if
they do, there are orders in which a row stands on two pages (`exists_repeated`).
-/

namespace BookingApi.Paging

variable {α κ : Type*} [LinearOrder κ] {key : α → κ} {size k n i : ℕ} {l rows : List α} {a : α}
  {t : κ}

/-- The rows are in descending order of their keys. -/
def Descending (key : α → κ) (rows : List α) : Prop := rows.Pairwise fun a b => key b ≤ key a

/-- How many rows stand before the ones with a key. -/
def before (key : α → κ) (rows : List α) (t : κ) : ℕ := rows.countP fun a => t < key a

/-- How many rows have a key. -/
def tied (key : α → κ) (rows : List α) (t : κ) : ℕ := rows.countP fun a => key a = t

/-- The first one of the rows with a key stands on the page of the last one. -/
def OnOnePage (key : α → κ) (size : ℕ) (rows : List α) (t : κ) : Prop :=
  before key rows t / size = (before key rows t + tied key rows t - 1) / size

/-- Rows with one key never stand on two pages. -/
def TiesOnOnePage (key : α → κ) (size : ℕ) (rows : List α) : Prop :=
  ∀ a ∈ rows, OnOnePage key size rows (key a)

instance (key : α → κ) (size : ℕ) (rows : List α) (t : κ) : Decidable (OnOnePage key size rows t) :=
  inferInstanceAs (Decidable (_ = _))

instance (key : α → κ) (size : ℕ) (rows : List α) : Decidable (TiesOnOnePage key size rows) :=
  inferInstanceAs (Decidable (∀ a ∈ rows, OnOnePage key size rows (key a)))

/-! ### Positions -/

theorem before_add_tied (key : α → κ) (rows : List α) (t : κ) :
    before key rows t + tied key rows t = rows.countP fun a => t ≤ key a := by
  induction rows with
  | nil => rfl
  | cons a rows ih =>
    rw [before, tied] at ih ⊢
    rw [List.countP_cons, List.countP_cons, List.countP_cons, ← ih]
    rcases lt_trichotomy t (key a) with h | h | h
    · simp only [h, h.ne', h.le, decide_true, decide_false, if_true, Bool.false_eq_true, if_false]
      omega
    · simp only [h, lt_irrefl, le_refl, decide_true, decide_false, if_true, Bool.false_eq_true,
        if_false]
      omega
    · simp only [h.not_gt, h.ne, h.not_ge, decide_false, Bool.false_eq_true, if_false]
      omega

theorem tied_pos (ha : a ∈ rows) : 0 < tied key rows (key a) :=
  List.countP_pos_iff.mpr ⟨a, ha, decide_eq_true rfl⟩

theorem before_congr (h : l.Perm rows) (t : κ) : before key l t = before key rows t :=
  h.countP_eq _

theorem tied_congr (h : l.Perm rows) (t : κ) : tied key l t = tied key rows t :=
  h.countP_eq _

theorem tiesOnOnePage_congr (h : l.Perm rows) :
    TiesOnOnePage key size l ↔ TiesOnOnePage key size rows := by
  refine forall_congr' fun a => imp_congr h.mem_iff ?_
  rw [OnOnePage, OnOnePage, before_congr h, tied_congr h]

/-- More rows stand before those with a smaller key. -/
theorem before_add_tied_le (key : α → κ) (rows : List α) {t t' : κ} (h : t < t') :
    before key rows t' + tied key rows t' ≤ before key rows t := by
  rw [before_add_tied]
  refine List.countP_mono_left fun a _ ha => ?_
  exact decide_eq_true (h.trans_le (of_decide_eq_true ha))

theorem exists_split (h : l[i]? = some a) : ∃ l₁ l₂, l = l₁ ++ a :: l₂ ∧ l₁.length = i := by
  obtain ⟨hlt, rfl⟩ := List.getElem?_eq_some_iff.mp h
  refine ⟨l.take i, l.drop (i + 1), ?_, List.length_take_of_le hlt.le⟩
  rw [List.getElem_cons_drop, List.take_append_drop]

/-- **The positions of a row** in any descending order. -/
theorem before_le (hl : Descending key l) (h : l[i]? = some a) : before key l (key a) ≤ i := by
  obtain ⟨l₁, l₂, rfl, rfl⟩ := exists_split h
  obtain ⟨-, hright, -⟩ := List.pairwise_append.mp hl
  have hafter : (a :: l₂).countP (fun b => key a < key b) = 0 := by
    refine List.countP_eq_zero.mpr fun b hb hlt => ?_
    rcases List.mem_cons.mp hb with rfl | hb
    · exact lt_irrefl _ (of_decide_eq_true hlt)
    · exact ((List.pairwise_cons.mp hright).1 b hb).not_gt (of_decide_eq_true hlt)
  rw [before, List.countP_append, hafter]
  exact List.countP_le_length

theorem lt_before_add_tied (hl : Descending key l) (h : l[i]? = some a) :
    i < before key l (key a) + tied key l (key a) := by
  obtain ⟨l₁, l₂, rfl, rfl⟩ := exists_split h
  obtain ⟨-, -, hcross⟩ := List.pairwise_append.mp hl
  have hfirst : l₁.countP (fun b => key a ≤ key b) = l₁.length :=
    List.countP_eq_length.mpr fun b hb => decide_eq_true (hcross b hb a (List.mem_cons_self ..))
  have hself : 0 < (a :: l₂).countP fun b => key a ≤ key b :=
    List.countP_pos_iff.mpr ⟨a, List.mem_cons_self .., decide_eq_true le_rfl⟩
  rw [before_add_tied, List.countP_append, hfirst]
  omega

/-- At the positions of a key stand the rows with the key. -/
theorem key_eq_of_position (hl : Descending key l) (h : l[i]? = some a) (t : κ)
    (hbefore : before key l t ≤ i) (htied : i < before key l t + tied key l t) : key a = t := by
  have h1 := before_le hl h
  have h2 := lt_before_add_tied hl h
  rcases lt_trichotomy (key a) t with hlt | heq | hlt
  · have h3 := before_add_tied_le key l hlt
    omega
  · exact heq
  · have h3 := before_add_tied_le key l hlt
    omega

/-! ### Ties on one page -/

/-- The page of a row does not depend on the order. -/
theorem before_div_eq (hperm : l.Perm rows) (hl : Descending key l)
    (hties : TiesOnOnePage key size rows) (h : l[i]? = some a) :
    before key rows (key a) / size = i / size := by
  have h1 := before_le hl h
  have h2 := lt_before_add_tied hl h
  rw [before_congr hperm] at h1
  rw [before_congr hperm, tied_congr hperm] at h2
  have hpage := hties a (hperm.subset (List.mem_of_getElem? h))
  rw [OnOnePage] at hpage
  refine Nat.le_antisymm (Nat.div_le_div_right h1) ?_
  rw [hpage]
  exact Nat.div_le_div_right (Nat.le_sub_one_of_lt h2)

theorem page_eq_filter_before (hsize : 0 < size) (hperm : l.Perm rows) (hl : Descending key l)
    (hties : TiesOnOnePage key size rows) (k : ℕ) :
    page size k l = l.filter fun a => before key rows (key a) / size = k :=
  page_eq_filter hsize (fun _ _ h => before_div_eq hperm hl hties h) k

/-- The parts of a list by the values of a function. -/
theorem flatMap_filter_perm (f : α → ℕ) (rows : List α) (n : ℕ) :
    ((List.range n).flatMap fun k => rows.filter fun a => f a = k).Perm
      (rows.filter fun a => f a < n) := by
  induction n with
  | zero => simp
  | succ n ih =>
    have hbelow : (rows.filter fun a => f a < n + 1).filter (fun a => f a < n)
        = rows.filter fun a => f a < n := by
      rw [List.filter_filter]
      refine List.filter_congr fun a _ => ?_
      rw [← Bool.decide_and]
      exact decide_eq_decide.mpr (by omega)
    have hlast : (rows.filter fun a => f a < n + 1).filter (fun a => !decide (f a < n))
        = rows.filter fun a => f a = n := by
      rw [List.filter_filter]
      refine List.filter_congr fun a _ => ?_
      rw [← decide_not, ← Bool.decide_and]
      exact decide_eq_decide.mpr (by omega)
    rw [List.range_succ, List.flatMap_append, List.flatMap_singleton, ← hlast]
    refine List.Perm.trans (List.Perm.append_right _ (ih.trans ?_)) (List.filter_append_perm _ _)
    rw [hbelow]

variable {lists : ℕ → List α}

/-- **Nothing is lost or repeated** if ties stand on one page, in whatever order each page is cut
out. -/
theorem flatMap_page_perm (hsize : 0 < size) (hperm : ∀ k, (lists k).Perm rows)
    (hdesc : ∀ k, Descending key (lists k)) (hties : TiesOnOnePage key size rows) :
    ((List.range (count rows.length size)).flatMap fun k => page size k (lists k)).Perm rows := by
  have hlast : (rows.filter fun a => before key rows (key a) / size < count rows.length size)
      = rows := by
    refine List.filter_eq_self.mpr fun a ha => decide_eq_true ?_
    obtain ⟨i, hi⟩ := List.mem_iff_getElem?.mp ((hperm 0).symm.subset ha)
    rw [lt_count_iff hsize, before_div_eq (hperm 0) (hdesc 0) hties hi]
    have hlt : i < rows.length := (hperm 0).length_eq ▸ (List.getElem?_eq_some_iff.mp hi).1
    exact (Nat.div_mul_le_self i size).trans_lt hlt
  have hpages (k : ℕ) :
      (page size k (lists k)).Perm (rows.filter fun a => before key rows (key a) / size = k) := by
    rw [page_eq_filter_before hsize (hperm k) (hdesc k) hties]
    exact (hperm k).filter _
  refine (List.Perm.flatMap_left _ fun k _ => hpages k).trans ?_
  have hparts := flatMap_filter_perm (fun a => before key rows (key a) / size) rows
    (count rows.length size)
  rwa [hlast] at hparts

/-- The rows of all pages are in descending order. -/
theorem flatMap_page_descending (hsize : 0 < size) (hperm : ∀ k, (lists k).Perm rows)
    (hdesc : ∀ k, Descending key (lists k)) (hties : TiesOnOnePage key size rows) (n : ℕ) :
    Descending key ((List.range n).flatMap fun k => page size k (lists k)) := by
  refine List.pairwise_flatMap.mpr ⟨fun k _ => (hdesc k).sublist (page_sublist ..), ?_⟩
  refine List.pairwise_lt_range.imp fun {k k'} hlt a ha b hb => ?_
  rw [page_eq_filter_before hsize (hperm _) (hdesc _) hties, List.mem_filter, decide_eq_true_eq]
    at ha hb
  -- a row on an earlier page has fewer rows before it
  by_contra hkey
  have hle := before_add_tied_le key rows (lt_of_not_ge hkey)
  have hdiv : before key rows (key b) / size ≤ before key rows (key a) / size :=
    Nat.div_le_div_right (by omega)
  omega

/-! ### Ties on two pages -/

theorem Descending.swap {l₁ l₂ : List α} {b : α} (h : Descending key (l₁ ++ a :: b :: l₂))
    (hkey : key a = key b) : Descending key (l₁ ++ b :: a :: l₂) := by
  rw [Descending, List.pairwise_append, List.pairwise_cons, List.pairwise_cons] at h ⊢
  obtain ⟨hfirst, ⟨ha, hb, hrest⟩, hcross⟩ := h
  refine ⟨hfirst, ⟨fun c hc => ?_, fun c hc => ha c (List.mem_cons_of_mem _ hc), hrest⟩,
    fun c hc d hd => hcross c hc d ?_⟩
  · rcases List.mem_cons.mp hc with rfl | hc
    · exact hkey.le
    · exact hb c hc
  · simp only [List.mem_cons] at hd ⊢
    tauto

theorem exists_not_onOnePage (h : ¬ TiesOnOnePage key size rows) :
    ∃ a ∈ rows, ¬ OnOnePage key size rows (key a) := by
  by_contra hnone
  exact h fun a ha => by_contra fun hpages => hnone ⟨a, ha, hpages⟩

/-- Rows with one key on two pages stand on both sides of the end of a page. -/
theorem exists_boundary (hsize : 0 < size) (htied : 0 < tied key rows t)
    (h : ¬ OnOnePage key size rows t) : ∃ k, before key rows t < (k + 1) * size ∧
      (k + 1) * size < before key rows t + tied key rows t := by
  have hle : before key rows t / size ≤ (before key rows t + tied key rows t - 1) / size :=
    Nat.div_le_div_right (by omega)
  refine ⟨before key rows t / size, ?_, ?_⟩
  · rw [Nat.mul_comm]
    exact Nat.lt_mul_div_succ _ hsize
  · have hlt := Nat.lt_of_le_of_ne hle h
    have hmul := (Nat.le_div_iff_mul_le hsize).mp hlt
    rw [Nat.succ_eq_add_one] at hmul
    omega

/-- The last row of a page and the first one of the next page have one key. -/
theorem exists_neighbours (hsize : 0 < size) (hl : Descending key l)
    (hties : ¬ TiesOnOnePage key size l) :
    ∃ k l₁ a b l₂, l = l₁ ++ a :: b :: l₂ ∧ key a = key b ∧ l₁.length + 1 = (k + 1) * size := by
  obtain ⟨c, hc, hpages⟩ := exists_not_onOnePage hties
  obtain ⟨k, hfirst, hlast⟩ := exists_boundary hsize (tied_pos hc) hpages
  have hlt : (k + 1) * size < l.length := by
    refine hlast.trans_le ?_
    rw [before_add_tied]
    exact List.countP_le_length
  have hpos : 0 < (k + 1) * size := Nat.mul_pos k.succ_pos hsize
  have hprev : (k + 1) * size - 1 < l.length := by omega
  obtain ⟨l₁, l₃, hsplit, hlen⟩ := exists_split (List.getElem?_eq_getElem hprev)
  generalize l[(k + 1) * size - 1] = a at hsplit
  subst hsplit
  rw [List.length_append, List.length_cons] at hlt
  have hrest : 0 < l₃.length := by omega
  obtain ⟨b, l₂, rfl⟩ := List.exists_cons_of_length_pos hrest
  have ha : (l₁ ++ a :: b :: l₂)[l₁.length]? = some a := by simp
  have hb : (l₁ ++ a :: b :: l₂)[l₁.length + 1]? = some b := by simp
  have hkeya : key a = key c := key_eq_of_position hl ha (key c) (by omega) (by omega)
  have hkeyb : key b = key c := key_eq_of_position hl hb (key c) (by omega) (by omega)
  exact ⟨k, l₁, a, b, l₂, rfl, hkeya.trans hkeyb.symm, by omega⟩

/-- **A row is repeated** in some orders, if a tie stands on two pages. -/
theorem exists_repeated (hsize : 0 < size) (hl : Descending key l)
    (hties : ¬ TiesOnOnePage key size l) :
    ∃ l' k a, l'.Perm l ∧ Descending key l' ∧ k + 1 < count l.length size ∧
      a ∈ page size k l ∧ a ∈ page size (k + 1) l' := by
  obtain ⟨k, l₁, a, b, l₂, rfl, hkey, hend⟩ := exists_neighbours hsize hl hties
  have hmul : (k + 1) * size = k * size + size := Nat.succ_mul k size
  -- the two rows change places
  refine ⟨l₁ ++ b :: a :: l₂, k, a, (List.Perm.swap a b l₂).append_left l₁, hl.swap hkey, ?_,
    ?_, ?_⟩
  · rw [lt_count_iff hsize, List.length_append, List.length_cons, List.length_cons]
    omega
  · refine (mem_page_iff hsize).mpr ⟨l₁.length, by simp, ?_⟩
    rw [Nat.div_eq_iff hsize]
    omega
  · refine (mem_page_iff hsize).mpr ⟨l₁.length + 1, by simp, ?_⟩
    rw [Nat.div_eq_iff hsize]
    omega

theorem disjoint_pages {f : ℕ → List α} (h : ((List.range n).flatMap f).Nodup) (hk : k + 1 < n) :
    List.Disjoint (f k) (f (k + 1)) := by
  obtain ⟨-, hdisjoint⟩ := List.nodup_flatMap.mp h
  have hpair := List.pairwise_iff_getElem.mp hdisjoint k (k + 1)
    (by rw [List.length_range]; omega) (by rwa [List.length_range]) (Nat.lt_succ_self k)
  rwa [List.getElem_range, List.getElem_range] at hpair

/-- If the pages repeat nothing in whatever order each one is cut out, ties stand on one page. -/
theorem tiesOnOnePage_of_nodup (hsize : 0 < size) (hl : Descending key l)
    (h : ∀ lists : ℕ → List α, (∀ k, (lists k).Perm l) → (∀ k, Descending key (lists k)) →
      ((List.range (count l.length size)).flatMap fun k => page size k (lists k)).Nodup) :
    TiesOnOnePage key size l := by
  by_contra hties
  obtain ⟨l', k, a, hperm, hl', hlt, ha, ha'⟩ := exists_repeated hsize hl hties
  have hnodup := h (fun j => if j = k then l else l') (fun j => ?_) fun j => ?_
  · have hdisjoint := disjoint_pages hnodup hlt
    rw [if_pos rfl, if_neg (Nat.succ_ne_self k)] at hdisjoint
    exact hdisjoint ha ha'
  · split_ifs
    · exact List.Perm.refl _
    · exact hperm
  · split_ifs
    · exact hl
    · exact hl'

end BookingApi.Paging
