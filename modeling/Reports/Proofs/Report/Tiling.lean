import Mathlib.Algebra.Order.Floor.Div
import Reports.Report.Page

/-! The arithmetic of pages. Machine words hold every number on the way, and the pages of a result
cut its rows into intervals that follow one another, as long as 32 bits count them. -/
namespace Reports.PageInfo

/-- Rows on a full page; a page of no rows is taken as a page of one. -/
def size (perPage : UInt32) : Nat := max 1 perPage.toNat

def needed (total : UInt64) (perPage : UInt32) : Nat := total.toNat ⌈/⌉ size perPage

/-- No operation leaves its machine word: the divisor is not zero, the quotient can be rounded up,
there is a page before which rows are skipped, and their number can be written. -/
structure InRange (p : PageInfo) : Prop where
  divisor : 0 < p.perPage.toNat
  roundedUp : p.total.toNat % p.perPage.toNat ≠ 0 → p.total.toNat / p.perPage.toNat + 1 < 2 ^ 64
  predecessor : 1 ≤ p.page.toNat
  skipped : (p.page.toNat - 1) * p.perPage.toNat < 2 ^ 64

/-- What a page comes to in numbers without bounds. Only the number of pages is capped. -/
structure Exact (total : UInt64) (page perPage : UInt32) (p : PageInfo) : Prop where
  width : p.perPage.toNat = size perPage
  counted : p.total = total
  pages : p.totalPages.toNat = min (needed total perPage) maxUInt32
  place : p.page.toNat = min (max 1 page.toNat) (max 1 p.totalPages.toNat)
  offset : p.offset.toNat = (p.page.toNat - 1) * p.perPage.toNat
  hasNext : p.hasNext = true ↔ p.page.toNat < p.totalPages.toNat
  hasPrev : p.hasPrev = true ↔ 1 < p.page.toNat

def stop (p : PageInfo) : Nat := min (p.offset.toNat + p.perPage.toNat) p.total.toNat

def rows (p : PageInfo) : List Nat := List.range' p.offset.toNat (p.stop - p.offset.toNat)

def nth (total : UInt64) (perPage : UInt32) (k : Nat) : PageInfo := new total (.ofNat k) perPage

/-- The first so many pages show all rows, each on one page and in order. -/
structure Tiles (total : UInt64) (perPage : UInt32) (pages : Nat) : Prop where
  nonempty {k : Nat} : 1 ≤ k → k ≤ pages →
    (nth total perPage k).offset.toNat < (nth total perPage k).stop
  consecutive {k : Nat} : 1 ≤ k → k < pages →
    (nth total perPage k).stop = (nth total perPage (k + 1)).offset.toNat
  whole : ((List.range' 1 pages).flatMap fun k => (nth total perPage k).rows) =
    List.range total.toNat

variable {total : UInt64} {page perPage : UInt32}

theorem size_pos (perPage : UInt32) : 0 < size perPage := by
  unfold size
  omega

theorem needed_le_iff {n : Nat} : needed total perPage ≤ n ↔ total.toNat ≤ size perPage * n :=
  ceilDiv_le_iff_le_mul (size_pos perPage)

theorem ceilDiv_eq {t p : Nat} (positive : 0 < p) :
    t ⌈/⌉ p = if t % p = 0 then t / p else t / p + 1 := by
  have parts := Nat.div_add_mod t p
  have small := Nat.mod_lt t positive
  split
  · next even =>
    have quotient : t = p * (t / p) := by omega
    rw [Nat.ceilDiv_eq_add_pred_div]
    apply Nat.div_eq_of_lt_le
    · rw [Nat.mul_comm]
      omega
    · rw [Nat.add_mul, Nat.mul_comm]
      omega
  · next odd =>
    rw [Nat.ceilDiv_eq_add_pred_div]
    apply Nat.div_eq_of_lt_le
    · rw [Nat.add_mul, Nat.mul_comm]
      omega
    · rw [Nat.add_mul, Nat.add_mul, Nat.mul_comm]
      omega

theorem roundedUp_lt {t p : Nat} (bounded : t < 2 ^ 64) (odd : t % p ≠ 0) :
    t / p + 1 < 2 ^ 64 := by
  have one : p ≠ 1 := by
    rintro rfl
    exact odd (Nat.mod_one t)
  cases Nat.eq_zero_or_pos p with
  | inl zero => simp [zero]
  | inr positive =>
    have half : t / p ≤ t / 2 := Nat.div_le_div_left (by omega) (by decide)
    omega

theorem toNat_pagesFor (total : UInt64) {p : UInt32} (positive : 0 < p.toNat) :
    (pagesFor total p).toNat = min (total.toNat ⌈/⌉ p.toNat) maxUInt32 := by
  have quotient : (total / p.toUInt64).toNat = total.toNat / p.toNat := by
    rw [UInt64.toNat_div, UInt32.toNat_toUInt64]
  have remainder : total % p.toUInt64 = 0 ↔ total.toNat % p.toNat = 0 := by
    rw [← UInt64.toNat_inj, UInt64.toNat_mod, UInt32.toNat_toUInt64]
    rfl
  obtain ⟨pages, there⟩ : ∃ pages, (if total % p.toUInt64 = 0 then total / p.toUInt64
      else total / p.toUInt64 + 1) = pages := ⟨_, rfl⟩
  have exact : pages.toNat = total.toNat ⌈/⌉ p.toNat := by
    rw [ceilDiv_eq positive, ← there]
    by_cases even : total.toNat % p.toNat = 0
    · rw [if_pos even, if_pos (remainder.mpr even), quotient]
    · rw [if_neg even, if_neg (mt remainder.mp even), UInt64.toNat_add, quotient]
      exact Nat.mod_eq_of_lt (roundedUp_lt (UInt64.toNat_lt total) even)
  have capped : pagesFor total p = if pages ≤ 0xFFFFFFFF then pages.toUInt32 else 0xFFFFFFFF := by
    rw [← there]
    rfl
  rw [capped, ← exact]
  split
  · next le =>
    have le : pages.toNat ≤ maxUInt32 := UInt64.le_iff_toNat_le.mp le
    rw [UInt64.toNat_toUInt32, Nat.mod_eq_of_lt (Nat.lt_succ_of_le le), Nat.min_eq_left le]
  · next gt =>
    have gt : ¬ pages.toNat ≤ maxUInt32 := fun le => gt (UInt64.le_iff_toNat_le.mpr le)
    exact (Nat.min_eq_right (Nat.le_of_not_le gt)).symm

theorem toNat_clamp (perPage : UInt32) : (max perPage 1).toNat = size perPage := by
  have one : (1 : UInt32).toNat = 1 := rfl
  rw [UInt32.toNat_max, one, size, Nat.max_comm]

theorem exact_new (total : UInt64) (page perPage : UInt32) :
    Exact total page perPage (new total page perPage) := by
  have one : (1 : UInt32).toNat = 1 := rfl
  have positive := size_pos perPage
  obtain ⟨p, clamped⟩ : ∃ p, max perPage 1 = p := ⟨_, rfl⟩
  have size : p.toNat = size perPage := clamped ▸ toNat_clamp perPage
  obtain ⟨n, counted⟩ : ∃ n, pagesFor total p = n := ⟨_, rfl⟩
  obtain ⟨k, shown⟩ : ∃ k, min (max page 1) (max n 1) = k := ⟨_, rfl⟩
  have place : k.toNat = min (max 1 page.toNat) (max 1 n.toNat) := by
    rw [← shown, UInt32.toNat_min, UInt32.toNat_max, UInt32.toNat_max, one]
    omega
  have before : (k - 1).toNat = k.toNat - 1 :=
    UInt32.toNat_sub_of_le _ _ (UInt32.le_iff_toNat_le.mpr (by rw [one]; omega))
  have whole : new total page perPage =
      ⟨k, p, total, n, (k - 1).toUInt64 * p.toUInt64, decide (k < n), decide (1 < k)⟩ := by
    rw [new, clamped, counted, shown]
  rw [whole]
  constructor
  · exact size
  · rfl
  · rw [← counted, toNat_pagesFor total (size ▸ positive), size, needed]
  · exact place
  · have wide : (k - 1).toNat * p.toNat < 2 ^ 64 :=
      Nat.lt_of_lt_of_eq (Nat.mul_lt_mul_of_lt_of_lt (UInt32.toNat_lt _) (UInt32.toNat_lt _))
        (by decide)
    change ((k - 1).toUInt64 * p.toUInt64).toNat = _
    rw [UInt64.toNat_mul, UInt32.toNat_toUInt64, UInt32.toNat_toUInt64,
      Nat.mod_eq_of_lt wide, before]
  · exact decide_eq_true_iff.trans UInt32.lt_iff_toNat_lt
  · exact decide_eq_true_iff.trans UInt32.lt_iff_toNat_lt

theorem Exact.inRange {p : PageInfo} (exact : Exact total page perPage p) : InRange p := by
  have positive := size_pos perPage
  have width := exact.width
  have place := exact.place
  constructor
  · omega
  · exact roundedUp_lt (UInt64.toNat_lt p.total)
  · omega
  · rw [← exact.offset]
    exact UInt64.toNat_lt p.offset

theorem Exact.page_bounds {p : PageInfo} (exact : Exact total page perPage p) :
    1 ≤ p.page.toNat ∧ p.page.toNat ≤ max 1 p.totalPages.toNat := by
  have place := exact.place
  omega

/-- What is shown depends on where the page is, not on how it was asked for. -/
theorem Exact.unique {p p' : PageInfo} {page' perPage' : UInt32}
    (exact : Exact total page perPage p) (exact' : Exact total page' perPage' p')
    (width : size perPage = size perPage')
    (place : p.page = p'.page) : p = p' := by
  have perPage : p.perPage = p'.perPage := by
    rw [← UInt32.toNat_inj, exact.width, exact'.width, width]
  have pages : p.totalPages = p'.totalPages := by
    rw [← UInt32.toNat_inj, exact.pages, exact'.pages, needed, needed, width]
  have offset : p.offset = p'.offset := by
    rw [← UInt64.toNat_inj, exact.offset, exact'.offset, place, perPage]
  have next : p.hasNext = p'.hasNext := by
    rw [Bool.eq_iff_iff, exact.hasNext, exact'.hasNext, place, pages]
  have previous : p.hasPrev = p'.hasPrev := by
    rw [Bool.eq_iff_iff, exact.hasPrev, exact'.hasPrev, place]
  have counted := exact.counted.trans exact'.counted.symm
  cases p
  cases p'
  simp_all only

theorem lt_total_iff {k : Nat} : k < needed total perPage ↔ k * size perPage < total.toNat := by
  have spec : needed total perPage ≤ k ↔ total.toNat ≤ size perPage * k := needed_le_iff
  rw [Nat.mul_comm] at spec
  omega

theorem offset_lt_total (some : 0 < total.toNat) :
    (new total page perPage).offset.toNat < total.toNat := by
  have exact := exact_new total page perPage
  have pages := exact.pages
  have place := exact.place
  have one : ¬needed total perPage ≤ 0 := by
    rw [needed_le_iff]
    omega
  have within : (new total page perPage).page.toNat - 1 < needed total perPage := by omega
  rw [exact.offset, exact.width]
  exact lt_total_iff.mp within

theorem totalPages_eq (counted : needed total perPage ≤ maxUInt32) :
    (new total page perPage).totalPages.toNat = needed total perPage :=
  (exact_new total page perPage).pages.trans (Nat.min_eq_left counted)

theorem stop_eq (total : UInt64) (page perPage : UInt32) : (new total page perPage).stop =
    min ((new total page perPage).page.toNat * size perPage) total.toNat := by
  have exact := exact_new total page perPage
  have first := exact.page_bounds.1
  have end' : (new total page perPage).offset.toNat + (new total page perPage).perPage.toNat =
      (new total page perPage).page.toNat * size perPage := by
    rw [exact.offset, exact.width, ← Nat.succ_mul]
    congr 1
    omega
  rw [stop, end', exact.counted]

theorem page_nth (counted : needed total perPage ≤ maxUInt32) {k : Nat} (first : 1 ≤ k)
    (last : k ≤ needed total perPage) : (nth total perPage k).page.toNat = k := by
  have exact := exact_new total (.ofNat k) perPage
  have pages : (new total (.ofNat k) perPage).totalPages.toNat = needed total perPage :=
    totalPages_eq counted
  have asked : (UInt32.ofNat k).toNat = k :=
    UInt32.toNat_ofNat_of_lt' (Nat.lt_succ_of_le (Nat.le_trans last counted))
  have place := exact.place
  rw [nth, place]
  omega

theorem nth_interval (counted : needed total perPage ≤ maxUInt32) {k : Nat}
    (below : k < needed total perPage) :
    (nth total perPage (k + 1)).offset.toNat = k * size perPage ∧
      (nth total perPage (k + 1)).stop = min ((k + 1) * size perPage) total.toNat := by
  have exact := exact_new total (.ofNat (k + 1)) perPage
  have place : (new total (.ofNat (k + 1)) perPage).page.toNat = k + 1 :=
    page_nth counted (by omega) below
  constructor
  · rw [nth, exact.offset, exact.width, place, Nat.add_sub_cancel]
  · rw [nth, stop_eq, place]

/-- By induction on the number of pages: the first `k` of them show the first rows, as many as
fit. -/
theorem flatMap_rows (counted : needed total perPage ≤ maxUInt32) {k : Nat}
    (within : k ≤ needed total perPage) :
    ((List.range' 1 k).flatMap fun i => (nth total perPage i).rows) =
      List.range (min (k * size perPage) total.toNat) := by
  induction k with
  | zero => simp
  | succ k ih =>
    have here : k * size perPage < total.toNat := lt_total_iff.mp within
    obtain ⟨offset, stop⟩ := nth_interval counted within
    have shown : (nth total perPage (k + 1)).rows =
        List.range' (k * size perPage)
          (min ((k + 1) * size perPage) total.toNat - k * size perPage) := by
      rw [rows, offset, stop]
    have grows : k * size perPage ≤ (k + 1) * size perPage :=
      Nat.mul_le_mul_right _ (Nat.le_succ k)
    have before : min (k * size perPage) total.toNat = k * size perPage :=
      Nat.min_eq_left (Nat.le_of_lt here)
    rw [List.range'_1_concat, List.flatMap_append, ih (by omega), Nat.add_comm 1 k, before,
      List.flatMap_cons, List.flatMap_nil, List.append_nil, shown, List.range_eq_range',
      List.range_eq_range']
    have joined (m n : Nat) : List.range' 0 m ++ List.range' m n = List.range' 0 (m + n) := by
      rw [← List.range'_append_1, Nat.zero_add]
    rw [joined]
    congr 1
    omega

theorem tiles (counted : needed total perPage ≤ maxUInt32) :
    Tiles total perPage (needed total perPage) := by
  constructor
  · intro k first last
    obtain ⟨j, rfl⟩ := Nat.exists_eq_add_of_le' first
    obtain ⟨offset, stop⟩ := nth_interval counted last
    have here := lt_total_iff.mp last
    have grows : j * size perPage < (j + 1) * size perPage :=
      Nat.mul_lt_mul_of_pos_right (Nat.lt_succ_self j) (size_pos perPage)
    omega
  · intro k first below
    obtain ⟨j, rfl⟩ := Nat.exists_eq_add_of_le' first
    obtain ⟨-, stop⟩ := nth_interval counted (Nat.lt_of_succ_lt below)
    obtain ⟨offset, -⟩ := nth_interval counted below
    have here := lt_total_iff.mp below
    omega
  · have all : total.toNat ≤ needed total perPage * size perPage := by
      rw [Nat.mul_comm]
      exact needed_le_iff.mp (Nat.le_refl _)
    rw [flatMap_rows counted (Nat.le_refl _), Nat.min_eq_right all]

theorem hasNext_iff (counted : needed total perPage ≤ maxUInt32) :
    (new total page perPage).hasNext = true ↔
      (new total page perPage).offset.toNat + size perPage < total.toNat := by
  have exact := exact_new total page perPage
  have first := exact.page_bounds.1
  obtain ⟨before, place⟩ := Nat.exists_eq_add_of_le' first
  have offset := exact.offset
  rw [exact.width, place, Nat.add_sub_cancel] at offset
  rw [exact.hasNext, totalPages_eq counted, lt_total_iff, offset, place, Nat.succ_mul]

theorem hasPrev_iff : (new total page perPage).hasPrev = true ↔
    0 < (new total page perPage).offset.toNat := by
  have exact := exact_new total page perPage
  rw [exact.hasPrev, exact.offset, exact.width, Nat.mul_pos_iff_of_pos_right (size_pos perPage)]
  omega

theorem new_past {p : PageInfo} (built : new total page perPage = p) (past : p.totalPages < page) :
    p = new total p.totalPages perPage ∧ p.page.toNat = max 1 p.totalPages.toNat := by
  subst built
  have exact := exact_new total page perPage
  have last := exact_new total (new total page perPage).totalPages perPage
  have past := UInt32.lt_iff_toNat_lt.mp past
  have pages := exact.pages.trans last.pages.symm
  have place := exact.place
  have place' := last.place
  refine ⟨exact.unique last rfl (UInt32.toNat_inj.mp ?_), ?_⟩
  · omega
  · omega

theorem new_again {p : PageInfo} (built : new total page perPage = p) {perPage' : UInt32}
    (width : size perPage' = size perPage) : new total p.page perPage' = p := by
  subst built
  have exact := exact_new total page perPage
  have again := exact_new total (new total page perPage).page perPage'
  have pages := exact.pages
  have pages' := again.pages
  have place := exact.place
  have place' := again.place
  rw [needed, width, ← needed, ← pages] at pages'
  refine again.unique exact width (UInt32.toNat_inj.mp ?_)
  omega

/-- Whatever is asked for, the numbers of a page are exact, and the page is one of the result. While
32 bits count the pages, they cut the rows into intervals, each row on one page and no page empty,
and the last of them stands for all that would come after. -/
theorem pages_tile (total : UInt64) (page perPage : UInt32) :
    let p := new total page perPage
    InRange p ∧ Exact total page perPage p ∧ 1 ≤ p.page.toNat ∧
      p.page.toNat ≤ max 1 p.totalPages.toNat ∧ new total p.page perPage = p ∧
      new total p.page p.perPage = p ∧
      (total.toNat ≤ size perPage * maxUInt32 →
        Tiles total perPage p.totalPages.toNat ∧
        (p.hasNext = true ↔ p.offset.toNat + size perPage < total.toNat) ∧
        (p.hasPrev = true ↔ 0 < p.offset.toNat) ∧
        (p.totalPages < page → p = new total p.totalPages perPage ∧
          p.page.toNat = max 1 p.totalPages.toNat ∧ (total = 0 → p.page = 1))) := by
  intro p
  have exact : Exact total page perPage p := exact_new total page perPage
  have kept : size p.perPage = size perPage := by
    have positive := size_pos perPage
    rw [size, exact.width]
    omega
  refine ⟨exact.inRange, exact, exact.page_bounds.1, exact.page_bounds.2, new_again rfl rfl,
    new_again rfl kept, fun fits => ?_⟩
  have counted : needed total perPage ≤ maxUInt32 := needed_le_iff.mpr fits
  have pages : p.totalPages.toNat = needed total perPage := totalPages_eq counted
  refine ⟨pages ▸ tiles counted, hasNext_iff counted, hasPrev_iff, fun past => ?_⟩
  obtain ⟨last, place⟩ := new_past (p := p) rfl past
  refine ⟨last, place, fun none => ?_⟩
  have one : (1 : UInt32).toNat = 1 := rfl
  have empty : needed total perPage ≤ 0 := needed_le_iff.mpr (by rw [none]; exact Nat.le_refl 0)
  rw [← UInt32.toNat_inj, place, one]
  omega

/-- Seven rows, three to a page. -/
theorem pages_tile_seven : (7 : UInt64).toNat ≤ size 3 * maxUInt32 ∧
    (List.range' 1 3).flatMap (fun k => (nth 7 3 k).rows) = [0, 1, 2, 3, 4, 5, 6] ∧
    (new 7 9 3).totalPages < 9 ∧ new 7 9 3 = new 7 3 3 := by
  have fits : (7 : UInt64).toNat ≤ size 3 * maxUInt32 := by decide
  obtain ⟨-, -, -, -, -, -, tiled⟩ := pages_tile 7 9 3
  obtain ⟨tiles, -, -, past⟩ := tiled fits
  have three : (new 7 9 3).totalPages = 3 := by decide
  have beyond : (new 7 9 3).totalPages < 9 := by decide
  have last := (past beyond).1
  rw [three] at tiles last
  exact ⟨fits, tiles.whole, beyond, last⟩

-- One page more than 32 bits count: there is a row behind the last page.
example : (new 0x100000000 0xFFFFFFFF 1).hasNext = false ∧
    (new 0x100000000 0xFFFFFFFF 1).offset.toNat + size 1 < (0x100000000 : UInt64).toNat := by
  decide

end Reports.PageInfo
