import Mathlib
import Termua.Grid.Row
import Termua.Lib.Ring

/-!
# The ring buffer of the grid

`Storage` of `alacritty_terminal/src/grid/storage.rs`: rows and, in lock-step, their stable ids in a
ring that starts with the bottommost line. `Storage.ring` is what the ring holds, in that order, the
cached rows beyond the end of the scrollback included. Each operation is described by what it makes of
the ring (`Becomes`); the loops of the grid over lines are described with it by what they make of the
blocks of the ring.
-/

namespace Termua.Grid

/-- `MAX_CACHE_SIZE`. -/
def maxCacheSize : ℕ := 1000

/-- `Storage`. -/
structure Storage (T : Type) where
  inner : List (Row T)
  zero : ℕ
  visibleLines : ℕ
  len : ℕ
  stableRowIds : List ℤ
  deriving DecidableEq, Repr

/-- The position of a line in a ring that starts with the bottommost of `visible` lines. -/
def position (visible : ℕ) (line : ℤ) : ℕ := (visible - line).toNat - 1

/-- The lines of the range `start..stop`, in this order. -/
def lineRange (start stop : ℤ) : List ℤ :=
  (List.range (stop - start).toNat).map fun j : ℕ => start + j

namespace Storage

variable {T D : Type}

/-- `compute_index`, `none` for a line below the screen. -/
def computeIndex (s : Storage T) (requested : ℤ) : Option ℕ :=
  if requested < s.visibleLines then
    some (Ring.wrapIndex s.inner.length s.zero (position s.visibleLines requested))
  else none

/-- `Index::index`, `none` where it panics. -/
def index (s : Storage T) (line : ℤ) : Option (Row T) := do
  let i ← s.computeIndex line
  s.inner[i]?

/-- `IndexMut::index_mut` with what is done to the row. -/
def modifyRow (s : Storage T) (line : ℤ) (f : Row T → Option (Row T)) : Option (Storage T) := do
  let i ← s.computeIndex line
  let inner ← Ring.updateAt f s.inner i
  return { s with inner }

/-- `stable_row_id_for_line`. -/
def stableRowIdForLine (s : Storage T) (line : ℤ) : Option ℤ := do
  let i ← s.computeIndex line
  s.stableRowIds[i]?

/-- `set_stable_row_id_for_line`. -/
def setStableRowIdForLine (s : Storage T) (line : ℤ) (id : ℤ) : Option (Storage T) := do
  let i ← s.computeIndex line
  let stableRowIds ← Ring.updateAt (fun _ => some id) s.stableRowIds i
  return { s with stableRowIds }

/-- `reset_stable_row_ids`. -/
def resetStableRowIds (s : Storage T) : Option (Storage T) :=
  let stableRowIds := s.stableRowIds.take s.inner.length ++
    List.replicate (s.inner.length - s.stableRowIds.length) 0
  let s := { s with stableRowIds }
  if s.len = 0 then some s
  else
    let history := s.len - s.visibleLines
    (lineRange (-(history : ℤ)) s.visibleLines).zipIdx.foldlM
      (fun s x => s.setStableRowIdForLine x.1 x.2) s

/-- `with_capacity`. -/
def withCapacity [GridCell T D] (visibleLines columns : ℕ) : Option (Storage T) :=
  resetStableRowIds
    { inner := List.replicate visibleLines (Row.new columns), zero := 0, visibleLines,
      len := visibleLines, stableRowIds := List.replicate visibleLines 0 }

/-- `rezero`. -/
def rezero (s : Storage T) : Storage T :=
  if s.zero = 0 then s
  else { s with inner := s.inner.rotate s.zero, stableRowIds := s.stableRowIds.rotate s.zero,
                zero := 0 }

/-- `truncate`. -/
def truncate (s : Storage T) : Storage T :=
  let s := s.rezero
  { s with inner := s.inner.take s.len, stableRowIds := s.stableRowIds.take s.len }

/-- `shrink_lines`. -/
def shrinkLines (s : Storage T) (shrinkage : ℕ) : Storage T :=
  let s := { s with len := s.len - shrinkage }
  if s.len + maxCacheSize < s.inner.length then s.truncate else s

/-- `initialize`. -/
def initializeRows [GridCell T D] (s : Storage T) (additionalRows columns : ℕ) : Storage T :=
  let s :=
    if s.inner.length < s.len + additionalRows then
      let s := s.rezero
      let additional := max additionalRows maxCacheSize
      { s with inner := s.inner ++ List.replicate additional (Row.new columns)
               stableRowIds := s.stableRowIds ++ List.replicate additional 0 }
    else s
  { s with len := s.len + additionalRows }

/-- `swap`. -/
def swap (s : Storage T) (a b : ℤ) : Option (Storage T) := do
  let a ← s.computeIndex a
  let b ← s.computeIndex b
  let inner ← Ring.swapAt s.inner a b
  let stableRowIds ← Ring.swapAt s.stableRowIds a b
  return { s with inner, stableRowIds }

/-- `rotate`; its callers keep `count` within the length of `inner`. -/
def rotate (s : Storage T) (count : ℤ) : Storage T :=
  { s with zero := ((s.zero : ℤ) + count + s.inner.length).toNat % s.inner.length }

/-- `rotate_down`. -/
def rotateDown (s : Storage T) (count : ℕ) : Storage T :=
  { s with zero := (s.zero + count) % s.inner.length }

/-! ## What a storage holds -/

/-- Rows with their stable ids, the bottommost line first, the cached rows included. -/
def ring (s : Storage T) : List (Row T × ℤ) := (s.inner.zip s.stableRowIds).rotate s.zero

/-- The storage holds the lines `r`, the bottommost first, of which `visible` are on the screen. All
its rows, the cached ones included, are clean rows of `columns` cells. -/
structure Holds [GridCell T D] (s : Storage T) (columns visible : ℕ) (r : List (Row T × ℤ)) : Prop
    where
  ids_length : s.stableRowIds.length = s.inner.length
  zero_lt : s.zero < s.inner.length
  rows : ∀ row ∈ s.inner, row.Clean columns
  visibleLines : s.visibleLines = visible
  len : s.len = r.length
  prefix_ring : r <+: s.ring

variable [GridCell T D] {s : Storage T} {columns visible : ℕ} {r r' : List (Row T × ℤ)} {line : ℤ}

namespace Holds

theorem length_ring (h : s.Holds columns visible r) : s.ring.length = s.inner.length := by
  rw [ring, List.length_rotate, List.length_zip, h.ids_length, min_self]

theorem length_le (h : s.Holds columns visible r) : r.length ≤ s.inner.length := by
  rw [← h.length_ring]
  exact h.prefix_ring.length_le

theorem rotate_inner (h : s.Holds columns visible r) :
    s.inner.rotate s.zero = s.ring.map Prod.fst := by
  rw [ring, List.map_rotate, List.map_fst_zip (by rw [h.ids_length])]

theorem rotate_ids (h : s.Holds columns visible r) :
    s.stableRowIds.rotate s.zero = s.ring.map Prod.snd := by
  rw [ring, List.map_rotate, List.map_snd_zip (by rw [h.ids_length])]

theorem unique (h : s.Holds columns visible r) (h' : s.Holds columns visible r') : r = r' := by
  rw [List.prefix_iff_eq_take.mp h.prefix_ring, List.prefix_iff_eq_take.mp h'.prefix_ring,
    ← h.len, ← h'.len]

theorem clean_of_mem_ring (h : s.Holds columns visible r) {x : Row T × ℤ} (hx : x ∈ s.ring) :
    x.1.Clean columns := by
  refine h.rows x.1 ?_
  rw [← List.mem_rotate (n := s.zero), h.rotate_inner]
  exact List.mem_map_of_mem hx

theorem clean (h : s.Holds columns visible r) {x : Row T × ℤ} (hx : x ∈ r) : x.1.Clean columns :=
  h.clean_of_mem_ring (h.prefix_ring.subset hx)

/-- The slot of a position has its row and its id. -/
theorem slot (h : s.Holds columns visible r) {p : ℕ} {x : Row T × ℤ} (hx : r[p]? = some x) :
    p < s.inner.length ∧ s.inner[Ring.wrapIndex s.inner.length s.zero p]? = some x.1 ∧
      s.stableRowIds[Ring.wrapIndex s.inner.length s.zero p]? = some x.2 := by
  have hlt := (List.getElem?_eq_some_iff.mp hx).1
  have hp : p < s.inner.length := hlt.trans_le h.length_le
  have hring : s.ring[p]? = some x := by
    obtain ⟨cached, hcached⟩ := h.prefix_ring
    rw [← hcached, List.getElem?_append_left hlt, hx]
  have hids := h.ids_length
  refine ⟨hp, ?_, ?_⟩
  · rw [Ring.getElem?_wrapIndex h.zero_lt hp, h.rotate_inner, List.getElem?_map, hring]
    rfl
  · have hslot := @Ring.getElem?_wrapIndex ℤ s.stableRowIds s.zero p
      (by rw [hids]; exact h.zero_lt) (by rw [hids]; exact hp)
    rw [hids] at hslot
    rw [hslot, h.rotate_ids, List.getElem?_map, hring]
    rfl

end Holds

/-! ### Reading and writing a line -/

theorem computeIndex_eq (h : s.Holds columns visible r) (hline : line < visible) :
    s.computeIndex line =
      some (Ring.wrapIndex s.inner.length s.zero (position visible line)) := by
  unfold computeIndex
  rw [h.visibleLines]
  exact if_pos hline

theorem index_eq (h : s.Holds columns visible r) (hline : line < visible) {x : Row T × ℤ}
    (hx : r[position visible line]? = some x) : s.index line = some x.1 := by
  unfold index
  rw [computeIndex_eq h hline]
  exact (h.slot hx).2.1

theorem stableRowIdForLine_eq (h : s.Holds columns visible r) (hline : line < visible)
    {x : Row T × ℤ} (hx : r[position visible line]? = some x) :
    s.stableRowIdForLine line = some x.2 := by
  unfold stableRowIdForLine
  rw [computeIndex_eq h hline]
  exact (h.slot hx).2.2

/-- The storage with another row and id at a position. -/
def write (s : Storage T) (p : ℕ) (x : Row T × ℤ) : Storage T :=
  { s with
    inner := s.inner.set (Ring.wrapIndex s.inner.length s.zero p) x.1
    stableRowIds := s.stableRowIds.set (Ring.wrapIndex s.inner.length s.zero p) x.2 }

theorem Holds.write (h : s.Holds columns visible r) {p : ℕ} (hp : p < r.length) {x : Row T × ℤ}
    (hx : x.1.Clean columns) : (s.write p x).Holds columns visible (r.set p x) where
  ids_length := by simp only [Storage.write, List.length_set, h.ids_length]
  zero_lt := by simpa only [Storage.write, List.length_set] using h.zero_lt
  rows row hrow := by
    rcases List.mem_or_eq_of_mem_set hrow with hrow | rfl
    · exact h.rows row hrow
    · exact hx
  visibleLines := h.visibleLines
  len := by rw [List.length_set]; exact h.len
  prefix_ring := by
    have hlen : (s.inner.zip s.stableRowIds).length = s.inner.length := by
      rw [List.length_zip, h.ids_length, min_self]
    have hset := Ring.rotate_set_wrapIndex (by rw [hlen]; exact h.zero_lt)
      (by rw [hlen]; exact hp.trans_le h.length_le) x
    rw [hlen, ← Ring.zip_set] at hset
    obtain ⟨cached, hcached⟩ := h.prefix_ring
    refine ⟨cached, ?_⟩
    rw [← List.set_append_left _ _ hp, hcached]
    exact hset.symm

/-- `swap` exchanges two lines. -/
theorem swap_holds (h : s.Holds columns visible r) {a b : ℤ} (ha : a < visible) (hb : b < visible)
    (hr : Ring.swapAt r (position visible a) (position visible b) = some r') :
    ∃ s', s.swap a b = some s' ∧ s'.Holds columns visible r' := by
  simp only [Ring.swapAt, Option.bind_eq_bind, Option.bind_eq_some_iff, Option.pure_def,
    Option.some.injEq] at hr
  obtain ⟨x, hx, y, hy, rfl⟩ := hr
  obtain ⟨hp, hxr, hxi⟩ := h.slot hx
  obtain ⟨hq, hyr, hyi⟩ := h.slot hy
  have hw := h.write (List.getElem?_eq_some_iff.mp hx).1 (h.clean (List.mem_of_getElem? hy))
  have hw' := hw.write (p := position visible b) (x := x)
    (by rw [List.length_set]; exact (List.getElem?_eq_some_iff.mp hy).1)
    (h.clean (List.mem_of_getElem? hx))
  refine ⟨_, ?_, hw'⟩
  simp only [swap, computeIndex_eq h ha, computeIndex_eq h hb, Option.bind_eq_bind,
    Option.bind_some, Ring.swapAt, hxr, hxi, hyr, hyi, Option.pure_def, Storage.write,
    List.length_set]

/-- `index_mut` rewrites the row of a line. -/
theorem modifyRow_holds (h : s.Holds columns visible r) (hline : line < visible)
    {f : Row T → Option (Row T)} (hf : ∀ row row', row.Clean columns → f row = some row' →
      row'.Clean columns)
    (hr : Ring.updateAt (fun x => (f x.1).map fun row => (row, x.2)) r (position visible line) =
      some r') :
    ∃ s', s.modifyRow line f = some s' ∧ s'.Holds columns visible r' := by
  simp only [Ring.updateAt, Option.bind_eq_bind, Option.bind_eq_some_iff, Option.pure_def,
    Option.some.injEq, Option.map_eq_some_iff] at hr
  obtain ⟨x, hx, _, ⟨row, hrow, rfl⟩, rfl⟩ := hr
  obtain ⟨hp, hxr, hxi⟩ := h.slot hx
  refine ⟨_, ?_, h.write (x := (row, x.2)) (List.getElem?_eq_some_iff.mp hx).1
    (hf x.1 row (h.clean (List.mem_of_getElem? hx)) hrow)⟩
  obtain ⟨hlt, hget⟩ := List.getElem?_eq_some_iff.mp hxi
  simp only [modifyRow, computeIndex_eq h hline, Option.bind_eq_bind, Option.bind_some,
    Ring.updateAt, hxr, hrow, Option.pure_def, Storage.write, ← hget, List.set_getElem_self]

/-- `set_stable_row_id_for_line` rewrites the id of a line. -/
theorem setStableRowIdForLine_holds (id : ℤ) (h : s.Holds columns visible r)
    (hline : line < visible)
    (hr : Ring.updateAt (fun x => some (x.1, id)) r (position visible line) = some r') :
    ∃ s', s.setStableRowIdForLine line id = some s' ∧ s'.Holds columns visible r' := by
  simp only [Ring.updateAt, Option.bind_eq_bind, Option.bind_eq_some_iff, Option.pure_def,
    Option.some.injEq] at hr
  obtain ⟨x, hx, _, rfl, rfl⟩ := hr
  obtain ⟨hp, hxr, hxi⟩ := h.slot hx
  have hclean := h.clean (List.mem_of_getElem? hx)
  refine ⟨_, ?_, h.write (x := (x.1, id)) (List.getElem?_eq_some_iff.mp hx).1 hclean⟩
  obtain ⟨hlt, hget⟩ := List.getElem?_eq_some_iff.mp hxr
  simp only [setStableRowIdForLine, computeIndex_eq h hline, Option.bind_eq_bind,
    Option.bind_some, Ring.updateAt, hxi, Option.pure_def, Storage.write, ← hget,
    List.set_getElem_self]

/-! ### Rotating, growing and shrinking -/

/-- Rotating up moves the lines up; the rows that come in at the bottom are those at the far end. -/
theorem rotate_up_holds (h : s.Holds columns visible r) {k : ℕ} (hk : k ≤ r.length) :
    ∃ fresh, fresh.length = k ∧
      (s.rotate (-k)).Holds columns visible (fresh ++ r.take (r.length - k)) := by
  have hn := h.length_le
  have hlen := h.length_ring
  have hring : (s.rotate (-k)).ring = s.ring.rotate (s.inner.length - k) := by
    have hzero : ((s.zero : ℤ) + -k + s.inner.length).toNat = s.zero + (s.inner.length - k) := by
      omega
    have hmod := List.rotate_mod (s.inner.zip s.stableRowIds) (s.zero + (s.inner.length - k))
    rw [List.length_zip, h.ids_length, min_self] at hmod
    unfold rotate ring
    simp only
    rw [hzero, hmod, List.rotate_rotate]
  have hdrop : s.ring.rotate (s.inner.length - k) =
      s.ring.drop (s.inner.length - k) ++ s.ring.take (s.inner.length - k) :=
    List.rotate_eq_drop_append_take (by omega)
  refine ⟨s.ring.drop (s.inner.length - k), by rw [List.length_drop]; omega, ?_⟩
  refine ⟨h.ids_length, Nat.mod_lt _ (by have := h.zero_lt; omega), h.rows, h.visibleLines, ?_, ?_⟩
  · rw [List.length_append, List.length_drop, List.length_take]
    show s.len = _
    rw [h.len]
    omega
  · rw [hring, hdrop, List.prefix_append_right_inj]
    have hr : r = s.ring.take r.length := List.prefix_iff_eq_take.mp h.prefix_ring
    have htake : r.take (r.length - k) = s.ring.take (r.length - k) := by
      conv_lhs => rw [hr]
      rw [List.take_take, List.length_take]
      congr 1
      omega
    rw [htake]
    exact List.take_prefix_take_left (by omega)

/-- Rotating down drops the bottommost lines; rows come in at the far end. -/
theorem rotate_down_holds (h : s.Holds columns visible r) {k : ℕ} (hk : k ≤ r.length) :
    ∃ fresh, fresh.length = k ∧ (s.rotateDown k).Holds columns visible (r.drop k ++ fresh) := by
  have hn := h.length_le
  have hlen := h.length_ring
  have hring : (s.rotateDown k).ring = s.ring.drop k ++ s.ring.take k := by
    have hmod := List.rotate_mod (s.inner.zip s.stableRowIds) (s.zero + k)
    rw [List.length_zip, h.ids_length, min_self] at hmod
    rw [← List.rotate_eq_drop_append_take (by omega)]
    unfold rotateDown ring
    simp only
    rw [hmod, List.rotate_rotate]
  -- behind the lines come the rows that are cached, and then those that were at the front
  obtain ⟨cached, hcached⟩ := h.prefix_ring
  refine ⟨(cached ++ s.ring.take k).take k, ?_, h.ids_length,
    Nat.mod_lt _ (by have := h.zero_lt; omega), h.rows, h.visibleLines, ?_, ?_⟩
  · rw [List.length_take, List.length_append, List.length_take]
    omega
  · rw [List.length_append, List.length_take, List.length_append, List.length_take,
      List.length_drop]
    show s.len = _
    rw [h.len]
    omega
  · rw [hring]
    nth_rewrite 2 [← hcached]
    rw [List.drop_append_of_le_length hk, List.append_assoc, List.prefix_append_right_inj]
    exact List.take_prefix ..

/-- The two ways to rotate down are one. -/
theorem rotate_eq_rotateDown (s : Storage T) (k : ℕ) : s.rotate k = s.rotateDown k := by
  unfold rotate rotateDown
  rw [show ((s.zero : ℤ) + k + s.inner.length).toNat = s.zero + k + s.inner.length by omega,
    Nat.add_mod_right]

theorem Holds.rezero (h : s.Holds columns visible r) : s.rezero.Holds columns visible r := by
  unfold Storage.rezero
  split
  · exact h
  · refine ⟨?_, ?_, ?_, h.visibleLines, h.len, ?_⟩
    · rw [List.length_rotate, List.length_rotate, h.ids_length]
    · rw [List.length_rotate]
      have := h.zero_lt
      simp only
      omega
    · intro row hrow
      exact h.rows row (List.mem_rotate.mp hrow)
    · have hzip := List.zipWith_rotate_distrib Prod.mk s.inner s.stableRowIds s.zero
        h.ids_length.symm
      unfold ring
      rw [List.rotate_zero, List.zip, ← hzip]
      exact h.prefix_ring

@[simp] theorem rezero_zero (s : Storage T) : s.rezero.zero = 0 := by
  unfold rezero
  split
  · assumption
  · rfl

theorem ring_of_zero (hzero : s.zero = 0) : s.ring = s.inner.zip s.stableRowIds := by
  rw [ring, hzero, List.rotate_zero]

/-- Freeing the cached rows keeps the lines. -/
theorem Holds.truncate (h : s.Holds columns visible r) (hpos : 0 < r.length) :
    s.truncate.Holds columns visible r := by
  have hz := h.rezero
  have hle := hz.length_le
  have hlen := hz.len
  have hzero := rezero_zero s
  refine ⟨?_, ?_, fun row hrow => hz.rows row (List.mem_of_mem_take hrow), hz.visibleLines, hz.len,
    ?_⟩
  · simp only [Storage.truncate, List.length_take, hz.ids_length]
  · simp only [Storage.truncate, List.length_take, hzero]
    omega
  · have hpre := hz.prefix_ring
    rw [ring_of_zero hzero] at hpre
    rw [ring_of_zero (show s.truncate.zero = 0 from hzero)]
    show r <+: (s.rezero.inner.take s.rezero.len).zip (s.rezero.stableRowIds.take s.rezero.len)
    rw [List.zip, ← List.take_zipWith, hlen, List.prefix_take_iff]
    exact ⟨hpre, le_refl _⟩

/-- Shrinking drops the lines at the far end of the scrollback, whether or not it frees memory. -/
theorem shrinkLines_holds (h : s.Holds columns visible r) {k : ℕ} (hk : k < r.length) :
    (s.shrinkLines k).Holds columns visible (r.take (r.length - k)) := by
  have hshort : ({ s with len := s.len - k } : Storage T).Holds columns visible
      (r.take (r.length - k)) := by
    refine ⟨h.ids_length, h.zero_lt, h.rows, h.visibleLines, ?_,
      (List.take_prefix ..).trans h.prefix_ring⟩
    have := h.len
    rw [List.length_take]
    simp only
    omega
  unfold shrinkLines
  simp only
  split
  · refine hshort.truncate ?_
    rw [List.length_take]
    omega
  · exact hshort

/-- Growing appends rows at the far end, cached or new ones. -/
theorem initializeRows_holds (h : s.Holds columns visible r) (k : ℕ) :
    ∃ fresh, fresh.length = k ∧ (s.initializeRows k columns).Holds columns visible (r ++ fresh) := by
  -- with enough rows in the ring the cached ones are taken
  have hcached {s : Storage T} (h : s.Holds columns visible r) (hle : s.len + k ≤ s.inner.length) :
      ∃ fresh, fresh.length = k ∧
        ({ s with len := s.len + k } : Storage T).Holds columns visible (r ++ fresh) := by
    have hlen := h.len
    have hring := h.length_ring
    obtain ⟨cached, hc⟩ := h.prefix_ring
    have hlength := congrArg List.length hc
    rw [List.length_append] at hlength
    refine ⟨cached.take k, by rw [List.length_take]; omega, h.ids_length, h.zero_lt, h.rows,
      h.visibleLines, ?_, cached.drop k, ?_⟩
    · rw [List.length_append, List.length_take]
      simp only
      omega
    · rw [List.append_assoc, List.take_append_drop]
      exact hc
  unfold initializeRows
  simp only
  split
  · have hz := h.rezero
    have hzero := rezero_zero s
    refine hcached (s := _) ⟨?_, ?_, ?_, hz.visibleLines, hz.len, ?_⟩ ?_
    · simp only [List.length_append, List.length_replicate, hz.ids_length]
    · have := hz.zero_lt
      simp only [List.length_append]
      omega
    · intro row hrow
      rcases List.mem_append.mp hrow with hrow | hrow
      · exact hz.rows row hrow
      · rw [List.eq_of_mem_replicate hrow]
        exact Row.clean_new columns
    · have hpre := hz.prefix_ring
      rw [ring_of_zero hzero] at hpre
      unfold ring
      simp only [hzero, List.rotate_zero]
      rw [List.zip_append hz.ids_length.symm]
      exact hpre.trans (List.prefix_append ..)
    · have hle := hz.length_le
      have hlen := hz.len
      have := le_max_left k maxCacheSize
      simp only [List.length_append, List.length_replicate]
      omega
  · next hroom => exact hcached h (by omega)

/-! ### Loops over lines -/

/-- A loop whose steps each do to what is held what `rstep` does, does so as a whole. -/
theorem foldlM_holds {ι : Type} (step : Storage T → ι → Option (Storage T))
    (rstep : List (Row T × ℤ) → ι → Option (List (Row T × ℤ))) {is : List ι}
    (hstep : ∀ i ∈ is, ∀ s r r', s.Holds columns visible r → rstep r i = some r' →
      ∃ s', step s i = some s' ∧ s'.Holds columns visible r')
    (h : s.Holds columns visible r) (hr : is.foldlM rstep r = some r') :
    ∃ s', is.foldlM step s = some s' ∧ s'.Holds columns visible r' := by
  induction is generalizing s r with
  | nil =>
    obtain rfl : r = r' := by simpa using hr
    exact ⟨s, rfl, h⟩
  | cons i is ih =>
    rw [List.foldlM_cons, Option.bind_eq_bind, Option.bind_eq_some_iff] at hr
    obtain ⟨m, hm, hr⟩ := hr
    obtain ⟨t, ht, htm⟩ := hstep i (by simp) s r m h hm
    obtain ⟨s', hs', hr'⟩ := ih (fun j hj => hstep j (List.mem_cons_of_mem _ hj)) htm hr
    exact ⟨s', by rw [List.foldlM_cons, ht]; exact hs', hr'⟩

theorem mem_lineRange {a b i : ℤ} : i ∈ lineRange a b ↔ a ≤ i ∧ i < b := by
  unfold lineRange
  rw [List.mem_map]
  constructor
  · rintro ⟨j, hj, rfl⟩
    have := List.mem_range.mp hj
    omega
  · rintro ⟨ha, hb⟩
    exact ⟨(i - a).toNat, List.mem_range.mpr (by omega), by omega⟩

/-- Counted from the bottom, the lines of a range are consecutive positions in descending order. -/
theorem map_lineRange (base : ℕ) {a b : ℤ} {q : ℤ → ℕ} {n : ℕ} (hn : b - a = n)
    (hq : ∀ i, a ≤ i → i < b → (q i : ℤ) = base + (b - 1 - i)) :
    (lineRange a b).map q = (List.range' base n).reverse := by
  refine List.ext_getElem (by simp [lineRange, hn]) fun j hj hj' => ?_
  simp only [lineRange, List.length_map, List.length_range] at hj
  simp only [lineRange, List.getElem_map, List.getElem_range, List.getElem_reverse,
    List.getElem_range', List.length_range']
  have := hq (a + j) (by omega) (by omega)
  omega

theorem cast_position {i : ℤ} (hi : i < visible) :
    (position visible i : ℤ) = visible - i - 1 := by
  unfold position
  omega

/-- Lines, from the bottommost of a block on, each swapped with the one `k` lines below: the block
gets to where the `k` lines below it are. -/
theorem swap_up_holds (pre front block : List (Row T × ℤ)) {post : List (Row T × ℤ)} {a b : ℤ}
    {k : ℕ}
    (h : s.Holds columns visible (pre ++ (front ++ (block ++ post))))
    (hb : (visible : ℤ) - b = pre.length) (hn : b - a = block.length) (hk : k = front.length) :
    ∃ behind s', behind.Perm front ∧
      (lineRange a b).reverse.foldlM (fun s i => s.swap i (i - k)) s = some s' ∧
        s'.Holds columns visible (pre ++ (block ++ (behind ++ post))) := by
  subst hk
  obtain ⟨behind, hperm, hr⟩ := Ring.swap_ascending pre front block post
  have hpos : List.range' pre.length block.length =
      (lineRange a b).reverse.map (position visible) := by
    rw [List.map_reverse, map_lineRange _ hn fun i hi hib => ?_, List.reverse_reverse]
    rw [cast_position (by omega)]
    omega
  unfold Ring.swapAscending at hr
  rw [hpos, List.foldlM_map] at hr
  obtain ⟨s', hs', hholds⟩ := foldlM_holds (fun s i => s.swap i (i - front.length)) _
    (fun i hi s r r' h hr => by
      have hi := mem_lineRange.mp (List.mem_reverse.mp hi)
      refine swap_holds h (by omega) (by omega) ?_
      rw [show position visible (i - front.length) = position visible i + front.length by
        unfold position; omega]
      exact hr) h hr
  exact ⟨behind, s', hperm, hs', hholds⟩

/-- A loop that from the topmost line of a block on swaps each with the one `k` lines above: the `k`
lines above the block get to where its lowest are. -/
theorem swap_down_holds (pre : List (Row T × ℤ)) {block back post : List (Row T × ℤ)} {a b : ℤ}
    {k : ℕ}
    {step : Storage T → ℤ → Option (Storage T)} {q : ℤ → ℕ}
    (h : s.Holds columns visible (pre ++ (block ++ (back ++ post))))
    (hn : b - a = block.length) (hk : k = back.length)
    (hq : ∀ i, a ≤ i → i < b → (q i : ℤ) = pre.length + (b - 1 - i))
    (hstep : ∀ i, a ≤ i → i < b → ∀ s r r', s.Holds columns visible r →
      Ring.swapAt r (q i) (q i + k) = some r' →
        ∃ s', step s i = some s' ∧ s'.Holds columns visible r') :
    ∃ before s', before.Perm back ∧ (lineRange a b).foldlM step s = some s' ∧
      s'.Holds columns visible (pre ++ (before ++ (block ++ post))) := by
  subst hk
  obtain ⟨before, hperm, hr⟩ := Ring.swap_descending pre block back post
  unfold Ring.swapDescending at hr
  rw [← map_lineRange _ hn hq, List.foldlM_map] at hr
  obtain ⟨s', hs', hholds⟩ := foldlM_holds _ _ (fun i hi s r r' h hr =>
    hstep i (mem_lineRange.mp hi).1 (mem_lineRange.mp hi).2 s r r' h hr) h hr
  exact ⟨before, s', hperm, hs', hholds⟩

/-- A loop that rewrites each of the lines of a range once rewrites the block. -/
theorem update_holds (f : ℤ → Row T × ℤ → Option (Row T × ℤ))
    (pre block rewritten post : List (Row T × ℤ)) {a b : ℤ} {is : List ℤ}
    {step : Storage T → ℤ → Option (Storage T)}
    (h : s.Holds columns visible (pre ++ (block ++ post)))
    (hb : (visible : ℤ) - b = pre.length) (hn : b - a = block.length)
    (hlen : rewritten.length = block.length) (hnodup : is.Nodup)
    (his : ∀ i, i ∈ is ↔ a ≤ i ∧ i < b)
    (hf : ∀ (j : ℕ) (x : Row T × ℤ), block[j]? = some x → f (b - 1 - j) x = rewritten[j]?)
    (hstep : ∀ i ∈ is, ∀ s r r', s.Holds columns visible r →
      Ring.updateAt (f i) r (position visible i) = some r' →
        ∃ s', step s i = some s' ∧ s'.Holds columns visible r') :
    ∃ s', is.foldlM step s = some s' ∧
      s'.Holds columns visible (pre ++ (rewritten ++ post)) := by
  have hpos {i : ℤ} (hi : i ∈ is) : (position visible i : ℤ) = pre.length + (b - 1 - i) := by
    have := (his i).mp hi
    rw [cast_position (by omega)]
    omega
  -- the loop on the storage is the loop on the rows, whose places are distinct
  refine foldlM_holds _ _ hstep h (Ring.foldlM_updateAt_block ?_ ?_ hlen ?_)
  · refine List.Nodup.map_on (fun i hi j hj hij => ?_) hnodup
    have := hpos hi
    have := hpos hj
    omega
  · intro p
    constructor
    · rintro ⟨i, hi, rfl⟩
      have := hpos hi
      have := (his i).mp hi
      omega
    · intro hp
      have hmem : b - 1 - (p - pre.length : ℕ) ∈ is := (his _).mpr (by omega)
      exact ⟨_, hmem, by have := hpos hmem; omega⟩
  · intro i hi x hx
    have := hpos hi
    have := (his i).mp hi
    rw [← hf (position visible i - pre.length) x hx]
    congr 1
    omega

theorem nodup_lineRange (a b : ℤ) : (lineRange a b).Nodup := by
  refine List.Nodup.map (fun i j hij => ?_) List.nodup_range
  simpa using hij

/-! ### Numbering the lines -/

/-- The rows `rows`, the bottommost first, numbered from the topmost on. -/
def numbered (rows : List (Row T)) : List (Row T × ℤ) :=
  rows.mapIdx fun p row => (row, (rows.length - 1 - p : ℤ))

@[simp] theorem length_numbered (rows : List (Row T)) : (numbered rows).length = rows.length :=
  List.length_mapIdx

@[simp] theorem map_fst_numbered (rows : List (Row T)) : (numbered rows).map Prod.fst = rows :=
  List.ext_getElem (by simp) fun j hj hj' => by simp [numbered]

/-- The topmost line has the number 0. -/
theorem getLast?_numbered {rows : List (Row T)} (hpos : 0 < rows.length) :
    (numbered rows).getLast?.map Prod.snd = some 0 := by
  rw [List.getLast?_eq_getElem?, length_numbered]
  simp only [numbered, List.getElem?_mapIdx, Option.map_map]
  rw [List.getElem?_eq_getElem (show rows.length - 1 < rows.length by omega)]
  simp only [Option.map_some, Function.comp_apply]
  congr 1
  omega

/-- The bottommost line has the greatest number. -/
theorem head?_numbered {rows : List (Row T)} (hpos : 0 < rows.length) :
    (numbered rows).head?.map Prod.snd = some (rows.length - 1 : ℕ) := by
  rw [List.head?_eq_getElem?]
  simp only [numbered, List.getElem?_mapIdx, Option.map_map]
  rw [List.getElem?_eq_getElem hpos]
  simp only [Option.map_some, Function.comp_apply]
  congr 1
  omega

/-- `reset_stable_row_ids` numbers the lines from the topmost on. -/
theorem resetStableRowIds_holds (h : s.Holds columns visible r) (hfull : r.length = s.inner.length)
    (hv : visible ≤ r.length) :
    ∃ s', s.resetStableRowIds = some s' ∧
      s'.Holds columns visible (numbered (r.map Prod.fst)) := by
  have hids : s.stableRowIds.take s.inner.length ++
      List.replicate (s.inner.length - s.stableRowIds.length) 0 = s.stableRowIds := by
    rw [h.ids_length, Nat.sub_self, List.replicate_zero, List.append_nil, ← h.ids_length,
      List.take_length]
  have hpos : 0 < r.length := by
    have := h.zero_lt
    omega
  have hlen := h.len
  have hvis := h.visibleLines
  unfold resetStableRowIds
  simp only [hids]
  rw [if_neg (by omega)]
  -- the line that has number `n` is `n` below the topmost
  have hline {x : ℤ × ℕ} (hx : x ∈ (lineRange (-(s.len - s.visibleLines : ℕ)) s.visibleLines).zipIdx) :
      x.1 < visible ∧ (position visible x.1 : ℤ) = r.length - 1 - x.2 ∧ x.2 < r.length := by
    obtain ⟨hlt, hget⟩ := List.mem_zipIdx' hx
    simp only [lineRange, List.length_map, List.length_range] at hlt
    simp only [lineRange, List.getElem_map, List.getElem_range] at hget
    rw [hget, cast_position (by omega)]
    omega
  -- the loop is the same updates on the rows, and those make one block of them
  refine foldlM_holds _
    (fun r x => Ring.updateAt (fun y => some (y.1, (x.2 : ℤ))) r (position visible x.1))
    (fun x hx s r r' h hr => setStableRowIdForLine_holds _ h (hline hx).1 hr) h ?_
  have hblock := @Ring.foldlM_updateAt_block (Row T × ℤ) (ℤ × ℕ) (fun x => position visible x.1)
    (fun x y => some (y.1, (x.2 : ℤ)))
    (lineRange (-(s.len - s.visibleLines : ℕ)) s.visibleLines).zipIdx [] r
    (numbered (r.map Prod.fst)) [] ?_ ?_ ?_ ?_
  · simpa using hblock
  -- the places are distinct, and every place has its turn
  · rw [show (fun x : ℤ × ℕ => position visible x.1) = position visible ∘ Prod.fst from rfl,
      ← List.map_map, List.zipIdx_map_fst]
    rw [map_lineRange 0 (n := r.length) (by omega) fun i hi hib => ?_]
    · exact List.nodup_reverse.mpr List.nodup_range'
    · rw [cast_position (by omega)]
      omega
  · intro p
    rw [List.length_nil, Nat.zero_add]
    constructor
    · rintro ⟨x, hx, rfl⟩
      have := hline hx
      omega
    · intro hp
      have hlt : r.length - 1 - p < (lineRange (-(s.len - s.visibleLines : ℕ)) s.visibleLines).length := by
        simp only [lineRange, List.length_map, List.length_range]
        omega
      refine ⟨(_, r.length - 1 - p), List.mk_mem_zipIdx_iff_getElem?.mpr
        (List.getElem?_eq_getElem hlt), ?_⟩
      simp only [lineRange, List.getElem_map, List.getElem_range]
      unfold position
      omega
  · rw [length_numbered, List.length_map]
  · intro x hx y hy
    have := hline hx
    have hid : (r.length : ℤ) - 1 - (position visible x.1 : ℤ) = x.2 := by omega
    simp only [List.length_nil, Nat.sub_zero] at hy ⊢
    simp only [numbered, List.getElem?_mapIdx, List.getElem?_map, hy, Option.map_some,
      List.length_map, hid]

/-- A new storage has blank lines, numbered from the topmost on. -/
theorem withCapacity_holds (columns : ℕ) (hv : 0 < visible) :
    ∃ s : Storage T, withCapacity visible columns = some s ∧
      s.Holds columns visible (numbered (List.replicate visible (Row.new columns))) := by
  have h : Storage.Holds (T := T)
      { inner := List.replicate visible (Row.new columns), zero := 0, visibleLines := visible,
        len := visible, stableRowIds := List.replicate visible 0 } columns visible
      (List.replicate visible (Row.new columns, 0)) := by
    refine ⟨by simp, by simpa using hv, ?_, rfl, by simp, ?_⟩
    · intro row hrow
      rw [List.eq_of_mem_replicate hrow]
      exact Row.clean_new columns
    · rw [ring_of_zero rfl, List.zip_replicate, min_self]
  have hreset := resetStableRowIds_holds h (by simp) (by simp)
  rw [List.map_replicate] at hreset
  exact hreset

end Storage

end Termua.Grid
