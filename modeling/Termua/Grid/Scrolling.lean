import Mathlib
import Termua.Grid.Scroll

/-!
# What scrolling does to the page

The loops of `scroll_up` and `scroll_down` on the blocks of the ring, and with them the page that each
operation of the grid leaves.
-/

namespace Termua.Grid

open Scrollback (Page)

variable {T D : Type} [GridCell T D] {g : Grid T} {raw : Storage T}
  {columns visible k : ℕ} {template : T} {assign : Bool}

/-- A line that was reset with the template. -/
def blankRow (columns : ℕ) (template : T) : Row T :=
  Row.blank columns (GridCell.discriminant template)

/-! ## Grids -/

/-- The grid holds the lines `r`, the bottommost first. -/
structure Holds (g : Grid T) (r : List (Row T × ℤ)) : Prop where
  raw : g.raw.Holds g.columns g.lines r
  columns_pos : 0 < g.columns
  lines_pos : 0 < g.lines
  lines_le : g.lines ≤ r.length
  length_le : r.length ≤ g.lines + g.maxScrollLimit

/-- What scrolling leaves as it is. -/
structure SameFrame (g g' : Grid T) : Prop where
  cursor : g'.cursor = g.cursor
  savedCursor : g'.savedCursor = g.savedCursor
  columns : g'.columns = g.columns
  lines : g'.lines = g.lines
  maxScrollLimit : g'.maxScrollLimit = g.maxScrollLimit

variable {r : List (Row T × ℤ)}

theorem Holds.historySize (h : g.Holds r) : g.historySize = r.length - g.lines := by
  unfold Grid.historySize Dimensions.historySize dimensions
  rw [h.raw.len]

/-- The bounds of the stable ids are those of the topmost and of the bottommost line. -/
structure Bounded (g : Grid T) (r : List (Row T × ℤ)) : Prop where
  min : r.getLast?.map Prod.snd = some g.stableRowMin
  max : r.head?.map Prod.snd = some g.stableRowMax

theorem recalcStableRowBounds_eq (h : g.Holds r) :
    ∃ lowest highest, g.recalcStableRowBounds =
        some { g with stableRowMin := lowest, stableRowMax := highest } ∧
      Bounded { g with stableRowMin := lowest, stableRowMax := highest } r := by
  have hpos := h.lines_pos
  have hle := h.lines_le
  have hlen := h.raw.len
  -- the topmost line is the last of the rows, the bottommost the first
  have htop : r[position g.lines g.dimensions.topmostLine]? = r.getLast? := by
    rw [List.getLast?_eq_getElem?]
    congr 1
    unfold position Dimensions.topmostLine
    have := h.historySize
    unfold Grid.historySize at this
    omega
  have hbottom : r[position g.lines g.dimensions.bottommostLine]? = r.head? := by
    rw [List.head?_eq_getElem?]
    congr 1
    unfold position Dimensions.bottommostLine dimensions
    simp only
    omega
  obtain ⟨top, htop'⟩ : ∃ top, r.getLast? = some top := by
    rw [List.getLast?_eq_getElem?]
    exact ⟨_, List.getElem?_eq_getElem (by omega)⟩
  obtain ⟨bottom, hbottom'⟩ : ∃ bottom, r.head? = some bottom := by
    rw [List.head?_eq_getElem?]
    exact ⟨_, List.getElem?_eq_getElem (by omega)⟩
  refine ⟨top.2, bottom.2, ?_, by rw [htop']; rfl, by rw [hbottom']; rfl⟩
  unfold recalcStableRowBounds
  rw [if_neg (by omega),
    Storage.stableRowIdForLine_eq h.raw (by
      unfold Dimensions.topmostLine
      omega) (htop.trans htop'),
    Storage.stableRowIdForLine_eq h.raw (by
      unfold Dimensions.bottommostLine dimensions
      simp only
      omega) (hbottom.trans hbottom')]
  rfl

theorem Holds.update (h : g.Holds r) {raw' : Storage T} {r' : List (Row T × ℤ)} {offset : ℕ}
    {lowest highest : ℤ} (hraw : raw'.Holds g.columns g.lines r') (hle : g.lines ≤ r'.length)
    (hlen : r'.length ≤ g.lines + g.maxScrollLimit) :
    ({ g with raw := raw', displayOffset := offset, stableRowMin := lowest,
              stableRowMax := highest } : Grid T).Holds r' :=
  ⟨hraw, h.columns_pos, h.lines_pos, hle, hlen⟩

/-- The bounds recomputed where `assign` holds. -/
theorem recalc_if_eq (h : g.Holds r) (assign : Bool) :
    ∃ lowest highest,
      (if assign then g.recalcStableRowBounds else some g) =
        some { g with stableRowMin := lowest, stableRowMax := highest } ∧
      (assign = true → Bounded { g with stableRowMin := lowest, stableRowMax := highest } r) := by
  cases assign with
  | false => exact ⟨g.stableRowMin, g.stableRowMax, rfl, fun h => nomatch h⟩
  | true =>
    obtain ⟨lowest, highest, heq, hbounded⟩ := recalcStableRowBounds_eq h
    exact ⟨lowest, highest, heq, fun _ => hbounded⟩

/-- More scrollback is made for `k` lines, as far as the limit allows. -/
theorem increaseScrollLimit_holds (h : g.Holds r) (k : ℕ) :
    ∃ fresh, fresh.length = min k (g.maxScrollLimit - (r.length - g.lines)) ∧
      (g.increaseScrollLimit k).raw.Holds g.columns g.lines (r ++ fresh) := by
  unfold increaseScrollLimit
  simp only [h.historySize]
  split
  · exact Storage.initializeRows_holds h.raw _
  · next hzero =>
    refine ⟨[], ?_, ?_⟩
    · rw [List.length_nil]
      omega
    · rw [List.append_nil]
      exact h.raw

/-! ## Making room -/

/-- The ring after `scroll_up` from the top of the screen, before the new lines are cleared. -/
private theorem scrollUp_top_raw {below region gone history : List (Row T × ℤ)}
    (h : g.Holds (below ++ ((region ++ gone) ++ history)))
    (hlines : below.length + (region.length + gone.length) = g.lines)
    (hk : gone.length = k) :
    ∃ incoming raw', incoming.length = k ∧
      (lineRange (g.lines - below.length) g.lines).reverse.foldlM
        (fun raw i => raw.swap i (i - k)) ((g.increaseScrollLimit k).raw.rotate (-k)) = some raw' ∧
      raw'.Holds g.columns g.lines
        (below ++ (incoming ++ (region ++ (gone ++ history).take g.maxScrollLimit))) := by
  obtain ⟨fresh, hfresh, hgrown⟩ := increaseScrollLimit_holds h k
  have hlen := h.length_le
  simp only [List.length_append] at hlen hfresh
  obtain ⟨incoming, hincoming, hrot⟩ := Storage.rotate_up_holds hgrown (k := k) (by
    simp only [List.length_append]
    omega)
  -- what is left of the old lines: everything but what exceeds the limit
  have hkeep : (below ++ ((region ++ gone) ++ history) ++ fresh).take
      ((below ++ ((region ++ gone) ++ history) ++ fresh).length - k) =
        below ++ (region ++ (gone ++ history).take g.maxScrollLimit) := by
    have hsplit : below ++ ((region ++ gone) ++ history) ++ fresh =
        (below ++ region) ++ ((gone ++ history) ++ fresh) := by
      simp only [List.append_assoc]
    have htotal : (below ++ ((region ++ gone) ++ history) ++ fresh).length - k =
        (below ++ region).length + min (gone ++ history).length g.maxScrollLimit := by
      simp only [List.length_append]
      omega
    rw [htotal, hsplit, List.take_length_add_append,
      List.take_append_of_le_length (min_le_left _ _), List.append_assoc]
    congr 2
    rcases le_total (gone ++ history).length g.maxScrollLimit with hle | hle
    · rw [min_eq_left hle, List.take_length, List.take_of_length_le hle]
    · rw [min_eq_right hle]
  rw [hkeep] at hrot
  obtain ⟨behind, raw', hbehind, hswap, hholds⟩ := Storage.swap_up_holds [] incoming below
    (a := g.lines - below.length) (b := g.lines) (k := k) hrot (by simp) (by omega) hincoming.symm
  exact ⟨behind, raw', hbehind.length_eq.trans hincoming, hswap, hholds⟩

/-- The ring after the swaps of a region below the top of the screen. -/
private theorem scrollUp_region_raw (start stop : ℤ) {below region gone above : List (Row T × ℤ)}
    (h : g.Holds (below ++ ((region ++ gone) ++ above)))
    (hbelow : (g.lines : ℤ) - stop = below.length)
    (hregion : stop - start = region.length + gone.length) (hk : gone.length = k) :
    ∃ incoming raw', incoming.length = k ∧
      (lineRange start (stop - k)).foldlM (fun raw i => raw.swap i (i + k)) g.raw = some raw' ∧
      raw'.Holds g.columns g.lines (below ++ (incoming ++ (region ++ above))) := by
  have hraw := h.raw
  rw [List.append_assoc region] at hraw
  have hq : ∀ i : ℤ, start ≤ i → i < stop - k →
      (position g.lines (i + k) : ℤ) = below.length + (stop - k - 1 - i) := fun i _ hib => by
    rw [Storage.cast_position (by omega)]
    omega
  obtain ⟨incoming, raw', hincoming, hswap, hholds⟩ := Storage.swap_down_holds _ hraw
    (show stop - k - start = region.length by omega) hk.symm hq fun i _ hib s r r' h hr =>
      Storage.swap_holds (a := i) (b := i + k) h (by omega) (by omega) (by
        rw [Ring.swapAt_comm, show position g.lines i = position g.lines (i + k) + k by
          unfold position
          omega]
        exact hr)
  exact ⟨incoming, raw', hincoming.length_eq.trans hk, hswap, hholds⟩

/-! ## Clearing lines -/

/-- The block `block`, whose bottommost line is the one above `stop`, cleared. -/
def clearedBlock (columns : ℕ) (template : T) (assign : Bool) (id : ℤ → ℤ) (stop : ℤ)
    (block : List (Row T × ℤ)) : List (Row T × ℤ) :=
  block.mapIdx fun j x => (blankRow columns template, if assign then id (stop - 1 - j) else x.2)

@[simp] theorem length_clearedBlock (id : ℤ → ℤ) (stop : ℤ) (block : List (Row T × ℤ)) :
    (clearedBlock columns template assign id stop block).length = block.length :=
  List.length_mapIdx

variable [DecidableEq D]

theorem clearLine_false (raw : Storage T) (line id : ℤ) :
    clearLine false template raw line id = resetLine template raw line := by
  unfold clearLine
  rcases resetLine template raw line with _ | raw' <;> rfl

/-- `clear_line` rewrites the row of a line and, when asked to, its id. -/
theorem clearLine_holds {r r' : List (Row T × ℤ)} {line id : ℤ}
    (h : raw.Holds columns visible r) (hpos : 0 < columns) (hline : line < visible)
    (hr : Ring.updateAt
      (fun x => some (blankRow columns template, if assign then id else x.2)) r
      (position visible line) = some r') :
    ∃ raw', clearLine assign template raw line id = some raw' ∧ raw'.Holds columns visible r' := by
  obtain ⟨b, hget, rfl⟩ : ∃ b, r[position visible line]? = some b ∧
      r.set (position visible line) (blankRow columns template, if assign then id else b.2) = r' := by
    simpa [Ring.updateAt, Option.bind_eq_some_iff] using hr
  have hclean := h.clean (List.mem_of_getElem? hget)
  have hlt := (List.getElem?_eq_some_iff.mp hget).1
  obtain ⟨raw', hraw', hholds⟩ := Storage.modifyRow_holds h hline (f := (·.reset template))
    (fun row row' hrow h => by
      rw [Row.reset_eq hrow hpos] at h
      obtain rfl := Option.some.inj h
      exact Row.clean_blank columns _)
    (Ring.updateAt_eq_some hget (b := (blankRow columns template, b.2))
      (by rw [Row.reset_eq hclean hpos]; rfl))
  unfold clearLine resetLine
  rw [hraw']
  cases assign with
  | false => exact ⟨raw', rfl, hholds⟩
  | true =>
    obtain ⟨raw'', hraw'', hholds'⟩ := Storage.setStableRowIdForLine_holds id hholds hline
      (Ring.updateAt_eq_some (a := (blankRow columns template, b.2))
        (b := (blankRow columns template, id)) (List.getElem?_set_self hlt) rfl)
    rw [List.set_set] at hholds'
    exact ⟨raw'', hraw'', hholds'⟩

/-- A loop that clears the lines of a block, in any order. -/
theorem clearLines_holds (assign : Bool) (template : T) (id : ℤ → ℤ) (a b : ℤ)
    (pre block post : List (Row T × ℤ)) {is : List ℤ}
    (h : raw.Holds columns visible (pre ++ (block ++ post))) (hpos : 0 < columns)
    (hb : (visible : ℤ) - b = pre.length) (hn : b - a = block.length) (hnodup : is.Nodup)
    (his : ∀ i, i ∈ is ↔ a ≤ i ∧ i < b) :
    ∃ raw', is.foldlM (fun raw i => clearLine assign template raw i (id i)) raw = some raw' ∧
      raw'.Holds columns visible
        (pre ++ (clearedBlock columns template assign id b block ++ post)) := by
  refine Storage.update_holds
    (fun i x => some (blankRow columns template, if assign then id i else x.2)) pre block _ post h hb hn
    (length_clearedBlock id b block) hnodup his ?_ ?_
  · intro j x hx
    simp only [clearedBlock, List.getElem?_mapIdx, hx, Option.map_some]
  · intro i hi s r r' h hr
    exact clearLine_holds h hpos (by have := (his i).mp hi; omega) hr

/-- The loop that counts the ids of the lines it clears is the loop that computes them. -/
theorem foldlM_clear_counting (assign : Bool) (template : T) (raw : Storage T) (c d e a : ℤ) (n : ℕ) :
    (lineRange a (a + n)).foldlM
        (fun (p : Storage T × ℤ) i =>
          (clearLine assign template p.1 i (p.2 + e)).map fun raw => (raw, p.2 + d)) (raw, c) =
      ((lineRange a (a + n)).foldlM
        (fun raw i => clearLine assign template raw i (c + (i - a) * d + e)) raw).map
          fun raw => (raw, c + n * d) := by
  have hrange : lineRange a (a + n) = (List.range n).map fun j : ℕ => a + j := by
    unfold lineRange
    rw [show (a + n - a).toNat = n by omega]
  rw [hrange, List.foldlM_map, List.foldlM_map,
    Ring.foldlM_counter (f := fun raw j x => clearLine assign template raw (a + j) (x + e))]
  simp only [add_sub_cancel_left]

omit [DecidableEq D] in
theorem blank_of_mem_clearedBlock {id : ℤ → ℤ} {stop : ℤ} {block : List (Row T × ℤ)} {x : Row T × ℤ}
    (hx : x ∈ clearedBlock columns template assign id stop block) :
    x.1 = blankRow columns template := by
  simp only [clearedBlock, List.mem_mapIdx] at hx
  obtain ⟨j, hj, rfl⟩ := hx
  rfl

/-- The lines of a block are cleared, and counted from `c` on by `d`. -/
theorem clearCounting_holds (assign : Bool) (template : T) (c d e : ℤ) {a b : ℤ}
    {pre block post : List (Row T × ℤ)} (h : raw.Holds columns visible (pre ++ (block ++ post)))
    (hpos : 0 < columns) (hb : (visible : ℤ) - b = pre.length) (hn : b - a = block.length) :
    ∃ raw' fresh,
      (lineRange a b).foldlM
        (fun (p : Storage T × ℤ) i =>
          (clearLine assign template p.1 i (p.2 + e)).map fun raw => (raw, p.2 + d)) (raw, c) =
        some (raw', c + block.length * d) ∧
      raw'.Holds columns visible (pre ++ (fresh ++ post)) ∧ fresh.length = block.length ∧
      (∀ x ∈ fresh, x.1 = blankRow columns template) ∧
      (assign = true →
        ∀ (j : ℕ) x, fresh[j]? = some x → x.2 = c + (block.length - 1 - j) * d + e) := by
  obtain ⟨raw', hclear, hholds⟩ := clearLines_holds assign template (fun i => c + (i - a) * d + e) a b
    pre block post h hpos hb hn (Storage.nodup_lineRange a b) fun i => Storage.mem_lineRange
  have hloop := foldlM_clear_counting assign template raw c d e a block.length
  rw [show a + block.length = b by omega, hclear, Option.map_some] at hloop
  refine ⟨raw', _, hloop, hholds, length_clearedBlock .., fun x hx => blank_of_mem_clearedBlock hx,
    fun ha j x hx => ?_⟩
  simp only [clearedBlock, List.getElem?_mapIdx, Option.map_eq_some_iff] at hx
  obtain ⟨y, -, rfl⟩ := hx
  simp only [ha, if_true]
  rw [show b - 1 - (j : ℤ) - a = block.length - 1 - j by omega]

/-- The lines of a block are reset and keep their ids. -/
theorem resetBlock_holds (start stop : ℤ) {pre block post : List (Row T × ℤ)}
    (h : g.Holds (pre ++ (block ++ post))) (hstop : (g.lines : ℤ) - stop = pre.length)
    (hstart : stop - start = block.length) :
    ∃ raw' fresh, (lineRange start stop).foldlM (resetLine g.cursor.template) g.raw = some raw' ∧
      ({ g with raw := raw' } : Grid T).Holds (pre ++ (fresh ++ post)) ∧
      (∀ x ∈ fresh, x.1 = blankRow g.columns g.cursor.template) ∧
      fresh.map Prod.snd = block.map Prod.snd := by
  obtain ⟨raw', hraw', hholds⟩ := clearLines_holds false g.cursor.template (fun _ => 0) start stop pre
    block post h.raw h.columns_pos hstop hstart (Storage.nodup_lineRange start stop)
    fun i => Storage.mem_lineRange
  simp only [clearLine_false] at hraw'
  have hlen := @length_clearedBlock _ _ _ g.columns g.cursor.template false (fun _ => 0) stop block
  have hall := h.length_le
  have hle := h.lines_le
  simp only [List.length_append] at hall hle
  refine ⟨raw', _, hraw', h.update hholds ?_ ?_, fun x hx => blank_of_mem_clearedBlock hx, ?_⟩
  · simp only [List.length_append, hlen]
    omega
  · simp only [List.length_append, hlen]
    omega
  · refine List.ext_getElem (by simp) fun j hj hj' => ?_
    simp [clearedBlock]

/-! ## Scrolling up -/

/-- What `scroll_up` makes of the lines, on whichever path. -/
structure ScrolledUp (g g' : Grid T) (start stop positions : ℕ) (fresh r' : List (Row T × ℤ)) :
    Prop where
  frame : SameFrame g g'
  blank : ∀ x ∈ fresh, x.1 = blankRow g.columns g.cursor.template
  displayOffset : g'.displayOffset =
    if start ≠ 0 ∧ stop - start ≤ positions then g.displayOffset
    else if g.displayOffset ≠ 0 then min (g.displayOffset + positions) g.maxScrollLimit
    else g.displayOffset
  ids : start = 0 → stop = g.lines →
    ∀ (j : ℕ) x, fresh[j]? = some x → x.2 = g.stableRowMax + (positions - j)
  bounded : start = 0 → stop = g.lines → g'.Bounded r'

/-- What is left of the scrollback, which gets the lines that leave the top of the screen. -/
def keptHistory (start maxScrollLimit : ℕ) (gone history : List (Row T × ℤ)) : List (Row T × ℤ) :=
  if start = 0 then (gone ++ history).take maxScrollLimit else history

omit [DecidableEq D] in
/-- The lines move up by the number of those that leave, and as many come in under them. -/
private theorem moveUp_holds {below region gone above history : List (Row T × ℤ)}
    {start stop positions : ℕ} (h : g.Holds (below ++ ((region ++ gone) ++ (above ++ history))))
    (hbelow : below.length + stop = g.lines) (hstart : above.length = start)
    (hstop : start + (gone.length + region.length) = stop) (hk : gone.length = positions) :
    ∃ incoming raw', incoming.length = positions ∧ g.moveUp start stop positions = some raw' ∧
      raw'.Holds g.columns g.lines (below ++ (incoming ++
        (region ++ (above ++ keptHistory start g.maxScrollLimit gone history)))) := by
  unfold moveUp keptHistory
  by_cases h0 : start = 0
  · obtain rfl : above = [] := List.length_eq_zero_iff.mp (hstart.trans h0)
    obtain ⟨incoming, raw', hlength, hraw', hholds⟩ := scrollUp_top_raw (by simpa using h) (by omega) hk
    refine ⟨incoming, raw', hlength, ?_, by rw [if_pos h0]; exact hholds⟩
    rw [if_pos (by omega), h0, show (stop : ℤ) = g.lines - below.length by omega]
    exact hraw'
  · obtain ⟨incoming, raw', hlength, hraw', hholds⟩ :=
      scrollUp_region_raw start stop h (by omega) (by omega) hk
    refine ⟨incoming, raw', hlength, ?_, by rw [if_neg h0]; exact hholds⟩
    rw [if_neg (by omega)]
    exact hraw'

/-- The loop of `scroll_up` that clears the lines that came in. -/
private theorem clearIncoming_holds (assign : Bool) (template : T) (highest stop positions : ℤ)
    {below incoming rest : List (Row T × ℤ)} (h : raw.Holds columns visible (below ++ (incoming ++ rest)))
    (hpos : 0 < columns) (hbelow : (visible : ℤ) - stop = below.length)
    (hlength : positions = incoming.length) :
    ∃ raw' fresh,
      (lineRange (stop - positions) stop).foldlM
        (fun (p : Storage T × ℤ) i => do
          let stableRowMax := if assign then p.2 + 1 else p.2
          let raw ← clearLine assign template p.1 i stableRowMax
          return (raw, stableRowMax)) (raw, highest) =
        some (raw', if assign then highest + positions else highest) ∧
      raw'.Holds columns visible (below ++ (fresh ++ rest)) ∧ fresh.length = incoming.length ∧
      (∀ x ∈ fresh, x.1 = blankRow columns template) ∧
      (assign = true → ∀ (j : ℕ) x, fresh[j]? = some x → x.2 = highest + (positions - j)) := by
  -- the counter goes up where ids are given out
  have hcount (c n : ℤ) : (if assign then c + n else c) = c + n * if assign then 1 else 0 := by
    split <;> omega
  obtain ⟨raw', fresh, hloop, hholds, hfresh, hblank, hids⟩ := clearCounting_holds assign template highest
    (if assign then 1 else 0) (if assign then 1 else 0) h hpos hbelow
    (show stop - (stop - positions) = incoming.length by omega)
  refine ⟨raw', fresh, ?_, hholds, hfresh, hblank, fun ha j x hx => ?_⟩
  · rw [hcount, hlength, ← hloop, hlength]
    congr 1
    funext p i
    simp only [hcount, one_mul, Option.map_eq_bind, Option.pure_def, Option.bind_eq_bind]
    rfl
  · rw [hids ha j x hx, ha, hlength]
    simp only [if_true]
    omega

theorem scrollUp_holds {below region gone above history : List (Row T × ℤ)}
    {start stop positions : ℕ}
    (h : g.Holds (below ++ ((region ++ gone) ++ (above ++ history))))
    (hbelow : below.length + stop = g.lines) (hstart : above.length = start)
    (hstop : start + (gone.length + region.length) = stop)
    (hk : gone.length = min positions (stop - start)) (htop : start = 0 → positions ≤ stop) :
    ∃ g' fresh r', g.scrollUp start stop positions = some g' ∧ fresh.length = gone.length ∧
      r' = below ++ ((fresh ++ region) ++ (above ++
        if start = 0 then (gone ++ history).take g.maxScrollLimit else history)) ∧
      g'.Holds r' ∧ ScrolledUp g g' start stop positions fresh r' := by
  by_cases hreset : start ≠ 0 ∧ stop - start ≤ positions
  · -- the whole region goes: its lines are reset
    obtain rfl : region = [] := List.length_eq_zero_iff.mp (by omega)
    rw [List.nil_append] at h
    obtain ⟨raw', fresh, hraw', hholds, hblank, hids⟩ :=
      resetBlock_holds start stop h (by omega) (by omega)
    refine ⟨{ g with raw := raw' }, fresh, _, ?_, by simpa using congrArg List.length hids, rfl, ?_,
      ⟨⟨rfl, rfl, rfl, rfl, rfl⟩, hblank, ?_, fun h0 => absurd h0 hreset.1,
        fun h0 => absurd h0 hreset.1⟩⟩
    · unfold scrollUp
      rw [if_pos (by omega)]
      simp only [hraw', Option.bind_eq_bind, Option.bind_some, Option.pure_def]
    · rw [if_neg hreset.1, List.append_nil]
      exact hholds
    · rw [if_pos hreset]
  · have hpositions : gone.length = positions := by
      by_cases h0 : start = 0
      · have := htop h0
        omega
      · omega
    obtain ⟨incoming, raw₁, hincoming, hraw₁, hholds₁⟩ := moveUp_holds h hbelow hstart hstop hpositions
    set assign := decide ((start : ℤ) = 0 ∧ (stop : ℤ) = g.lines) with hassign
    obtain ⟨raw₂, fresh, hraw₂, hholds₂, hfresh, hblank, hids⟩ := clearIncoming_holds assign
      g.cursor.template g.stableRowMax stop positions hholds₁ h.columns_pos (by omega) (by omega)
    -- the display offset and the stable ids belong to the new lines
    let moved : Grid T :=
      { g with
        raw := raw₂
        displayOffset := if g.displayOffset ≠ 0 then
          min (g.displayOffset + positions) g.maxScrollLimit else g.displayOffset
        stableRowMax := if assign then g.stableRowMax + positions else g.stableRowMax }
    have hmoved : moved.Holds
        (below ++ ((fresh ++ region) ++ (above ++ keptHistory start g.maxScrollLimit gone history))) := by
      have hlen := h.length_le
      simp only [List.length_append] at hlen
      refine h.update (by rw [List.append_assoc fresh]; exact hholds₂) ?_ ?_
      · simp only [List.length_append]
        omega
      · unfold keptHistory
        split
        · simp only [List.length_append, List.length_take]
          omega
        · simp only [List.length_append]
          omega
    obtain ⟨lowest, highest, hrecalc, hbounded⟩ := recalc_if_eq hmoved assign
    have hassigned (h0 : start = 0) (h1 : stop = g.lines) : assign = true := by
      rw [hassign, decide_eq_true_iff]
      omega
    refine ⟨{ moved with stableRowMin := lowest, stableRowMax := highest }, fresh, _, ?_,
      hfresh.trans (hincoming.trans hpositions.symm), rfl,
      hmoved.update hmoved.raw hmoved.lines_le hmoved.length_le, ⟨rfl, rfl, rfl, rfl, rfl⟩, hblank,
      by rw [if_neg hreset], fun h0 h1 => hids (hassigned h0 h1),
      fun h0 h1 => hbounded (hassigned h0 h1)⟩
    unfold scrollUp
    rw [if_neg (by omega)]
    simp only [← hassign, hraw₁, Option.bind_eq_bind, Option.bind_some] at hraw₂ ⊢
    rw [hraw₂]
    exact hrecalc

/-! ## Scrolling down -/

/-- What `scroll_down` makes of the lines, on whichever path. -/
structure ScrolledDown (g g' : Grid T) (start stop positions : ℕ) (gone fresh r' : List (Row T × ℤ)) :
    Prop where
  frame : SameFrame g g'
  blank : ∀ x ∈ fresh, x.1 = blankRow g.columns g.cursor.template
  displayOffset : g'.displayOffset = g.displayOffset
  ids : start = 0 → stop = g.lines → positions < stop →
    ∀ (j : ℕ) x, fresh[j]? = some x → x.2 = g.stableRowMin - 1 - j
  bounded : start = 0 → stop = g.lines → positions < stop → g'.Bounded r'
  kept : stop - start ≤ positions →
    fresh.map Prod.snd = gone.map Prod.snd ∧ g'.stableRowMin = g.stableRowMin ∧
      g'.stableRowMax = g.stableRowMax

/-- The lines after `scroll_down` of the whole buffer, which has no scrollback. -/
private theorem scrollDown_rotate {below region gone above : List (Row T × ℤ)}
    {start stop positions : ℕ} (h : g.Holds (below ++ ((gone ++ region) ++ above)))
    (hbelow : below.length + stop = g.lines) (hstart : above.length = start)
    (hstop : start + (gone.length + region.length) = stop) (hk : gone.length = positions)
    (assign : Bool) (lowest : ℤ) (hassign : assign = true → start = 0) :
    ∃ raw₁ raw₂ raw₃ fresh next,
      (lineRange stop g.lines).foldlM (fun raw i => raw.swap i (i - positions)) g.raw = some raw₁ ∧
      (lineRange 0 positions).foldlM
        (fun (p : Storage T × ℤ) i => do
          let raw ← clearLine assign g.cursor.template p.1 i p.2
          return (raw, if assign then p.2 + 1 else p.2)) (raw₁.rotateDown positions, lowest) =
        some (raw₂, next) ∧
      (lineRange 0 start).foldlM (fun raw i => raw.swap i (i + positions)) raw₂ = some raw₃ ∧
      raw₃.Holds g.columns g.lines (below ++ (region ++ (fresh ++ above))) ∧
      fresh.length = positions ∧ (∀ x ∈ fresh, x.1 = blankRow g.columns g.cursor.template) ∧
      (assign = true →
        ∀ (j : ℕ) x, fresh[j]? = some x → x.2 = lowest + (positions - 1 - j)) := by
  have hcols := h.columns_pos
  have hraw := h.raw
  rw [List.append_assoc gone] at hraw
  -- the lines fixed at the bottom get above those that leave
  have hq : ∀ i : ℤ, (stop : ℤ) ≤ i → i < g.lines →
      (position g.lines i : ℤ) = ([] : List (Row T × ℤ)).length + (g.lines - 1 - i) :=
    fun i _ hi => by
      rw [Storage.cast_position (by omega), List.length_nil]
      omega
  obtain ⟨outgoing, raw₁, houtgoing, hswap₁, hholds₁⟩ := Storage.swap_down_holds [] hraw
    (show (g.lines : ℤ) - stop = below.length by omega) hk.symm hq fun i _ hi s r r' h hr =>
      Storage.swap_holds (a := i) (b := i - positions) h (by omega) (by omega) (by
        rw [show position g.lines (i - positions) = position g.lines i + positions by
          unfold position
          omega]
        exact hr)
  rw [List.nil_append] at hholds₁
  have hlenOut : outgoing.length = positions := houtgoing.length_eq.trans hk
  obtain ⟨incoming, hincoming, hholds₂⟩ := Storage.rotate_down_holds hholds₁ (k := positions)
    (by simp only [List.length_append]; omega)
  rw [List.drop_left' hlenOut] at hholds₂
  -- the lines that come in at the top are cleared, and counted where ids are given out
  have hcount (c : ℤ) : (if assign then c + 1 else c) = c + if assign then 1 else 0 := by
    split <;> omega
  obtain ⟨raw₂, cleared, hloop, hholds₃, hclearedLen, hblank, hids⟩ := clearCounting_holds assign
    g.cursor.template lowest (if assign then 1 else 0) 0
    (show (raw₁.rotateDown positions).Holds g.columns g.lines
      ((below ++ (region ++ above)) ++ (incoming ++ [])) by simpa using hholds₂) hcols
    (show (g.lines : ℤ) - positions = _ by simp only [List.length_append]; omega)
    (show (positions : ℤ) - 0 = incoming.length by omega)
  rw [hincoming] at hclearedLen
  -- the lines fixed at the top go back over them
  have hq' : ∀ i : ℤ, 0 ≤ i → i < start →
      (position g.lines (i + positions) : ℤ) = (below ++ region).length + (start - 1 - i) :=
    fun i _ hi => by
      rw [Storage.cast_position (by omega), List.length_append]
      omega
  have hholds₃' : raw₂.Holds g.columns g.lines
      ((below ++ region) ++ (above ++ (cleared ++ []))) := by
    simpa using hholds₃
  obtain ⟨fresh, raw₃, hfresh, hswap₃, hholds₄⟩ := Storage.swap_down_holds _ hholds₃'
    (show (start : ℤ) - 0 = above.length by omega) hclearedLen.symm hq' fun i _ hi s r r' h hr =>
      Storage.swap_holds (a := i) (b := i + positions) h (by omega) (by omega) (by
        rw [Ring.swapAt_comm, show position g.lines i = position g.lines (i + positions) + positions by
          unfold position
          omega]
        exact hr)
  have hloop' : (lineRange 0 positions).foldlM
      (fun (p : Storage T × ℤ) i => do
        let raw ← clearLine assign g.cursor.template p.1 i p.2
        return (raw, if assign then p.2 + 1 else p.2)) (raw₁.rotateDown positions, lowest) =
        some (raw₂, lowest + incoming.length * if assign then 1 else 0) := by
    rw [← hloop]
    congr 1
    funext p i
    simp only [hcount, add_zero, Option.map_eq_bind, Option.pure_def, Option.bind_eq_bind]
    rfl
  refine ⟨raw₁, raw₂, raw₃, fresh, _, hswap₁, hloop', hswap₃, by simpa using hholds₄,
    hfresh.length_eq.trans hclearedLen, fun x hx => hblank x (hfresh.mem_iff.mp hx), fun ha => ?_⟩
  -- ids are given out where no line is fixed at the top, and then nothing goes back
  have h0 := hassign ha
  obtain rfl : above = [] := List.length_eq_zero_iff.mp (hstart.trans h0)
  obtain rfl : raw₂ = raw₃ := by simpa [h0, lineRange] using hswap₃
  have hsame := hholds₃'.unique hholds₄
  rw [List.append_cancel_left_eq] at hsame
  obtain rfl : cleared = fresh := by simpa using hsame
  intro j x hx
  rw [hids ha j x hx, ha, hincoming]
  simp only [if_true]
  omega

/-- The lines after `scroll_down` of a region under a scrollback. -/
private theorem scrollDown_swap {below region gone above : List (Row T × ℤ)}
    {start stop positions : ℕ} (h : g.Holds (below ++ ((gone ++ region) ++ above)))
    (hbelow : below.length + stop = g.lines)
    (hstop : start + (gone.length + region.length) = stop) (hk : gone.length = positions)
    (assign : Bool) (lowest : ℤ) :
    ∃ raw₁ raw₂ fresh,
      (lineRange (start + positions) stop).reverse.foldlM
        (fun raw i => raw.swap i (i - positions)) g.raw = some raw₁ ∧
      (lineRange start (start + positions)).reverse.foldlM
        (fun raw i => clearLine assign g.cursor.template raw i (lowest + (i - start))) raw₁ =
          some raw₂ ∧
      raw₂.Holds g.columns g.lines (below ++ (region ++ (fresh ++ above))) ∧
      fresh.length = positions ∧ (∀ x ∈ fresh, x.1 = blankRow g.columns g.cursor.template) ∧
      (assign = true →
        ∀ (j : ℕ) x, fresh[j]? = some x → x.2 = lowest + (positions - 1 - j)) := by
  have hraw := h.raw
  rw [List.append_assoc gone] at hraw
  obtain ⟨behind, raw₁, hbehind, hswap, hholds₁⟩ := Storage.swap_up_holds _ _ _
    (a := start + positions) (b := stop) hraw (by omega) (by omega) hk.symm
  have hlen : behind.length = positions := hbehind.length_eq.trans hk
  obtain ⟨raw₂, hclear, hholds₂⟩ := clearLines_holds assign g.cursor.template
    (fun i => lowest + (i - start)) start (start + positions) (below ++ region) behind above
    (by simpa using hholds₁) h.columns_pos (by simp only [List.length_append]; omega) (by omega)
    (List.nodup_reverse.mpr (Storage.nodup_lineRange start (start + positions))) fun i => by
      rw [List.mem_reverse, Storage.mem_lineRange]
  refine ⟨raw₁, raw₂, _, hswap, hclear, by simpa using hholds₂, by simpa using hlen,
    fun x hx => blank_of_mem_clearedBlock hx, fun ha j x hx => ?_⟩
  simp only [clearedBlock, List.getElem?_mapIdx, Option.map_eq_some_iff] at hx
  obtain ⟨y, hy, rfl⟩ := hx
  simp only [ha, if_true]
  omega

/-- The lines of the region move down by the number of those that leave, and as many come in over them. -/
private theorem moveDown_holds {below region gone above : List (Row T × ℤ)} {start stop positions : ℕ}
    (h : g.Holds (below ++ ((gone ++ region) ++ above))) (hbelow : below.length + stop = g.lines)
    (hstart : start ≤ above.length) (hstop : start + (gone.length + region.length) = stop)
    (hk : gone.length = positions) (assign : Bool) (lowest : ℤ) (hassign : assign = true → start = 0) :
    ∃ raw' fresh, g.moveDown start stop positions assign lowest = some raw' ∧
      raw'.Holds g.columns g.lines (below ++ (region ++ (fresh ++ above))) ∧
      fresh.length = positions ∧ (∀ x ∈ fresh, x.1 = blankRow g.columns g.cursor.template) ∧
      (assign = true →
        ∀ (j : ℕ) x, fresh[j]? = some x → x.2 = lowest + (positions - 1 - j)) := by
  unfold moveDown
  by_cases hmax : g.maxScrollLimit = 0
  · -- without a scrollback the lines above the region are all lines of the screen
    have hlen := h.length_le
    simp only [List.length_append] at hlen
    obtain ⟨raw₁, raw₂, raw₃, fresh, next, h₁, h₂, h₃, hholds, hrest⟩ :=
      scrollDown_rotate h hbelow (by omega) hstop hk assign lowest hassign
    refine ⟨raw₃, fresh, ?_, hholds, hrest⟩
    rw [if_pos hmax, h₁]
    simp only [Option.bind_eq_bind, Option.bind_some] at h₂ ⊢
    rw [h₂]
    exact h₃
  · obtain ⟨raw₁, raw₂, fresh, h₁, h₂, hholds, hrest⟩ :=
      scrollDown_swap h hbelow hstop hk assign lowest
    refine ⟨raw₂, fresh, ?_, hholds, hrest⟩
    rw [if_neg hmax, h₁]
    exact h₂

theorem scrollDown_holds {below region gone above : List (Row T × ℤ)} {start stop positions : ℕ}
    (h : g.Holds (below ++ ((gone ++ region) ++ above)))
    (hbelow : below.length + stop = g.lines) (hstart : start ≤ above.length)
    (hstop : start + (gone.length + region.length) = stop)
    (hk : gone.length = min positions (stop - start)) :
    ∃ g' fresh r', g.scrollDown start stop positions = some g' ∧ fresh.length = gone.length ∧
      r' = below ++ ((region ++ fresh) ++ above) ∧ g'.Holds r' ∧
      ScrolledDown g g' start stop positions gone fresh r' := by
  unfold scrollDown
  simp only
  by_cases hreset : stop - start ≤ positions
  · -- the whole region goes: its lines are reset
    obtain rfl : region = [] := List.length_eq_zero_iff.mp (by omega)
    rw [List.append_nil] at h
    obtain ⟨raw', fresh, hraw', hholds, hblank, hids⟩ :=
      resetBlock_holds start stop h (by omega) (by omega)
    refine ⟨{ g with raw := raw' }, fresh, _, ?_, by simpa using congrArg List.length hids, rfl, hholds,
      ⟨⟨rfl, rfl, rfl, rfl, rfl⟩, hblank, rfl, fun _ _ _ => by omega, fun _ _ _ => by omega,
        fun _ => ⟨hids, rfl, rfl⟩⟩⟩
    rw [if_pos (by omega)]
    simp only [hraw', Option.bind_eq_bind, Option.bind_some, Option.pure_def]
  · have hpositions : gone.length = positions := by omega
    set assign := decide ((start : ℤ) = 0 ∧ (stop : ℤ) = g.lines) with hassign
    -- the new lines get the ids below that of the topmost one
    set lowest := if (assign : Prop) ∧ positions ≠ 0 then g.stableRowMin - positions
      else g.stableRowMin with hlowest
    obtain ⟨raw', fresh, hraw', hholds, hlength, hblank, hids⟩ := moveDown_holds h hbelow hstart hstop
      hpositions assign lowest fun ha => by
        rw [hassign, decide_eq_true_iff] at ha
        omega
    let moved : Grid T := { g with raw := raw', stableRowMin := lowest }
    have hmoved : moved.Holds (below ++ ((region ++ fresh) ++ above)) := by
      have hlen := h.length_le
      have hle := h.lines_le
      simp only [List.length_append] at hlen hle
      refine h.update (by rw [List.append_assoc region]; exact hholds) ?_ ?_
      · simp only [List.length_append]
        omega
      · simp only [List.length_append]
        omega
    obtain ⟨lowest', highest, hrecalc, hbounded⟩ := recalc_if_eq hmoved assign
    have hassigned (h0 : start = 0) (h1 : stop = g.lines) : assign = true := by
      rw [hassign, decide_eq_true_iff]
      omega
    refine ⟨{ moved with stableRowMin := lowest', stableRowMax := highest }, fresh, _, ?_,
      hlength.trans hpositions.symm, rfl,
      hmoved.update hmoved.raw hmoved.lines_le hmoved.length_le, ⟨rfl, rfl, rfl, rfl, rfl⟩, hblank,
      rfl, fun h0 h1 _ j x hx => ?_, fun h0 h1 _ => hbounded (hassigned h0 h1),
      fun hle => absurd hle hreset⟩
    · rw [if_neg (by omega), hraw']
      exact hrecalc
    · -- there is a new line, so that lines moved
      have hlt := (List.getElem?_eq_some_iff.mp hx).1
      rw [hids (hassigned h0 h1) j x hx, hlowest, if_pos ⟨hassigned h0 h1, by omega⟩]
      omega

end Termua.Grid
