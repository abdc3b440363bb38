import Mathlib

/-!
# A screen with scrollback

A page is a screen of rows, the topmost first, and the rows that scrolled off its top, the newest
first, at most `limit` of them. Regions of the screen scroll up and down; only what leaves at the top
of the screen enters the history.

`Page.Recent` says what the history is: the newest rows of the log of all rows that left at the top.
`Page.displayed` are the rows shown when the display is moved back into the history; `Page.displayed_scrollUp`
says how far it has to move with a screen that scrolls for them to stay.
-/

namespace Scrollback

variable {R : Type*}

/-- A screen and the rows above it. -/
structure Page (R : Type*) where
  screen : List R
  history : List R
  deriving DecidableEq, Repr

namespace Page

variable {p : Page R} {blank : R} {limit start stop k : ℕ}

/-- The page whose lines, the bottommost first, are `lines`, with the first `n` on the screen. -/
def ofLines (n : ℕ) (lines : List R) : Page R := ⟨(lines.take n).reverse, lines.drop n⟩

/-- The rows `start..stop` move up by `k`. -/
def scrollUp (limit : ℕ) (blank : R) (start stop k : ℕ) (p : Page R) : Page R where
  screen := p.screen.take start ++ ((p.screen.take stop).drop (start + k) ++
    (List.replicate k blank ++ p.screen.drop stop))
  history :=
    if start = 0 then ((p.screen.take k).reverse ++ p.history).take limit else p.history

/-- The rows `start..stop` move down by `k`. -/
def scrollDown (blank : R) (start stop k : ℕ) (p : Page R) : Page R :=
  { p with
    screen := p.screen.take start ++ (List.replicate k blank ++
      ((p.screen.take (stop - k)).drop start ++ p.screen.drop stop)) }

/-- The rows `start..stop` are cleared. -/
def clear (blank : R) (start stop : ℕ) (p : Page R) : Page R :=
  { p with
    screen := p.screen.take start ++ (List.replicate (stop - start) blank ++ p.screen.drop stop) }

/-- The history gets another limit. -/
def setLimit (limit : ℕ) (p : Page R) : Page R := { p with history := p.history.take limit }

/-- A row is rewritten; the rows of the history have negative numbers, the newest `-1`. -/
def modify (line : ℤ) (f : R → R) (p : Page R) : Page R :=
  if 0 ≤ line then { p with screen := p.screen.modify line.toNat f }
  else { p with history := p.history.modify (-line - 1).toNat f }

/-! ## Pages by their lines -/

/-- The lines of a page written as blocks: what is below a region, the region, what is above it on the
screen, and the history. -/
theorem ofLines_blocks {n : ℕ} {below region above history : List R}
    (hn : below.length + region.length + above.length = n) :
    ofLines n (below ++ (region ++ (above ++ history))) =
      ⟨above.reverse ++ (region.reverse ++ below.reverse), history⟩ := by
  have hscreen : below ++ (region ++ (above ++ history)) =
      (below ++ (region ++ above)) ++ history := by
    simp only [List.append_assoc]
  have hlen : (below ++ (region ++ above)).length = n := by
    simp only [List.length_append]
    omega
  unfold ofLines
  rw [hscreen, List.take_left' hlen, List.drop_left' hlen]
  simp only [List.reverse_append, List.append_assoc]

section Blocks

/-- The parts of a list of four blocks. -/
private theorem take_drop_blocks (a b c d : List R) (start k stop : ℕ) (ha : a.length = start)
    (hb : b.length = k) (hc : start + (k + c.length) = stop) :
    (a ++ (b ++ (c ++ d))).take start = a ∧
      ((a ++ (b ++ (c ++ d))).take stop).drop start = b ++ c ∧
      ((a ++ (b ++ (c ++ d))).take stop).drop (start + k) = c ∧
      (a ++ (b ++ (c ++ d))).drop stop = d := by
  have hall : a ++ (b ++ (c ++ d)) = (a ++ (b ++ c)) ++ d := by simp only [List.append_assoc]
  have hstop : (a ++ (b ++ c)).length = stop := by simp only [List.length_append]; omega
  refine ⟨List.take_left' ha, ?_, ?_, ?_⟩
  · rw [hall, List.take_left' hstop, List.drop_left' ha]
  · rw [hall, List.take_left' hstop, ← List.append_assoc,
      List.drop_left' (by rw [List.length_append]; omega)]
  · rw [hall, List.drop_left' hstop]

/-- Scrolling a region up, on the blocks of the lines: the `k` topmost rows of the region make room
for blank ones at its bottom, and enter the history from the top of the screen. -/
theorem scrollUp_blocks (limit n start stop k : ℕ) (blank : R)
    (below region gone above history : List R)
    (hn : below.length + (region.length + gone.length) + above.length = n)
    (hstart : above.length = start) (hstop : start + (gone.length + region.length) = stop)
    (hk : gone.length = k) :
    (ofLines n (below ++ ((region ++ gone) ++ (above ++ history)))).scrollUp limit blank start stop
        k =
      ofLines n (below ++ ((List.replicate k blank ++ region) ++ (above ++
        if start = 0 then (gone ++ history).take limit else history))) := by
  obtain ⟨htake, -, hregion, hdrop⟩ := take_drop_blocks above.reverse gone.reverse region.reverse
    below.reverse start k stop (by rw [List.length_reverse, hstart])
    (by rw [List.length_reverse, hk]) (by rw [List.length_reverse]; omega)
  rw [ofLines_blocks (by simpa using hn), ofLines_blocks (by simpa [hk, Nat.add_comm] using hn)]
  unfold scrollUp
  simp only [List.reverse_append, List.reverse_replicate, List.append_assoc, htake, hregion, hdrop]
  congr 1
  split
  · next h =>
    obtain rfl : above = [] := List.length_eq_zero_iff.mp (hstart.trans h)
    have hgone : (gone.reverse ++ (region.reverse ++ below.reverse)).take k = gone.reverse :=
      List.take_left' (by rw [List.length_reverse, hk])
    rw [List.reverse_nil, List.nil_append, hgone, List.reverse_reverse]
  · rfl

/-- Scrolling a region down, on the blocks of the lines: its `k` lowest rows make room for blank ones
at its top. -/
theorem scrollDown_blocks (n start stop k : ℕ) (blank : R)
    (below region gone above history : List R)
    (hn : below.length + (gone.length + region.length) + above.length = n)
    (hstart : above.length = start) (hstop : start + (region.length + gone.length) = stop)
    (hk : gone.length = k) :
    (ofLines n (below ++ ((gone ++ region) ++ (above ++ history)))).scrollDown blank start stop k =
      ofLines n (below ++ ((region ++ List.replicate k blank) ++ (above ++ history))) := by
  obtain ⟨htake, hregion, -, -⟩ := take_drop_blocks above.reverse [] region.reverse
    (gone.reverse ++ below.reverse) start 0 (stop - k)
    (by rw [List.length_reverse, hstart]) rfl (by rw [List.length_reverse]; omega)
  obtain ⟨-, -, -, hdrop⟩ := take_drop_blocks above.reverse region.reverse gone.reverse
    below.reverse start region.length stop
    (by rw [List.length_reverse, hstart]) (by rw [List.length_reverse])
    (by rw [List.length_reverse]; exact hstop)
  rw [ofLines_blocks (by simpa using hn), ofLines_blocks (by simpa [hk, Nat.add_comm] using hn)]
  unfold scrollDown
  simp only [List.nil_append] at htake hregion
  simp only [List.reverse_append, List.reverse_replicate, List.append_assoc, htake, hregion, hdrop]

/-- Clearing a region, on the blocks of the lines. -/
theorem clear_blocks (n start stop : ℕ) (blank : R) (below region above history : List R)
    (hn : below.length + region.length + above.length = n)
    (hstart : above.length = start) (hstop : start + region.length = stop) :
    (ofLines n (below ++ (region ++ (above ++ history)))).clear blank start stop =
      ofLines n (below ++ (List.replicate region.length blank ++ (above ++ history))) := by
  obtain ⟨htake, -, -, hdrop⟩ := take_drop_blocks above.reverse [] region.reverse
    below.reverse start 0 stop
    (by rw [List.length_reverse, hstart]) rfl (by rw [List.length_reverse]; omega)
  rw [ofLines_blocks hn, ofLines_blocks (by simpa using hn)]
  unfold clear
  simp only [List.nil_append] at htake hdrop
  simp only [List.reverse_replicate, htake, hdrop]
  rw [show stop - start = region.length by omega]

end Blocks

/-- A row rewritten by its position from the bottom. -/
theorem modify_ofLines {n : ℕ} {lines : List R} (hn : n ≤ lines.length) {line : ℤ} {i : ℕ}
    (hi : (i : ℤ) = n - 1 - line) (f : R → R) :
    (ofLines n lines).modify line f = ofLines n (lines.modify i f) := by
  have hother {j : ℕ} (hj : i ≠ j) : (lines.modify i f)[j]? = lines[j]? := by
    rw [List.getElem?_modify]
    simp [hj]
  unfold modify ofLines
  -- on the screen or above it; the other part is as it was
  split
  · next hpos =>
    congr 1
    · refine List.ext_getElem? fun j => ?_
      by_cases hj : j < n
      · have hsame : (line.toNat = j) = (i = n - 1 - j) := propext (by omega)
        rw [List.getElem?_modify, List.getElem?_reverse (by rw [List.length_take]; omega),
          List.getElem?_reverse (by rw [List.length_take, List.length_modify]; omega),
          List.length_take, List.length_take, List.length_modify, min_eq_left hn,
          List.getElem?_take_of_lt (by omega), List.getElem?_take_of_lt (by omega),
          List.getElem?_modify]
        simp only [hsame]
      · rw [List.getElem?_eq_none (by simp; omega), List.getElem?_eq_none (by simp; omega)]
    · refine List.ext_getElem? fun j => ?_
      rw [List.getElem?_drop, List.getElem?_drop, hother (by omega)]
  · next hneg =>
    congr 1
    · refine congrArg List.reverse (List.ext_getElem? fun j => ?_)
      by_cases hj : j < n
      · rw [List.getElem?_take_of_lt hj, List.getElem?_take_of_lt hj, hother (by omega)]
      · rw [List.getElem?_eq_none (by simp; omega), List.getElem?_eq_none (by simp; omega)]
    · refine List.ext_getElem? fun j => ?_
      have hsame : ((-line - 1).toNat = j) = (i = n + j) := propext (by omega)
      rw [List.getElem?_drop, List.getElem?_modify, List.getElem?_modify, List.getElem?_drop]
      simp only [hsame]

/-- The row with a number. -/
def row? (p : Page R) (line : ℤ) : Option R :=
  if 0 ≤ line then p.screen[line.toNat]? else p.history[(-line - 1).toNat]?

/-- A row by its position from the bottom. -/
theorem row?_ofLines {n : ℕ} {lines : List R} (hn : n ≤ lines.length) {line : ℤ} {i : ℕ}
    (hi : (i : ℤ) = n - 1 - line) : (ofLines n lines).row? line = lines[i]? := by
  unfold row? ofLines
  split
  · next hpos =>
    rw [List.getElem?_reverse (by rw [List.length_take]; omega), List.length_take, min_eq_left hn,
      List.getElem?_take_of_lt (by omega)]
    congr 1
    omega
  · next hneg =>
    rw [List.getElem?_drop]
    congr 1
    omega

/-! ## The history -/

/-- The history is the newest rows of a log. -/
def Recent (limit : ℕ) (log : List R) (p : Page R) : Prop := p.history = log.take limit

variable {log : List R}

theorem Recent.length (h : p.Recent limit log) : p.history.length = min limit log.length := by
  rw [h, List.length_take]

/-- Rows that leave at the top enter the log. -/
theorem Recent.push (h : p.Recent limit log) {gone screen : List R} :
    (⟨screen, (gone ++ p.history).take limit⟩ : Page R).Recent limit (gone ++ log) := by
  unfold Recent
  rw [h]
  refine List.ext_getElem? fun i => ?_
  by_cases hi : i < limit
  · rw [List.getElem?_take_of_lt hi, List.getElem?_take_of_lt hi]
    rcases Nat.lt_or_ge i gone.length with hlt | hge
    · rw [List.getElem?_append_left hlt, List.getElem?_append_left hlt]
    · rw [List.getElem?_append_right hge, List.getElem?_append_right hge,
        List.getElem?_take_of_lt (by omega)]
  · rw [List.getElem?_eq_none (by rw [List.length_take]; omega),
      List.getElem?_eq_none (by rw [List.length_take]; omega)]

theorem Recent.setLimit (h : p.Recent limit log) {n : ℕ} (hn : n ≤ limit) :
    (p.setLimit n).Recent n log := by
  unfold Recent Page.setLimit
  rw [h, List.take_take, min_eq_left hn]

/-! ## The display -/

/-- The `n` rows shown when the display is `offset` rows back. -/
def displayed (n offset : ℕ) (p : Page R) : List R :=
  ((p.history.take offset).reverse ++ p.screen).take n

/-- Rows of the screen below the display do not matter to it. -/
theorem displayed_congr (p' : Page R) {n offset m : ℕ} (hhistory : p'.history = p.history)
    (hscreen : p'.screen.take m = p.screen.take m) (hoffset : offset ≤ p.history.length)
    (hm : n ≤ offset + m) : p'.displayed n offset = p.displayed n offset := by
  have hlen : (p.history.take offset).reverse.length = offset := by
    rw [List.length_reverse, List.length_take]
    omega
  unfold displayed
  rw [hhistory, List.take_append, List.take_append, hlen]
  congr 1
  have hcut (xs : List R) : xs.take (n - offset) = (xs.take m).take (n - offset) := by
    rw [List.take_take, min_eq_left (by omega)]
  rw [hcut, hcut p.screen, hscreen]

/-- A display that moves back by as many rows as leave the screen at its top shows the same rows. -/
theorem displayed_scrollUp {n offset : ℕ} (hoffset : offset ≤ p.history.length)
    (hk : k ≤ stop) (hstop : stop ≤ p.screen.length) (hlimit : offset + k ≤ limit)
    (hn : n ≤ offset + stop) :
    (p.scrollUp limit blank 0 stop k).displayed n (offset + k) = p.displayed n offset := by
  have hhistory : ((p.scrollUp limit blank 0 stop k).history.take (offset + k)).reverse =
      (p.history.take offset).reverse ++ p.screen.take k := by
    have hlen : (p.screen.take k).reverse.length = k := by
      rw [List.length_reverse, List.length_take]
      omega
    unfold scrollUp
    rw [if_pos rfl, List.take_take, min_eq_left hlimit, Nat.add_comm]
    have happ : ((p.screen.take k).reverse ++ p.history).take ((p.screen.take k).reverse.length + offset) =
        (p.screen.take k).reverse ++ p.history.take offset := List.take_length_add_append offset
    rw [hlen] at happ
    rw [happ, List.reverse_append, List.reverse_reverse]
  have hscreen : p.screen.take k ++ (p.screen.take stop).drop k = p.screen.take stop := by
    have := List.take_append_drop k (p.screen.take stop)
    rwa [List.take_take, min_eq_left hk] at this
  have hlen : ((p.history.take offset).reverse ++ p.screen.take stop).length = offset + stop := by
    rw [List.length_append, List.length_reverse, List.length_take, List.length_take]
    omega
  have hsplit : p.screen.take stop ++ p.screen.drop stop = p.screen := List.take_append_drop ..
  unfold displayed
  rw [hhistory]
  conv_rhs => rw [← hsplit, ← List.append_assoc, List.take_append_of_le_length (by omega)]
  unfold scrollUp
  simp only [List.take_zero, List.nil_append, Nat.zero_add]
  rw [List.append_assoc, ← List.append_assoc (p.screen.take k), hscreen, ← List.append_assoc,
    List.take_append_of_le_length (by omega)]

end Page

end Scrollback
