import Mathlib
import Termua.Lib.Bytes
import Termua.Lib.Utf8
import Termua.Web.Server

/-!
# Screens as bytes

The binary message of `screen_message` in `termua/src/web/mod.rs` and what the page makes of it in
`terminal.js`. The section of the line numbers is as long as the screen has rows, which the page has read
before it; behind it both sides count from its end, so the page reads what was written
(`decodeScreen_screenMessage`).
-/

namespace Termua.Web.Frame

open Termua.Cast (TerminalScreen letterScreen)
open Bytes

/-- `u32::try_from`. -/
def u32TryFrom (n : ℕ) : Option UInt32 := if n < 2 ^ 32 then some (UInt32.ofNat n) else none

/-- The value of a row's line number in the message. -/
def wireLineNumber (lineNumber : Option ℕ) : UInt32 := (lineNumber.bind u32TryFrom).getD 0

/-- The value of a part of the selection in the message. -/
def wireSelection (value : ℕ) : UInt32 := (u32TryFrom value).getD (UInt32.ofNat (2 ^ 32 - 1))

/-- `screen_message`. -/
def screenMessage (kind : UInt8) (screen : TerminalScreen) (ansi : List UInt8) : List UInt8 :=
  let selection := screen.selection.getD (0, 0, 0)
  [kind] ++ toBeBytes (UInt32.ofNat screen.columns) ++ toBeBytes (UInt32.ofNat screen.rows) ++
    words (screen.lineNumbers.map wireLineNumber) ++
    words ([selection.1, selection.2.1, selection.2.2].map wireSelection) ++ ansi

/-- The bytes that stand for the contents of a screen message. -/
def bytes (message : ScreenMessage) : List UInt8 :=
  let selection := message.selection.getD (0, 0, 0)
  [UInt8.ofNat message.kind] ++ toBeBytes (UInt32.ofNat message.columns) ++
    toBeBytes (UInt32.ofNat message.rows) ++ words (message.lineNumbers.map wireLineNumber) ++
    words ([selection.1, selection.2.1, selection.2.2].map wireSelection) ++
    Utf8.encode message.ansi

/-- The message that the server sends is made of these bytes. -/
theorem bytes_eq_screenMessage (kind : ℕ) (screen : TerminalScreen) (ansi : List Char) :
    ∃ message, Web.screenMessage kind screen ansi = .screen message ∧
      bytes message = screenMessage (UInt8.ofNat kind) screen (Utf8.encode ansi) :=
  ⟨_, rfl, rfl⟩

/-- What the page has of a screen. -/
structure DecodedScreen where
  kind : UInt8
  columns : ℕ
  rows : ℕ
  lineNumbers : List (Option ℕ)
  selection : ℕ × ℕ × ℕ
  ansi : List UInt8
  deriving DecidableEq

/-- `number || null`. -/
def orNull (number : UInt32) : Option ℕ := if number = 0 then none else some number.toNat

/-- The part of `ws.onmessage` for binary messages; `none` where the page does nothing or throws. -/
def decodeScreen (bytes : List UInt8) : Option DecodedScreen := do
  let kind ← bytes[0]?
  if kind = 0 ∨ kind = 2 then
    let columns ← getUint32 bytes 1
    let rows ← getUint32 bytes 5
    let lineNumbers ← (List.range rows.toNat).mapM fun row =>
      (getUint32 bytes (9 + row * 4)).map orNull
    let selectionOffset := 9 + rows.toNat * 4
    let selectionColumn ← getUint32 bytes selectionOffset
    let selectionRow ← getUint32 bytes (selectionOffset + 4)
    let selectionLength ← getUint32 bytes (selectionOffset + 8)
    some {
      kind
      columns := columns.toNat
      rows := rows.toNat
      lineNumbers
      selection := (selectionColumn.toNat, selectionRow.toNat, selectionLength.toNat)
      ansi := bytes.drop (selectionOffset + 12) }
  else none

/-! ## The line numbers of a capture -/

/-- One row of `logical_line_numbers_from_wraps`. -/
def numberRow (start : ℕ) (prevRowWrapped : ℕ → Bool) (acc : ℕ × Bool × List (Option ℕ)) (row : ℕ) :
    ℕ × Bool × List (Option ℕ) :=
  let isStart := row = 0 ∨ !acc.2.1
  let logicalNo := if isStart then acc.1 + 1 else acc.1
  (logicalNo, prevRowWrapped row,
    if start ≤ row then acc.2.2 ++ [if isStart then some logicalNo else none] else acc.2.2)

/-- `logical_line_numbers_from_wraps`. -/
def logicalLineNumbersFromWraps (total startLine count : ℕ) (prevRowWrapped : ℕ → Bool) :
    List (Option ℕ) :=
  if count = 0 ∨ total = 0 then []
  else
    let start := min startLine total
    let stop := min (start + count) total
    if start = stop then []
    else ((List.range stop).foldl (numberRow start prevRowWrapped) (0, false, [])).2.2

/-- The line numbers of `capture_terminal_screen_with_line_numbers`: those of the rows up to the last
one that is to be numbered. -/
def captureLineNumbers (rows lastRow : ℕ) (numbers : List (Option ℕ)) : List (Option ℕ) :=
  (List.range rows).map fun row => if row ≤ lastRow then numbers[row]?.join else none

/-- Up to a row, the line numbers are those of the rows before it. -/
theorem numberRow_foldl (start : ℕ) (prevRowWrapped : ℕ → Bool) (stop : ℕ) :
    let acc := (List.range stop).foldl (numberRow start prevRowWrapped) (0, false, [])
    acc.1 ≤ stop ∧ ∀ n, some n ∈ acc.2.2 → 1 ≤ n ∧ n ≤ stop := by
  induction stop with
  | zero => exact ⟨le_rfl, fun n hn => nomatch hn⟩
  | succ stop ih =>
    obtain ⟨hle, hmem⟩ := ih
    rw [List.range_succ, List.foldl_append, List.foldl_cons, List.foldl_nil]
    generalize (List.range stop).foldl (numberRow start prevRowWrapped) (0, false, []) = acc
      at hle hmem ⊢
    have hearlier : ∀ n, some n ∈ acc.2.2 → 1 ≤ n ∧ n ≤ stop + 1 :=
      fun n hn => ⟨(hmem n hn).1, (hmem n hn).2.trans (Nat.le_succ stop)⟩
    unfold numberRow
    refine ⟨?_, fun n hn => ?_⟩
    · show (if stop = 0 ∨ (!acc.2.1) = true then acc.1 + 1 else acc.1) ≤ stop + 1
      split
      · exact Nat.succ_le_succ hle
      · exact hle.trans (Nat.le_succ stop)
    · simp only at hn
      split at hn
      · rcases List.mem_append.mp hn with hn | hn
        · exact hearlier n hn
        · split at hn
          · have heq := Option.some.inj (List.mem_singleton.mp hn)
            omega
          · cases List.mem_singleton.mp hn
      · exact hearlier n hn

/-- Lines are numbered from one, and there are no more of them than rows. -/
theorem mem_logicalLineNumbers {total startLine count : ℕ} {prevRowWrapped : ℕ → Bool} {n : ℕ}
    (h : some n ∈ logicalLineNumbersFromWraps total startLine count prevRowWrapped) :
    1 ≤ n ∧ n ≤ total := by
  unfold logicalLineNumbersFromWraps at h
  split at h
  · cases h
  · simp only at h
    split at h
    · cases h
    · have hnumbers := (numberRow_foldl _ prevRowWrapped _).2 n h
      exact ⟨hnumbers.1, hnumbers.2.trans (min_le_right _ _)⟩

theorem mem_of_mem_captureLineNumbers {rows lastRow : ℕ} {numbers : List (Option ℕ)} {n : ℕ}
    (h : some n ∈ captureLineNumbers rows lastRow numbers) : some n ∈ numbers := by
  obtain ⟨row, -, hrow⟩ := List.mem_map.mp h
  split at hrow
  · exact List.mem_of_getElem? (Option.join_eq_some_iff.mp hrow)
  · cases hrow

/-! ## What the page reads -/

theorem orNull_wireLineNumber {n : ℕ} (hpos : 1 ≤ n) (hlt : n < 2 ^ 32) :
    orNull (wireLineNumber (some n)) = some n := by
  have hwire : wireLineNumber (some n) = UInt32.ofNat n := by
    unfold wireLineNumber u32TryFrom
    rw [Option.bind_some, if_pos hlt, Option.getD_some]
  have htoNat : (UInt32.ofNat n).toNat = n := by
    rw [UInt32.toNat_ofNat']
    exact Nat.mod_eq_of_lt hlt
  unfold orNull
  rw [hwire, if_neg ?_, htoNat]
  intro hzero
  rw [hzero] at htoNat
  rw [← htoNat] at hpos
  exact absurd hpos (by decide)

/-- A line number as the page has it: 0 where it is absent or does not fit. -/
theorem getD_orNull (n : Option ℕ) :
    (orNull (wireLineNumber n)).getD 0 = if n.getD 0 < 2 ^ 32 then n.getD 0 else 0 := by
  rcases n with _ | n
  · rfl
  · rw [Option.getD_some]
    split
    · next hlt =>
      rcases Nat.eq_zero_or_pos n with rfl | hpos
      · rfl
      · rw [orNull_wireLineNumber hpos hlt, Option.getD_some]
    · next hle =>
      have hwire : wireLineNumber (some n) = 0 := by
        unfold wireLineNumber u32TryFrom
        rw [Option.bind_some, if_neg hle, Option.getD_none]
      rw [hwire]
      rfl

theorem toNat_wireSelection (value : ℕ) : (wireSelection value).toNat = min value (2 ^ 32 - 1) := by
  unfold wireSelection u32TryFrom
  split
  · next hlt =>
    rw [Option.getD_some, UInt32.toNat_ofNat', Nat.mod_eq_of_lt hlt, min_eq_left (by omega)]
  · next hle =>
    rw [min_eq_right (by omega)]
    rfl

theorem mapM_range {α : Type*} {f : ℕ → Option α} {l : List α}
    (h : ∀ i (hi : i < l.length), f i = some (l[i])) : (List.range l.length).mapM f = some l := by
  induction l using List.reverseRecOn with
  | nil => rfl
  | append_singleton l x ih =>
    have hinit : (List.range l.length).mapM f = some l := by
      refine ih fun i hi => ?_
      rw [h i (by rw [List.length_append]; omega), List.getElem_append_left hi]
    have hlast : f l.length = some x := by
      rw [h l.length (by rw [List.length_append]; exact Nat.lt_succ_self _)]
      simp
    rw [List.length_append, List.length_singleton, List.range_succ, List.mapM_append, hinit]
    simp [hlast]

variable {screen : TerminalScreen} {ansi : List UInt8} {kind : UInt8}

/-- The message in the parts that the page reads. -/
theorem decodeScreen_eq (hkind : kind = 0 ∨ kind = 2) (hrows : screen.rows < 2 ^ 32) :
    decodeScreen (screenMessage kind screen ansi) = some {
      kind
      columns := (UInt32.ofNat screen.columns).toNat
      rows := screen.rows
      lineNumbers := screen.lineNumbers.map fun n => orNull (wireLineNumber n)
      selection := ((wireSelection (screen.selection.getD (0, 0, 0)).1).toNat,
        (wireSelection (screen.selection.getD (0, 0, 0)).2.1).toNat,
        (wireSelection (screen.selection.getD (0, 0, 0)).2.2).toNat)
      ansi } := by
  generalize hsel : screen.selection.getD (0, 0, 0) = selection
  generalize hnumbers : screen.lineNumbers.map wireLineNumber = numbers
  have hlength : numbers.length = screen.rows := by
    rw [← hnumbers, List.length_map, screen.lineNumbers_length]
  have hrowsNat : (UInt32.ofNat screen.rows).toNat = screen.rows := by
    rw [UInt32.toNat_ofNat']
    exact Nat.mod_eq_of_lt hrows
  generalize hselWords : [selection.1, selection.2.1, selection.2.2].map wireSelection = sel
  have hmessage : screenMessage kind screen ansi =
      [kind] ++ (toBeBytes (UInt32.ofNat screen.columns) ++
        (toBeBytes (UInt32.ofNat screen.rows) ++ (words numbers ++ (words sel ++ ansi)))) := by
    unfold screenMessage
    simp only [hsel, hnumbers, hselWords, List.append_assoc]
  -- each section is read at the length of what stands before it
  have hcolumns : getUint32 (screenMessage kind screen ansi) 1 =
      some (UInt32.ofNat screen.columns) := by
    rw [hmessage]
    exact @getUint32_append _ [kind] _
  have hrowsRead : getUint32 (screenMessage kind screen ansi) 5 = some (UInt32.ofNat screen.rows) := by
    rw [hmessage, ← List.append_assoc]
    exact @getUint32_append _ ([kind] ++ toBeBytes (UInt32.ofNat screen.columns)) _
  have hnumber : ∀ i (hi : i < numbers.length),
      getUint32 (screenMessage kind screen ansi) (9 + i * 4) = some (numbers[i]) := by
    intro i hi
    rw [hmessage, ← List.append_assoc, ← List.append_assoc, Nat.mul_comm]
    exact @getUint32_words _ (([kind] ++ toBeBytes (UInt32.ofNat screen.columns)) ++
      toBeBytes (UInt32.ofNat screen.rows)) _ i hi
  have hfront : ((([kind] ++ toBeBytes (UInt32.ofNat screen.columns)) ++
      toBeBytes (UInt32.ofNat screen.rows)) ++ words numbers).length = 9 + screen.rows * 4 := by
    rw [List.length_append, length_words, hlength, Nat.mul_comm]
    rfl
  have hselection : ∀ i (hi : i < sel.length),
      getUint32 (screenMessage kind screen ansi) (9 + screen.rows * 4 + 4 * i) = some (sel[i]) := by
    intro i hi
    rw [hmessage, ← List.append_assoc, ← List.append_assoc, ← List.append_assoc, ← hfront]
    exact getUint32_words hi
  have hansi : (screenMessage kind screen ansi).drop (9 + screen.rows * 4 + 12) = ansi := by
    have hsel12 : (words sel).length = 12 := by
      rw [length_words, ← hselWords]
      rfl
    rw [hmessage, ← List.append_assoc, ← List.append_assoc, ← List.append_assoc, ← List.append_assoc,
      ← hfront, ← hsel12, ← List.length_append, List.drop_left]
  have hfirst : (screenMessage kind screen ansi)[0]? = some kind := by
    rw [hmessage]
    rfl
  have hlines : (List.range screen.rows).mapM (fun row =>
      (getUint32 (screenMessage kind screen ansi) (9 + row * 4)).map orNull) =
      some (numbers.map orNull) := by
    have hmap := @mapM_range _ (fun row =>
      (getUint32 (screenMessage kind screen ansi) (9 + row * 4)).map orNull) (numbers.map orNull)
      fun i hi => by
        rw [List.length_map] at hi
        rw [hnumber i hi, Option.map_some, List.getElem_map]
    rwa [List.length_map, hlength] at hmap
  subst hselWords
  have hcolumn := hselection 0 (by simp)
  have hrow := hselection 1 (by simp)
  have hrun := hselection 2 (by simp)
  simp only [Nat.mul_zero, Nat.add_zero, Nat.mul_one, Nat.reduceMul] at hcolumn hrow hrun
  unfold decodeScreen
  simp only [hfirst, Option.bind_eq_bind, Option.bind_some, if_pos hkind, hcolumns, hrowsRead,
    hrowsNat, hlines, hcolumn, hrow, hrun, hansi]
  rw [← hnumbers, List.map_map]
  rfl

/-- For every captured screen with dimensions below `2 ^ 32` and every payload: the page reads the kind,
the dimensions, the selection, saturated, and the payload as they are, and the line numbers with 0 for
those that are absent or do not fit; those of a capture are read as they are. -/
theorem decodeScreen_screenMessage (screen : TerminalScreen) (ansi : List UInt8) (kind : UInt8)
    (hkind : kind = 0 ∨ kind = 2) (hcolumns : screen.columns < 2 ^ 32)
    (hrows : screen.rows < 2 ^ 32) :
    ∃ decoded, decodeScreen (screenMessage kind screen ansi) = some decoded ∧
      decoded.kind = kind ∧ decoded.columns = screen.columns ∧ decoded.rows = screen.rows ∧
      decoded.lineNumbers.map (·.getD 0) =
        screen.lineNumbers.map (fun n => if n.getD 0 < 2 ^ 32 then n.getD 0 else 0) ∧
      (∀ lastRow total startLine count prevRowWrapped, total < 2 ^ 32 →
        screen.lineNumbers = captureLineNumbers screen.rows lastRow
          (logicalLineNumbersFromWraps total startLine count prevRowWrapped) →
        decoded.lineNumbers = screen.lineNumbers) ∧
      decoded.selection =
        (min (screen.selection.getD (0, 0, 0)).1 (2 ^ 32 - 1),
          min (screen.selection.getD (0, 0, 0)).2.1 (2 ^ 32 - 1),
          min (screen.selection.getD (0, 0, 0)).2.2 (2 ^ 32 - 1)) ∧
      decoded.ansi = ansi := by
  refine ⟨_, decodeScreen_eq hkind hrows, rfl, ?_, rfl, ?_, ?_, ?_, rfl⟩
  · show (UInt32.ofNat screen.columns).toNat = screen.columns
    rw [UInt32.toNat_ofNat']
    exact Nat.mod_eq_of_lt hcolumns
  · rw [List.map_map]
    refine List.map_congr_left fun n _ => ?_
    exact getD_orNull n
  · intro lastRow total startLine count prevRowWrapped htotal hcapture
    refine (List.map_congr_left fun n hn => ?_).trans (List.map_id _)
    rcases n with _ | n
    · rfl
    · rw [hcapture] at hn
      have hbounds := mem_logicalLineNumbers (mem_of_mem_captureLineNumbers hn)
      exact orNull_wireLineNumber hbounds.1 (by omega)
  · rw [toNat_wireSelection, toNat_wireSelection, toNat_wireSelection]

/-- The screen of one cell, with its first line numbered. -/
theorem decodeScreen_screenMessage_letter :
    ∃ decoded, decodeScreen (screenMessage 2 (letterScreen 'x') [0x1b]) = some decoded ∧
      decoded.rows = 1 ∧ decoded.ansi = [0x1b] := by
  obtain ⟨decoded, hdecoded, -, -, hrows, -, -, -, hansi⟩ :=
    decodeScreen_screenMessage (letterScreen 'x') [0x1b] 2 (.inr rfl) (by decide) (by decide)
  exact ⟨decoded, hdecoded, hrows, hansi⟩

end Termua.Web.Frame
