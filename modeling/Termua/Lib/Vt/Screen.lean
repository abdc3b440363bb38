import Mathlib
import Termua.Lib.Vt.Parser

/-!
# The screen of a terminal

The back half of a terminal: a grid of slots, a cursor and a pen, and what the actions of the
parser do to them. The subset is printing (with wide and zero-width characters), CR, LF, BS and HT,
CUP, ED, SGR, and showing and hiding the cursor. How wide a character is, is a parameter.

The column of the cursor is the number of columns when the last column was just printed: the next
character wraps.

`Printed s₀ s line` says how far the printing of the cursor's row has come: `s` is `s₀` with the
slots `line` at the start of that row and the cursor behind them. `Printed.glyph` is its step.
-/

namespace Vt

/-- A colour of the pen. -/
inductive Color
  | default
  | indexed (index : ℕ)
  | rgb (r g b : ℕ)
  deriving DecidableEq, Repr

/-- The underline of the pen. -/
inductive Underline
  | none
  | single
  | double
  | curly
  | dotted
  | dashed
  deriving DecidableEq, Repr

/-- The graphic rendition that printed characters get. -/
structure Pen where
  fg : Color := .default
  bg : Color := .default
  bold : Bool := false
  dim : Bool := false
  italic : Bool := false
  underline : Underline := .none
  inverse : Bool := false
  strikeout : Bool := false
  deriving DecidableEq, Repr

/-- A printed character, the zero-width characters printed on it, and whether it takes two
columns. -/
structure Glyph where
  char : Char
  marks : List Char
  pen : Pen
  wide : Bool
  deriving DecidableEq, Repr

/-- One column of a row: a character, or the right half of the wide one before it. -/
inductive Slot
  | glyph (g : Glyph)
  | spacer (pen : Pen)
  deriving DecidableEq, Repr

namespace Slot

/-- What erasing leaves: only the background of the pen. -/
def blank (pen : Pen) : Slot := .glyph ⟨' ', [], { bg := pen.bg }, false⟩

def isWide : Slot → Bool
  | .glyph g => g.wide
  | .spacer _ => false

def isSpacer : Slot → Bool
  | .glyph _ => false
  | .spacer _ => true

end Slot

/-- The columns that a glyph takes. -/
def Glyph.slots (g : Glyph) : List Slot :=
  if g.wide then [.glyph g, .spacer g.pen] else [.glyph g]

/-! ## Graphic rendition -/

/-- How far the arguments of an extended colour have been read. -/
inductive ColorArg
  | none
  | kind (background : Bool)
  | index (background : Bool)
  | red (background : Bool)
  | green (background : Bool) (r : ℕ)
  | blue (background : Bool) (r g : ℕ)
  deriving DecidableEq, Repr

namespace Pen

def setColor (p : Pen) (background : Bool) (color : Color) : Pen :=
  if background then { p with bg := color } else { p with fg := color }

/-- An SGR code without arguments; an unknown one does nothing. -/
def code (p : Pen) (n : ℕ) : Pen :=
  if n = 0 then {}
  else if n = 1 then { p with bold := true }
  else if n = 2 then { p with dim := true }
  else if n = 3 then { p with italic := true }
  else if n = 4 then { p with underline := .single }
  else if n = 7 then { p with inverse := true }
  else if n = 9 then { p with strikeout := true }
  else if n = 21 then { p with underline := .double }
  else if n = 22 then { p with bold := false, dim := false }
  else if n = 23 then { p with italic := false }
  else if n = 24 then { p with underline := .none }
  else if n = 27 then { p with inverse := false }
  else if n = 29 then { p with strikeout := false }
  else if 30 ≤ n ∧ n ≤ 37 then { p with fg := .indexed (n - 30) }
  else if n = 39 then { p with fg := .default }
  else if 40 ≤ n ∧ n ≤ 47 then { p with bg := .indexed (n - 40) }
  else if n = 49 then { p with bg := .default }
  else if 90 ≤ n ∧ n ≤ 97 then { p with fg := .indexed (n - 90 + 8) }
  else if 100 ≤ n ∧ n ≤ 107 then { p with bg := .indexed (n - 100 + 8) }
  else p

/-- The styles of an underline. -/
def underlineStyle (n : ℕ) : Underline :=
  if n = 0 then .none
  else if n = 2 then .double
  else if n = 3 then .curly
  else if n = 4 then .dotted
  else if n = 5 then .dashed
  else .single

/-- One SGR parameter. -/
def sgrStep : Pen × ColorArg → List ℕ → Pen × ColorArg
  | (p, .none), [4, style] => ({ p with underline := underlineStyle style }, .none)
  | (p, .none), [n] =>
    if n = 38 then (p, .kind false)
    else if n = 48 then (p, .kind true)
    else (p.code n, .none)
  | (p, .kind background), [n] =>
    if n = 5 then (p, .index background)
    else if n = 2 then (p, .red background)
    else (p, .none)
  | (p, .index background), [n] => (p.setColor background (.indexed n), .none)
  | (p, .red background), [r] => (p, .green background r)
  | (p, .green background r), [g] => (p, .blue background r g)
  | (p, .blue background r g), [b] => (p.setColor background (.rgb r g b), .none)
  | (p, _), _ => (p, .none)

/-- An SGR sequence. -/
def sgr (p : Pen) (params : List (List ℕ)) : Pen := (params.foldl sgrStep (p, .none)).1

end Pen

/-! ## The screen -/

/-- A screen. `cell` gives the slot at a row and a column; only those inside the dimensions are
shown. -/
structure Screen where
  columns : ℕ
  rows : ℕ
  cell : ℕ → ℕ → Slot
  x : ℕ
  y : ℕ
  cursorVisible : Bool
  pen : Pen

namespace Screen

/-- A blank screen. -/
def new (columns rows : ℕ) : Screen where
  columns := columns
  rows := rows
  cell _ _ := .blank {}
  x := 0
  y := 0
  cursorVisible := true
  pen := {}

/-- The dimensions. -/
def size (s : Screen) : ℕ × ℕ := (s.columns, s.rows)

/-- The slots of a row. -/
def line (s : Screen) (row : ℕ) : List Slot := (List.range s.columns).map (s.cell row)

/-- The grid. -/
def lines (s : Screen) : List (List Slot) := (List.range s.rows).map s.line

/-- Put a slot into the row of the cursor. -/
def set (s : Screen) (column : ℕ) (slot : Slot) : Screen :=
  { s with cell := fun r c => if r = s.y ∧ c = column then slot else s.cell r c }

/-- LF: one row down, scrolling at the bottom. -/
def lineFeed (s : Screen) : Screen :=
  if s.y + 1 < s.rows then { s with y := s.y + 1 }
  else { s with cell := fun r c => if r + 1 < s.rows then s.cell (r + 1) c else .blank s.pen }

/-- Go to the next row when `width` columns do not fit any more. -/
def wrap (s : Screen) (width : ℕ) : Screen :=
  if s.columns < s.x + width then { s.lineFeed with x := 0 } else s

/-- Blank the wide character whose right half is under the cursor. -/
def splitLeft (s : Screen) : Screen :=
  if 0 < s.x ∧ (s.cell s.y (s.x - 1)).isWide then s.set (s.x - 1) (.blank s.pen) else s

/-- Blank the right half under the cursor of a wide character that was overwritten. -/
def splitRight (s : Screen) : Screen :=
  if (s.cell s.y s.x).isSpacer then s.set s.x (.blank s.pen) else s

/-- Print a character of one or two columns. -/
def put (s : Screen) (c : Char) (wide : Bool) : Screen :=
  let g : Glyph := ⟨c, [], s.pen, wide⟩
  let s := (s.wrap g.slots.length).splitLeft
  let t := s.set s.x (.glyph g)
  let t := if wide then t.set (s.x + 1) (.spacer s.pen) else t
  { t with x := s.x + g.slots.length }.splitRight

/-- Print a zero-width character: on the character before the cursor. -/
def combine (s : Screen) (c : Char) : Screen :=
  if s.x = 0 then s
  else
    let column := if (s.cell s.y (s.x - 1)).isSpacer then s.x - 2 else s.x - 1
    match s.cell s.y column with
    | .glyph g => s.set column (.glyph { g with marks := g.marks ++ [c] })
    | .spacer _ => s

/-- CUP: the position counts from one, and zero means one. -/
def moveTo (s : Screen) (row column : ℕ) : Screen :=
  { s with y := min (row - 1) (s.rows - 1), x := min (column - 1) (s.columns - 1) }

/-- ED: from the cursor to the end, from the start to the cursor, or everything. -/
def eraseDisplay (s : Screen) (mode : ℕ) : Screen :=
  let erased (r c : ℕ) : Bool :=
    if mode = 0 then s.y < r || (r = s.y && s.x ≤ c)
    else if mode = 1 then r < s.y || (r = s.y && c ≤ s.x)
    else mode = 2
  { s with cell := fun r c => if erased r c then .blank s.pen else s.cell r c }

/-- The control characters. -/
def execute (s : Screen) (c : Char) : Screen :=
  if c = '\r' then { s with x := 0 }
  else if c = '\n' then s.lineFeed
  else if c = '\x08' then { s with x := min s.x (s.columns - 1) - 1 }
  else if c = '\t' then { s with x := min ((s.x / 8 + 1) * 8) (s.columns - 1) }
  else s

/-- The first number of a parameter, or zero. -/
def arg (params : List (List ℕ)) (i : ℕ) : ℕ := ((params[i]?.getD []).head?).getD 0

/-- The CSI sequences; an unknown one does nothing. -/
def csi (s : Screen) (question : Bool) (params : List (List ℕ)) (final : Char) : Screen :=
  match question, final with
  | false, 'H' => s.moveTo (arg params 0) (arg params 1)
  | false, 'J' => s.eraseDisplay (arg params 0)
  | false, 'm' => { s with pen := s.pen.sgr params }
  | true, 'h' => if arg params 0 = 25 then { s with cursorVisible := true } else s
  | true, 'l' => if arg params 0 = 25 then { s with cursorVisible := false } else s
  | _, _ => s

variable (width : Char → ℕ)

/-- Print a character of the given width. -/
def print (s : Screen) (c : Char) : Screen :=
  match width c with
  | 0 => s.combine c
  | 1 => s.put c false
  | _ => s.put c true

/-- One action of the parser. -/
def perform (s : Screen) : Action → Screen
  | .print c => s.print width c
  | .execute c => s.execute c
  | .csi question params final => s.csi question params final

end Screen

/-- A terminal. -/
structure Terminal where
  parser : Parser
  screen : Screen

namespace Terminal

/-- A blank terminal, as it is when it starts. -/
def new (columns rows : ℕ) : Terminal := ⟨.ground, .new columns rows⟩

/-- The terminal after it received a text. -/
def interpret (width : Char → ℕ) (t : Terminal) (text : List Char) : Terminal where
  parser := (t.parser.run text).1
  screen := (t.parser.run text).2.foldl (Screen.perform width) t.screen

variable {width : Char → ℕ}

@[simp] theorem interpret_nil (t : Terminal) : t.interpret width [] = t := rfl

/-- A text is interpreted in two parts like in one. -/
theorem interpret_append (t : Terminal) (text text' : List Char) :
    t.interpret width (text ++ text') = (t.interpret width text).interpret width text' := by
  simp [interpret, Parser.run_append]

/-- A text that parses leaves the parser between two sequences, and its actions are performed. -/
theorem interpret_of_parses (width : Char → ℕ) {text : List Char} {actions : List Action}
    (h : Parses text actions) (s : Screen) :
    interpret width ⟨.ground, s⟩ text = ⟨.ground, actions.foldl (Screen.perform width) s⟩ := by
  rw [Parses] at h
  simp [interpret, h]

end Terminal

/-! ## Printing a row -/

/-- The actions that print a glyph. -/
def Glyph.actions (g : Glyph) : List Action := .print g.char :: g.marks.map .print

/-- A glyph that `width` gives the columns it takes. -/
structure Glyph.Fits (width : Char → ℕ) (g : Glyph) : Prop where
  char : width g.char = if g.wide then 2 else 1
  marks : ∀ c ∈ g.marks, width c = 0

/-- `s` is `s₀` after the slots `shown` were printed from the start of the cursor's row. -/
structure Printed (s₀ s : Screen) (shown : List Slot) : Prop where
  columns : s.columns = s₀.columns
  rows : s.rows = s₀.rows
  visible : s.cursorVisible = s₀.cursorVisible
  y : s.y = s₀.y
  x : s.x = shown.length
  /-- No other row changed. -/
  frame : ∀ row, row ≠ s.y → s.cell row = s₀.cell row
  slots : ∀ (i : ℕ) (h : i < shown.length), s.cell s.y i = shown[i]

/-- The slots do not end between the halves of a wide character. -/
def Whole (shown : List Slot) : Prop := ∀ slot ∈ shown.getLast?, slot.isWide = false

theorem Whole.nil : Whole [] := by simp [Whole]

/-- A glyph is not cut between its halves. -/
theorem Whole.append_glyph (shown : List Slot) (g : Glyph) : Whole (shown ++ g.slots) := by
  rw [Whole, Glyph.slots]
  split
  · simp [Slot.isWide]
  · next h => simpa [Slot.isWide] using h

namespace Printed

variable {width : Char → ℕ} {s₀ s : Screen} {shown : List Slot}

/-- A cursor at the start of a row has printed nothing of it. -/
theorem start (hx : s.x = 0) : Printed s s [] where
  columns := rfl
  rows := rfl
  visible := rfl
  y := rfl
  x := hx
  frame _ _ := rfl
  slots _ h := absurd h (by simp)

/-- The pen plays no role for what was printed. -/
theorem setPen (h : Printed s₀ s shown) (pen : Pen) : Printed s₀ { s with pen := pen } shown :=
  { h with }

/-- Filling the slot under the cursor and stepping over it. -/
theorem advance (h : Printed s₀ s shown) (slot : Slot) :
    Printed s₀ { s.set s.x slot with x := s.x + 1 } (shown ++ [slot]) where
  columns := h.columns
  rows := h.rows
  visible := h.visible
  y := h.y
  x := by simp [h.x]
  frame row hrow := by
    funext c
    have : ¬ (row = s.y ∧ c = s.x) := fun hc => hrow hc.1
    simpa [Screen.set, this] using congrFun (h.frame row hrow) c
  slots i hi := by
    rcases Nat.lt_or_ge i shown.length with hlt | hge
    · have : ¬ (i = s.x) := by rw [h.x]; omega
      simpa [Screen.set, this, List.getElem_append_left hlt] using h.slots i hlt
    · obtain rfl : i = shown.length := by simp at hi; omega
      simp [Screen.set, h.x]

/-- Changing a slot that was not printed yet. -/
theorem set (h : Printed s₀ s shown) {column : ℕ} (hcolumn : shown.length ≤ column) (slot : Slot) :
    Printed s₀ (s.set column slot) shown where
  columns := h.columns
  rows := h.rows
  visible := h.visible
  y := h.y
  x := h.x
  frame row hrow := by
    funext c
    have : ¬ (row = s.y ∧ c = column) := fun hc => hrow hc.1
    simpa [Screen.set, this] using congrFun (h.frame row hrow) c
  slots i hi := by
    have : ¬ (i = column) := by omega
    simpa [Screen.set, this] using h.slots i hi

/-- Splitting a wide character to the right of the cursor touches nothing printed. -/
theorem splitRight (h : Printed s₀ s shown) : Printed s₀ s.splitRight shown := by
  rw [Screen.splitRight]
  split
  · exact h.set h.x.ge _
  · exact h

/-- The slot before the cursor is the last one printed. -/
theorem cell_pred {slot : Slot} (h : Printed s₀ s (shown ++ [slot])) : s.cell s.y (s.x - 1) = slot := by
  have hx : s.x - 1 = shown.length := by simp [h.x]
  rw [hx, h.slots _ (by simp)]
  simp

/-- There is nothing to split on the left when printing goes on. -/
theorem splitLeft_eq (h : Printed s₀ s shown) (hwhole : Whole shown) : s.splitLeft = s := by
  rw [Screen.splitLeft, if_neg]
  rintro ⟨hpos, hwide⟩
  induction shown using List.reverseRecOn with
  | nil => simp [h.x] at hpos
  | append_singleton shown slot _ =>
    rw [h.cell_pred, hwhole slot (by simp)] at hwide
    exact absurd hwide (by simp)

/-- Printing one more character. -/
theorem put (h : Printed s₀ s shown) (hwhole : Whole shown) (c : Char) (wide : Bool)
    (hfit : shown.length + (Glyph.mk c [] s.pen wide).slots.length ≤ s.columns) :
    Printed s₀ (s.put c wide) (shown ++ (Glyph.mk c [] s.pen wide).slots) := by
  have hwrap : s.wrap (Glyph.mk c [] s.pen wide).slots.length = s := by
    rw [Screen.wrap, if_neg (by rw [h.x]; omega)]
  rw [Screen.put, hwrap, h.splitLeft_eq hwhole]
  refine splitRight ?_
  cases wide with
  | false => exact h.advance _
  | true =>
    have hboth := (h.advance (.glyph ⟨c, [], s.pen, true⟩)).advance (.spacer s.pen)
    rw [List.append_assoc] at hboth
    exact hboth

/-- Changing a slot that was printed. -/
theorem replace {old : Slot} {rest : List Slot} (h : Printed s₀ s (shown ++ old :: rest))
    (slot : Slot) : Printed s₀ (s.set shown.length slot) (shown ++ slot :: rest) where
  columns := h.columns
  rows := h.rows
  visible := h.visible
  y := h.y
  x := by simpa [Screen.set] using h.x
  frame row hrow := by
    funext c
    have : ¬ (row = s.y ∧ c = shown.length) := fun hc => hrow hc.1
    simpa [Screen.set, this] using congrFun (h.frame row hrow) c
  slots i hi := by
    have hi' : i < (shown ++ old :: rest).length := by simpa using hi
    rcases lt_trichotomy i shown.length with hlt | rfl | hgt
    · have := h.slots i hi'
      rw [List.getElem_append_left hlt] at this ⊢
      simpa [Screen.set, hlt.ne] using this
    · simp [Screen.set]
    · have := h.slots i hi'
      obtain ⟨k, rfl⟩ : ∃ k, i = shown.length + (k + 1) := ⟨i - shown.length - 1, by omega⟩
      rw [List.getElem_append_right (by omega)] at this ⊢
      simpa [Screen.set] using this

/-- Printing a zero-width character after a glyph. -/
theorem combine {g : Glyph} (h : Printed s₀ s (shown ++ g.slots)) (c : Char) :
    Printed s₀ (s.combine c) (shown ++ (Glyph.slots { g with marks := g.marks ++ [c] })) := by
  have hpos : s.x ≠ 0 := by
    rw [h.x, Glyph.slots]
    split <;> simp
  rw [Screen.combine, if_neg hpos]
  cases hwide : g.wide with
  | false =>
    simp only [Glyph.slots, hwide, Bool.false_eq_true, if_false] at h ⊢
    have hx : s.x - 1 = shown.length := by simp [h.x]
    have hcell : s.cell s.y shown.length = .glyph g := by rw [← hx]; exact h.cell_pred
    simpa [hx, hcell, Slot.isSpacer, hwide] using h.replace _
  | true =>
    simp only [Glyph.slots, hwide, if_true] at h ⊢
    have hx : s.x - 2 = shown.length := by simp [h.x]
    have hcell : s.cell s.y shown.length = .glyph g := by
      rw [h.slots _ (by simp), List.getElem_append_right le_rfl]
      simp
    have hspacer : s.cell s.y (s.x - 1) = .spacer g.pen := by
      have hlast : Printed s₀ s ((shown ++ [.glyph g]) ++ [.spacer g.pen]) := by simpa using h
      exact hlast.cell_pred
    simpa [hx, hcell, hspacer, Slot.isSpacer, hwide] using h.replace _

/-- Printing zero-width characters after a glyph. -/
theorem marks {g : Glyph} {cs : List Char} (h : Printed s₀ s (shown ++ g.slots))
    (hcs : ∀ c ∈ cs, width c = 0) :
    Printed s₀ ((cs.map Action.print).foldl (Screen.perform width) s)
      (shown ++ (Glyph.slots { g with marks := g.marks ++ cs })) := by
  induction cs generalizing s g with
  | nil => simpa using h
  | cons c cs ih =>
    have hc : s.perform width (.print c) = s.combine c := by
      simp [Screen.perform, Screen.print, hcs c]
    have := ih (hc ▸ h.combine c) fun d hd => hcs d (List.mem_cons_of_mem _ hd)
    simpa using this

/-- Printing a glyph. -/
theorem glyph {g : Glyph} (h : Printed s₀ s shown) (hwhole : Whole shown) (hpen : s.pen = g.pen)
    (hg : g.Fits width) (hfit : shown.length + g.slots.length ≤ s.columns) :
    Printed s₀ (g.actions.foldl (Screen.perform width) s) (shown ++ g.slots) := by
  obtain ⟨c, cs, pen, wide⟩ := g
  obtain rfl : s.pen = pen := hpen
  have hc : s.perform width (.print c) = s.put c wide := by
    have := hg.char
    cases wide <;> simp_all [Screen.perform, Screen.print]
  have hput := h.put hwhole c wide (by simpa [Glyph.slots, apply_ite] using hfit)
  rw [← hc] at hput
  exact hput.marks hg.marks

end Printed

/-! ## What printing leaves alone -/

namespace Screen

variable {width : Char → ℕ}

@[simp] theorem size_set (s : Screen) (column : ℕ) (slot : Slot) :
    (s.set column slot).size = s.size := rfl

@[simp] theorem size_lineFeed (s : Screen) : s.lineFeed.size = s.size := by
  rw [lineFeed]; split <;> rfl

@[simp] theorem size_wrap (s : Screen) (n : ℕ) : (s.wrap n).size = s.size := by
  rw [wrap]
  split
  · exact s.size_lineFeed
  · rfl

@[simp] theorem size_splitLeft (s : Screen) : s.splitLeft.size = s.size := by
  rw [splitLeft]; split <;> rfl

@[simp] theorem size_splitRight (s : Screen) : s.splitRight.size = s.size := by
  rw [splitRight]; split <;> rfl

theorem size_put (s : Screen) (c : Char) (wide : Bool) : (s.put c wide).size = s.size := by
  have hstart : ((s.wrap (Glyph.mk c [] s.pen wide).slots.length).splitLeft).size = s.size := by
    simp
  rw [put, size_splitRight]
  cases wide <;> exact hstart

theorem size_combine (s : Screen) (c : Char) : (s.combine c).size = s.size := by
  rw [combine]
  split
  · rfl
  · dsimp only
    split <;> rfl

theorem size_execute (s : Screen) (c : Char) : (s.execute c).size = s.size := by
  rw [execute]
  split_ifs <;> first | rfl | exact s.size_lineFeed

theorem size_csi (s : Screen) (question : Bool) (params : List (List ℕ)) (final : Char) :
    (s.csi question params final).size = s.size := by
  unfold csi
  split
  · rfl
  · rfl
  · rfl
  · split <;> rfl
  · split <;> rfl
  · rfl

/-- No action changes the dimensions. -/
theorem size_perform (s : Screen) (a : Action) : (s.perform width a).size = s.size := by
  cases a with
  | print c =>
    rw [perform, print]
    split
    · exact s.size_combine c
    · exact s.size_put c false
    · exact s.size_put c true
  | execute c => exact s.size_execute c
  | csi question params final => exact s.size_csi question params final

/-- No actions change the dimensions. -/
theorem size_foldl_perform (s : Screen) (actions : List Action) :
    (actions.foldl (perform width) s).size = s.size := by
  induction actions generalizing s with
  | nil => rfl
  | cons a actions ih => rw [List.foldl_cons, ih, size_perform]

@[simp] theorem pen_set (s : Screen) (column : ℕ) (slot : Slot) : (s.set column slot).pen = s.pen :=
  rfl

@[simp] theorem pen_lineFeed (s : Screen) : s.lineFeed.pen = s.pen := by
  rw [lineFeed]; split <;> rfl

@[simp] theorem pen_wrap (s : Screen) (n : ℕ) : (s.wrap n).pen = s.pen := by
  rw [wrap]; split <;> simp

@[simp] theorem pen_splitLeft (s : Screen) : s.splitLeft.pen = s.pen := by
  rw [splitLeft]; split <;> rfl

@[simp] theorem pen_splitRight (s : Screen) : s.splitRight.pen = s.pen := by
  rw [splitRight]; split <;> rfl

@[simp] theorem pen_put (s : Screen) (c : Char) (wide : Bool) : (s.put c wide).pen = s.pen := by
  cases wide <;> simp [put]

@[simp] theorem pen_combine (s : Screen) (c : Char) : (s.combine c).pen = s.pen := by
  rw [combine]
  split
  · rfl
  · dsimp only
    split <;> rfl

/-- Printing does not change the pen. -/
theorem pen_print (s : Screen) (c : Char) : (s.print width c).pen = s.pen := by
  rw [print]
  split <;> simp

/-- Printing a glyph does not change the pen. -/
theorem pen_glyph (s : Screen) (g : Glyph) :
    (g.actions.foldl (perform width) s).pen = s.pen := by
  have hprint : ∀ (cs : List Char) (s : Screen),
      ((cs.map Action.print).foldl (perform width) s).pen = s.pen := by
    intro cs
    induction cs with
    | nil => intro s; rfl
    | cons c cs ih => intro s; rw [List.map_cons, List.foldl_cons, ih]; exact s.pen_print c
  exact hprint (g.char :: g.marks) s

end Screen

end Vt
