import Mathlib
import Termua.Lib.MouseProtocol
import Termua.Cast.Serialize

/-!
# Mouse reports of the alacritty backend

`gpui_term/src/backends/alacritty/mouse.rs`. An event becomes a button code, the code gets the
modifiers, and the terminal's modes choose one of three encodings. `from_button` gives the right
button the code of the middle one and the middle button that of the right one; `from_move_button` does
not.
-/

namespace Termua.Terminal

open Cast (GridPoint decimal)
open MouseProtocol (Button Kind Modifiers)

/-- The bits of `TermMode` that the reports read. -/
structure MouseMode where
  mouseReportClick : Bool := false
  mouseMotion : Bool := false
  mouseDrag : Bool := false
  sgrMouse : Bool := false
  utf8Mouse : Bool := false
  deriving DecidableEq, Repr

/-- `TermMode::MOUSE_MODE` intersects the mode. -/
def MouseMode.mouseMode (mode : MouseMode) : Bool :=
  mode.mouseReportClick || mode.mouseMotion || mode.mouseDrag

/-- `MouseFormat`. -/
inductive MouseFormat
  | sgr
  | normal (utf8 : Bool)
  deriving DecidableEq, Repr

/-- `MouseFormat::from_mode`. -/
def MouseFormat.fromMode (mode : MouseMode) : MouseFormat :=
  if mode.sgrMouse then .sgr
  else if mode.utf8Mouse then .normal true
  else .normal false

/-- `gpui::MouseButton`. -/
inductive MouseButton
  | left
  | right
  | middle
  | navigate (forward : Bool)
  deriving DecidableEq, Repr

/-- `AlacMouseButton`. -/
inductive AlacMouseButton
  | leftButton
  | middleButton
  | rightButton
  | leftMove
  | middleMove
  | rightMove
  | noneMove
  | scrollUp
  | scrollDown
  | other
  deriving DecidableEq, Repr

namespace AlacMouseButton

/-- The discriminant. -/
def code : AlacMouseButton → UInt8
  | leftButton => 0
  | middleButton => 1
  | rightButton => 2
  | leftMove => 32
  | middleMove => 33
  | rightMove => 34
  | noneMove => 35
  | scrollUp => 64
  | scrollDown => 65
  | other => 99

/-- `from_move_button`. -/
def fromMoveButton : Option MouseButton → AlacMouseButton
  | some .left => leftMove
  | some .middle => middleMove
  | some .right => rightMove
  | some (.navigate _) => other
  | none => noneMove

/-- `from_button`. -/
def fromButton : MouseButton → AlacMouseButton
  | .left => leftButton
  | .right => middleButton
  | .middle => rightButton
  | .navigate _ => other

end AlacMouseButton

/-- `gpui::ScrollDelta`, its vertical part. -/
inductive ScrollDelta
  | pixels (y : ℚ)
  | lines (y : ℚ)

def ScrollDelta.y : ScrollDelta → ℚ
  | pixels y => y
  | lines y => y

/-- `from_scroll`. -/
def AlacMouseButton.fromScroll (delta : ScrollDelta) : AlacMouseButton :=
  if 0 < delta.y then scrollUp else scrollDown

/-- The position of `normal_mouse_report` from 95 on. -/
def mousePosEncode (pos : ℕ) : List UInt8 :=
  let pos := 32 + 1 + pos
  [UInt8.ofNat (0xC0 + pos / 64), UInt8.ofNat (0x80 + (pos &&& 63))]

/-- A position of `normal_mouse_report`. -/
def normalPosition (utf8 : Bool) (pos : ℕ) : List UInt8 :=
  if utf8 ∧ 95 ≤ pos then mousePosEncode pos else [32 + 1 + UInt8.ofNat pos]

/-- `max_point`. -/
def maxPoint (utf8 : Bool) : ℕ := if utf8 then 2015 else 223

/-- `normal_mouse_report`. The line is not negative where it is called. -/
def normalMouseReport (point : GridPoint) (button : UInt8) (utf8 : Bool) : Option (List UInt8) :=
  if maxPoint utf8 ≤ point.line ∨ maxPoint utf8 ≤ point.column then none
  else
    some ([0x1B, 0x5B, 0x4D, 32 + button] ++ normalPosition utf8 point.column ++
      normalPosition utf8 point.line.toNat)

/-- `sgr_mouse_report`. The line is not negative where it is called. -/
def sgrMouseReport (point : GridPoint) (button : UInt8) (pressed : Bool) : List Char :=
  let c := if pressed then 'M' else 'm'
  ['\x1b', '[', '<'] ++ (decimal button.toNat ++ ([';'] ++ (decimal (point.column + 1) ++
    ([';'] ++ (decimal (point.line.toNat + 1) ++ [c])))))

/-- The sum of the modifiers in `mouse_report`. -/
def modifierBits (modifiers : Modifiers) : UInt8 :=
  (if modifiers.shift then 4 else 0) + (if modifiers.alt then 8 else 0) +
    (if modifiers.control then 16 else 0)

/-- `mouse_report`. -/
def mouseReport (point : GridPoint) (button : AlacMouseButton) (pressed : Bool)
    (modifiers : Modifiers) (format : MouseFormat) : Option (List UInt8) :=
  if point.line < 0 then none
  else
    let mods := modifierBits modifiers
    match format with
    | .sgr => some (Utf8.encode (sgrMouseReport point (button.code + mods) pressed))
    | .normal utf8 =>
      if pressed then normalMouseReport point (button.code + mods) utf8
      else normalMouseReport point (3 + mods) utf8

/-- `scroll_report`: the report, once for each line. -/
def scrollReport (point : GridPoint) (scrollLines : ℤ) (delta : ScrollDelta) (modifiers : Modifiers)
    (mode : MouseMode) : Option (List (List UInt8)) :=
  if mode.mouseMode then
    (mouseReport point (.fromScroll delta) true modifiers (.fromMode mode)).map
      (List.replicate (max scrollLines 1).toNat)
  else none

/-- `mouse_button_report`. -/
def mouseButtonReport (point : GridPoint) (button : MouseButton) (modifiers : Modifiers)
    (pressed : Bool) (mode : MouseMode) : Option (List UInt8) :=
  let button := AlacMouseButton.fromButton button
  if button ≠ .other ∧ mode.mouseMode then
    mouseReport point button pressed modifiers (.fromMode mode)
  else none

/-- `mouse_moved_report`. -/
def mouseMovedReport (point : GridPoint) (button : Option MouseButton) (modifiers : Modifiers)
    (mode : MouseMode) : Option (List UInt8) :=
  let button := AlacMouseButton.fromMoveButton button
  if button ≠ .other ∧ (mode.mouseMotion || mode.mouseDrag) then
    if mode.mouseDrag ∧ button = .noneMove then none
    else mouseReport point button true modifiers (.fromMode mode)
  else none

/-! ## Events and what a program reads -/

inductive Wheel
  | up
  | down
  deriving DecidableEq, Repr

/-- The wheel was turned in this direction. -/
def Wheel.Turns (delta : ScrollDelta) : Wheel → Prop
  | up => 0 < delta.y
  | down => delta.y < 0

/-- What the user does with the mouse. -/
inductive MouseEvent
  | press (button : Button)
  | release (button : Button)
  | drag (button : Button)
  | wheel (direction : Wheel) (delta : ScrollDelta) (scrollLines : ℤ) (h : direction.Turns delta)

def MouseButton.of : Button → MouseButton
  | .left => .left
  | .middle => .middle
  | .right => .right

/-- The reports that the backend sends for an event. -/
def reports (point : GridPoint) (modifiers : Modifiers) (mode : MouseMode) :
    MouseEvent → Option (List (List UInt8))
  | .press button => (mouseButtonReport point (.of button) modifiers true mode).map ([·])
  | .release button => (mouseButtonReport point (.of button) modifiers false mode).map ([·])
  | .drag button => (mouseMovedReport point (some (.of button)) modifiers mode).map ([·])
  | .wheel _ delta scrollLines _ => scrollReport point scrollLines delta modifiers mode

/-- The mode asks for reports of the event. -/
def MouseMode.Reports (mode : MouseMode) : MouseEvent → Prop
  | .drag _ => (mode.mouseMotion || mode.mouseDrag) = true
  | _ => mode.mouseMode = true

/-- The cell is inside the range that the format can express. -/
def MouseFormat.Expresses (point : GridPoint) : MouseFormat → Prop
  | sgr => 0 ≤ point.line
  | normal utf8 => 0 ≤ point.line ∧ point.line < maxPoint utf8 ∧ point.column < maxPoint utf8

/-- The decoder of the protocol for a format. -/
def MouseFormat.decode : MouseFormat → List UInt8 → Option MouseProtocol.Report
  | sgr => MouseProtocol.decodeSgr
  | normal true => MouseProtocol.decodeUtf8
  | normal false => MouseProtocol.decodeNormal

/-- What a program is to read; a release has its button only in the SGR format. -/
def MouseEvent.kind (format : MouseFormat) : MouseEvent → Kind
  | press button => .press button
  | release button => .release (if format = .sgr then some button else none)
  | drag button => .drag button
  | wheel .up _ _ _ => .wheelUp
  | wheel .down _ _ _ => .wheelDown

/-- The reports of an event say what happened: in range there are some and each is decoded to the
event, outside there is none. -/
def RoundTrips (point : GridPoint) (modifiers : Modifiers) (mode : MouseMode) (event : MouseEvent) :
    Prop :=
  ((MouseFormat.fromMode mode).Expresses point → ∃ sent, reports point modifiers mode event = some sent ∧
    sent ≠ [] ∧ ∀ bytes ∈ sent, (MouseFormat.fromMode mode).decode bytes =
      some ⟨event.kind (.fromMode mode), modifiers, point.column, point.line.toNat⟩) ∧
  (¬ (MouseFormat.fromMode mode).Expresses point → reports point modifiers mode event = none)

/-- The event tells the middle button from the right one by a code of `from_button`. -/
def MouseEvent.Swapped (format : MouseFormat) : MouseEvent → Prop
  | press button => button ≠ .left
  | release button => format = .sgr ∧ button ≠ .left
  | _ => False

/-! ## A report -/

/-- What a program reads from a button code. -/
def AlacMouseButton.kind : AlacMouseButton → Option Kind
  | leftButton => some (.press .left)
  | middleButton => some (.press .middle)
  | rightButton => some (.press .right)
  | leftMove => some (.drag .left)
  | middleMove => some (.drag .middle)
  | rightMove => some (.drag .right)
  | noneMove => some .motion
  | scrollUp => some .wheelUp
  | scrollDown => some .wheelDown
  | other => none

/-- What a program reads from a report of a button. -/
def MouseFormat.reportedKind (button : AlacMouseButton) (pressed : Bool) : MouseFormat → Option Kind
  | sgr =>
    if pressed then button.kind
    else
      match button.kind with
      | some (.press button) => some (.release (some button))
      | _ => none
  | normal _ => if pressed then button.kind else some (.release none)

section Report

variable {point : GridPoint} {button : AlacMouseButton} {pressed utf8 : Bool}
  {modifiers : Modifiers} {format : MouseFormat} {kind : Kind} {code : UInt8} {pos : ℕ}

/-- A code with modifiers keeps its button and has the modifiers. -/
theorem code_add_modifierBits (button : AlacMouseButton) (modifiers : Modifiers) :
    MouseProtocol.kindOf (button.code + modifierBits modifiers).toNat = button.kind ∧
      MouseProtocol.modifiersOf (button.code + modifierBits modifiers).toNat = modifiers ∧
        (32 + (button.code + modifierBits modifiers)).toNat =
          32 + (button.code + modifierBits modifiers).toNat := by
  obtain ⟨shift, alt, control⟩ := modifiers
  cases button <;> revert shift alt control <;> decide

theorem release_add_modifierBits (modifiers : Modifiers) :
    MouseProtocol.kindOf (3 + modifierBits modifiers).toNat = some (.release none) ∧
      MouseProtocol.modifiersOf (3 + modifierBits modifiers).toNat = modifiers ∧
        (32 + (3 + modifierBits modifiers)).toNat = 32 + (3 + modifierBits modifiers).toNat := by
  obtain ⟨shift, alt, control⟩ := modifiers
  revert shift alt control
  decide

theorem toNat_ofNat (h : pos < 2048) : (Char.ofNat pos).toNat = pos := by
  rw [Char.toNat_ofNat, if_pos (.inl (by omega))]

/-- A position of the UTF-8 encoding is the encoding of a character. -/
theorem normalPosition_utf8 (h : pos < 2015) :
    normalPosition true pos = String.utf8EncodeChar (Char.ofNat (32 + 1 + pos)) := by
  have hval : (Char.ofNat (32 + 1 + pos)).val.toNat = 32 + 1 + pos := toNat_ofNat (by omega)
  unfold normalPosition String.utf8EncodeChar
  simp only [hval, true_and]
  by_cases hlong : 95 ≤ pos
  · have hdiv : (32 + 1 + pos) / 64 % 32 = (32 + 1 + pos) / 64 := Nat.mod_eq_of_lt (by omega)
    have hand : (32 + 1 + pos) &&& 63 = (32 + 1 + pos) % 64 :=
      Nat.and_two_pow_sub_one_eq_mod _ 6
    rw [if_pos hlong, if_neg (by omega), if_pos (by omega), mousePosEncode, hdiv, hand,
      Nat.add_comm 0xC0, Nat.add_comm 0x80]
  · rw [if_neg hlong, if_pos (by omega), UInt8.ofNat_add]
    rfl

/-- The normal encoding has a byte for each position. -/
theorem normalPosition_normal (h : pos < 223) :
    (normalPosition false pos).map UInt8.toNat = [32 + 1 + pos] := by
  unfold normalPosition
  rw [if_neg (fun h => Bool.false_ne_true h.1), List.map_singleton, UInt8.toNat_add,
    UInt8.toNat_ofNat']
  congr 1
  show (33 + pos % 256) % 256 = 33 + pos
  omega

theorem decode_normal (hkind : MouseProtocol.kindOf code.toNat = some kind)
    (hcode : (32 + code).toNat = 32 + code.toNat)
    (hpoint : (MouseFormat.normal utf8).Expresses point) :
    ∃ bytes, normalMouseReport point code utf8 = some bytes ∧
      (MouseFormat.normal utf8).decode bytes =
        some ⟨kind, MouseProtocol.modifiersOf code.toNat, point.column, point.line.toNat⟩ := by
  obtain ⟨hnonneg, hline, hcolumn⟩ := hpoint
  have hcodes := MouseProtocol.decodeCodes_eq (x := point.column) (y := point.line.toNat) hkind
  refine ⟨_, if_neg (by omega), ?_⟩
  cases utf8 with
  -- one byte for each coordinate
  | false =>
    have hcolumn : point.column < 223 := hcolumn
    have hline : point.line.toNat < 223 := by
      have hline : point.line < (223 : ℕ) := hline
      omega
    show MouseProtocol.decodeNormal _ = _
    unfold MouseProtocol.decodeNormal
    rw [List.map_append, List.map_append, normalPosition_normal hcolumn, normalPosition_normal hline]
    simp only [List.map_cons, hcode]
    exact hcodes
  -- the same numbers as characters, of one byte or two
  | true =>
    have hcolumn : point.column < 2015 := hcolumn
    have hline : point.line.toNat < 2015 := by
      have hline : point.line < (2015 : ℕ) := hline
      omega
    show MouseProtocol.decodeUtf8 _ = _
    unfold MouseProtocol.decodeUtf8
    have hlt := MouseProtocol.lt_of_kindOf hkind
    have hchar : (Char.ofNat (32 + code.toNat)).toNat = 32 + code.toNat := toNat_ofNat (by omega)
    have hbyte : String.utf8EncodeChar (Char.ofNat (32 + code.toNat)) = [32 + code] := by
      rw [Utf8.utf8EncodeChar_of_ascii (by omega), hchar, ← hcode, UInt8.ofNat_toNat]
    have hencode : [0x1B, 0x5B, 0x4D, 32 + code] ++ normalPosition true point.column ++
        normalPosition true point.line.toNat =
          Utf8.encode ['\x1b', '[', 'M', Char.ofNat (32 + code.toNat),
            Char.ofNat (32 + 1 + point.column), Char.ofNat (32 + 1 + point.line.toNat)] := by
      rw [normalPosition_utf8 hcolumn, normalPosition_utf8 hline]
      simp only [Utf8.encode_cons, Utf8.encode_nil, List.append_nil, hbyte]
      rfl
    rw [hencode, Utf8.decode_encode]
    simp only [Option.bind_eq_bind, Option.bind_some, List.map_cons, List.map_nil, hchar,
      toNat_ofNat (show 32 + 1 + point.column < 2048 by omega),
      toNat_ofNat (show 32 + 1 + point.line.toNat < 2048 by omega)]
    exact hcodes

/-- A report of a cell in range is decoded to the button that its code stands for. -/
theorem decode_mouseReport (hkind : format.reportedKind button pressed = some kind)
    (hpoint : format.Expresses point) :
    ∃ bytes, mouseReport point button pressed modifiers format = some bytes ∧
      format.decode bytes = some ⟨kind, modifiers, point.column, point.line.toNat⟩ := by
  obtain ⟨hbutton, hmodifiers, hcode⟩ := code_add_modifierBits button modifiers
  have hline : ¬ point.line < 0 := by
    cases format with
    | sgr => exact Int.not_lt.mpr hpoint
    | normal utf8 => exact Int.not_lt.mpr hpoint.1
  unfold mouseReport
  rw [if_neg hline]
  cases format with
  | sgr =>
    refine ⟨_, rfl, ?_⟩
    have hsgr : MouseProtocol.sgrKindOf (button.code + modifierBits modifiers).toNat
        (if pressed then 'M' else 'm') = some kind := by
      unfold MouseProtocol.sgrKindOf
      rw [hbutton]
      cases pressed <;> exact hkind
    have hfinal : (if pressed then 'M' else 'm').isDigit = false := by
      cases pressed <;> rfl
    have hdecode := MouseProtocol.decodeSgr_encode (x := point.column) (y := point.line.toNat)
      hfinal hsgr
    rwa [hmodifiers] at hdecode
  | normal utf8 =>
    cases pressed with
    | true =>
      have hdecode := decode_normal (hbutton.trans hkind) hcode hpoint
      rwa [hmodifiers] at hdecode
    | false =>
      obtain ⟨hrelease, hmodifiers, hcode⟩ := release_add_modifierBits modifiers
      have hdecode := decode_normal (hrelease.trans hkind) hcode hpoint
      rwa [hmodifiers] at hdecode

theorem mouseReport_eq_none (hpoint : ¬ format.Expresses point) :
    mouseReport point button pressed modifiers format = none := by
  unfold mouseReport
  split
  · rfl
  · next hline =>
    have hnonneg := Int.not_lt.mp hline
    cases format with
    | sgr => exact absurd hnonneg hpoint
    | normal utf8 =>
      have hout (code : UInt8) : normalMouseReport point code utf8 = none := by
        refine if_pos (Decidable.not_not.mp fun hin => hpoint ?_)
        rw [not_or] at hin
        exact ⟨hnonneg, Int.not_le.mp hin.1, Nat.not_le.mp hin.2⟩
      dsimp only
      rw [hout, hout, ite_self]

end Report

/-! ## An event -/

section Event

variable {point : GridPoint} {modifiers : Modifiers} {mode : MouseMode} {event : MouseEvent}
  {format : MouseFormat}

/-- The button that the backend takes for an event. -/
def MouseEvent.alacButton : MouseEvent → AlacMouseButton
  | press button => .fromButton (.of button)
  | release button => .fromButton (.of button)
  | drag button => .fromMoveButton (some (.of button))
  | wheel _ delta _ _ => .fromScroll delta

def MouseEvent.pressed : MouseEvent → Bool
  | release _ => false
  | _ => true

/-- An event that the mode asks for is one report, some times. -/
theorem reports_eq (hmode : mode.Reports event) :
    ∃ n, 0 < n ∧ reports point modifiers mode event =
      (mouseReport point event.alacButton event.pressed modifiers (.fromMode mode)).map
        (List.replicate n) := by
  cases event with
  | press button =>
    have hother : AlacMouseButton.fromButton (.of button) ≠ .other := by cases button <;> decide
    refine ⟨1, Nat.one_pos, ?_⟩
    show (if _ then _ else none : Option (List UInt8)).map _ = _
    rw [if_pos ⟨hother, hmode⟩]
    rfl
  | release button =>
    have hother : AlacMouseButton.fromButton (.of button) ≠ .other := by cases button <;> decide
    refine ⟨1, Nat.one_pos, ?_⟩
    show (if _ then _ else none : Option (List UInt8)).map _ = _
    rw [if_pos ⟨hother, hmode⟩]
    rfl
  | drag button =>
    have hother : AlacMouseButton.fromMoveButton (some (.of button)) ≠ .other := by
      cases button <;> decide
    have hnone : AlacMouseButton.fromMoveButton (some (.of button)) ≠ .noneMove := by
      cases button <;> decide
    refine ⟨1, Nat.one_pos, ?_⟩
    show (if _ then if _ then none else _ else none : Option (List UInt8)).map _ = _
    rw [if_pos ⟨hother, hmode⟩, if_neg fun h => hnone h.2]
    rfl
  | wheel direction delta scrollLines hturns =>
    refine ⟨(max scrollLines 1).toNat, by omega, ?_⟩
    exact if_pos hmode

/-- The button that `from_button` tells a program. -/
def swapped : Button → Button
  | .left => .left
  | .middle => .right
  | .right => .middle

theorem swapped_eq_self_iff {button : Button} : swapped button = button ↔ button = .left := by
  cases button <;> decide

/-- What a program reads. -/
def MouseEvent.readAs (format : MouseFormat) : MouseEvent → Kind
  | press button => .press (swapped button)
  | release button => .release (if format = .sgr then some (swapped button) else none)
  | event => event.kind format

theorem reportedKind_eq (event : MouseEvent) (format : MouseFormat) :
    format.reportedKind event.alacButton event.pressed = some (event.readAs format) := by
  cases event with
  | press button => cases format <;> cases button <;> rfl
  | release button => cases format <;> cases button <;> rfl
  | drag button => cases format <;> cases button <;> rfl
  | wheel direction delta scrollLines hturns =>
    cases direction with
    | up =>
      have hbutton : AlacMouseButton.fromScroll delta = .scrollUp := if_pos hturns
      change format.reportedKind (AlacMouseButton.fromScroll delta) true = _
      rw [hbutton]
      cases format <;> rfl
    | down =>
      have hbutton : AlacMouseButton.fromScroll delta = .scrollDown := if_neg (le_of_lt hturns).not_gt
      change format.reportedKind (AlacMouseButton.fromScroll delta) true = _
      rw [hbutton]
      cases format <;> rfl

/-- A program reads the event exactly when the middle and the right button are not swapped in it. -/
theorem readAs_eq_kind_iff : event.readAs format = event.kind format ↔ ¬ event.Swapped format := by
  cases event with
  | press button =>
    show Kind.press _ = Kind.press _ ↔ ¬ button ≠ .left
    rw [Kind.press.injEq, swapped_eq_self_iff, not_not]
  | release button =>
    show Kind.release _ = Kind.release _ ↔ ¬ (format = .sgr ∧ button ≠ .left)
    by_cases hsgr : format = .sgr
    · rw [if_pos hsgr, if_pos hsgr, Kind.release.injEq, Option.some.injEq, swapped_eq_self_iff,
        and_iff_right hsgr, not_not]
    · rw [if_neg hsgr, if_neg hsgr]
      exact iff_of_true rfl fun h => hsgr h.1
  | drag => exact iff_of_true rfl not_false
  | wheel => exact iff_of_true rfl not_false

/-- A report says what happened exactly when the cell is out of range, so that there is none, or the
event does not tell the middle button from the right one. -/
theorem roundTrips_iff (point : GridPoint) (modifiers : Modifiers) (mode : MouseMode)
    (event : MouseEvent) (hmode : mode.Reports event) :
    RoundTrips point modifiers mode event ↔
      ((MouseFormat.fromMode mode).Expresses point → ¬ event.Swapped (.fromMode mode)) := by
  obtain ⟨n, hn, hreports⟩ := @reports_eq point modifiers mode event hmode
  have hkind := reportedKind_eq event (.fromMode mode)
  have hdecode : (MouseFormat.fromMode mode).Expresses point → _ :=
    @decode_mouseReport point event.alacButton event.pressed modifiers _ _ hkind
  rw [← readAs_eq_kind_iff]
  constructor
  · intro h hpoint
    obtain ⟨bytes, hbytes, hdecode⟩ := hdecode hpoint
    obtain ⟨sent, hsent, -, hall⟩ := h.1 hpoint
    rw [hreports, hbytes, Option.map_some, Option.some.injEq] at hsent
    have hread := hall bytes (hsent ▸ List.mem_replicate.mpr ⟨hn.ne', rfl⟩)
    rw [hdecode, Option.some.injEq, MouseProtocol.Report.mk.injEq] at hread
    exact hread.1
  · intro h
    refine ⟨fun hpoint => ?_, fun hpoint => ?_⟩
    · obtain ⟨bytes, hbytes, hdecode⟩ := hdecode hpoint
      refine ⟨List.replicate n bytes, ?_, ?_, ?_⟩
      · rw [hreports, hbytes, Option.map_some]
      · exact List.ne_nil_of_length_pos (by rwa [List.length_replicate])
      · intro bytes' hmem
        rw [List.eq_of_mem_replicate hmem, hdecode, h hpoint]
    · rw [hreports, mouseReport_eq_none hpoint, Option.map_none]

/-- Click reports in the UTF-8 encoding. -/
def clickUtf8 : MouseMode where
  mouseReportClick := true
  utf8Mouse := true

/-- A left click far down on the right, with control. -/
theorem roundTrips_leftPress :
    RoundTrips ⟨200, 1000⟩ ⟨false, false, true⟩ clickUtf8 (.press .left) :=
  (roundTrips_iff ⟨200, 1000⟩ ⟨false, false, true⟩ clickUtf8 (.press .left) (by exact rfl)).mpr
    fun _ h => h rfl

/-- A program reads a press of the middle button as one of the right button. -/
theorem not_roundTrips_middlePress :
    ¬ RoundTrips ⟨0, 0⟩ ⟨false, false, false⟩ { mouseReportClick := true, sgrMouse := true }
      (.press .middle) := by
  intro h
  obtain ⟨sent, hsent, -, hall⟩ := h.1 le_rfl
  have hreport : reports ⟨0, 0⟩ ⟨false, false, false⟩ { mouseReportClick := true, sgrMouse := true }
      (.press .middle) = some [Utf8.encode ['\x1b', '[', '<', '2', ';', '1', ';', '1', 'M']] := by
    decide +kernel
  have hread := hall _ (Option.some.inj (hreport.symm.trans hsent) ▸ List.mem_singleton_self _)
  exact absurd hread (by decide +kernel)

end Event

end Termua.Terminal
