import Mathlib
import Termua.Lib.Utf8
import Termua.Lib.Text
import Termua.Cast.Serialize

/-!
# The cast recorder

`CastWriter`, `CastRecorderSender` and the recorder thread of `gpui_term/src/cast.rs`. The file is
modelled by its text; the JSON library is a parameter, of which the recorder and the player use that
what is written is one line and is read back.
-/

namespace Termua.Cast

/-- A JSON value, its numbers in a type of the library's. -/
inductive JsonValue (τ : Type)
  | number (n : τ)
  | string (s : List Char)
  | array (vs : List (JsonValue τ))
  | object (fields : List (List Char × JsonValue τ))
  | other

/-- The header that `CastWriter::new` writes. -/
structure CastHeader where
  version : ℕ
  width : ℕ
  height : ℕ
  timestamp : ℕ
  env : List (List Char × List Char)

/-- What the recorder and the player use of `serde_json`: the texts that `to_writer` makes of a
header and of `(t, kind, payload)`, `from_str`, and `as_u64` of a number. -/
structure SerdeJson (τ : Type) where
  headerText : CastHeader → List Char
  eventText : τ → List Char → List Char → List Char
  fromStr : List Char → Option (JsonValue τ)
  asU64 : τ → Option ℕ

/-- The text is a line on its own, without blanks around it. -/
structure IsLine (text : List Char) : Prop where
  newline : '\n' ∉ text
  head : ∃ c rest, text = c :: rest ∧ Text.isWhitespace c = false
  last : ∃ init c, text = init ++ [c] ∧ Text.isWhitespace c = false

/-- The documented behaviour of `serde_json`: its compact form is one line, and reading it gives the
value back, numbers as the library reads them. -/
structure SerdeJson.Lawful {τ : Type} (json : SerdeJson τ) : Prop where
  header_line : ∀ header, IsLine (json.headerText header)
  event_line : ∀ t kind payload, IsLine (json.eventText t kind payload)
  header_read : ∀ header, ∃ fields n, json.fromStr (json.headerText header) = some (.object fields) ∧
    fields.lookup "version".toList = some (.number n) ∧ json.asU64 n = some header.version
  event_read : ∀ t kind payload, ∃ t', json.fromStr (json.eventText t kind payload) =
    some (.array [.number t', .string kind, .string payload])

variable {τ : Type} (json : SerdeJson τ)

/-- `CastWriter::write_event`, on the text written so far. -/
def writeEvent (w : List Char) (t : τ) (kind payload : List Char) : List Char :=
  w ++ json.eventText t kind payload ++ ['\n']

/-- `CastWriter::write_text_event`. -/
def writeTextEvent (w : List Char) (t : τ) (kind : List Char) (bytes : List UInt8) : List Char :=
  writeEvent json w t kind (Utf8.decodeLossy bytes)

/-- `CastWriter::write_output`. -/
def writeOutput (w : List Char) (t : τ) (bytes : List UInt8) : List Char :=
  writeTextEvent json w t ['o'] bytes

/-- `CastWriter::write_input`. -/
def writeInput (w : List Char) (t : τ) (bytes : List UInt8) : List Char :=
  writeTextEvent json w t ['i'] bytes

/-- `CastWriter::write_resize`. -/
def writeResize (w : List Char) (t : τ) (cols rows : ℕ) : List Char :=
  writeEvent json w t ['r'] (decimal cols ++ ['x'] ++ decimal rows)

/-- `CastMsg`. -/
inductive CastMsg (τ : Type)
  | output (t : τ) (bytes : List UInt8)
  | input (t : τ) (bytes : List UInt8)
  | resize (t : τ) (cols rows : ℕ)
  | stop

/-- A call of the terminal's backend on its `CastRecorderSender`, and when it was made. -/
inductive CastCall (τ : Type)
  | output (t : τ) (bytes : List UInt8)
  | input (t : τ) (bytes : List UInt8)
  | resize (t : τ) (cols rows : ℕ)

/-- The message that a call sends. -/
def CastCall.send (includeInput : Bool) : CastCall τ → Option (CastMsg τ)
  | .output t bytes => some (.output t bytes)
  | .input t bytes => if !includeInput then none else some (.input t bytes)
  | .resize t cols rows => some (.resize t cols rows)

/-- The recorder thread's loop over its channel. -/
def recorderLoop : List (CastMsg τ) → List Char → List Char
  | [], w => w
  | .output t bytes :: msgs, w => recorderLoop msgs (writeOutput json w t bytes)
  | .input t bytes :: msgs, w => recorderLoop msgs (writeInput json w t bytes)
  | .resize t cols rows :: msgs, w => recorderLoop msgs (writeResize json w t cols rows)
  | .stop :: _, w => w

/-- The file of a recording, from `start_cast_recorder` to `stop_and_join`. -/
def record (header : CastHeader) (includeInput : Bool) (calls : List (CastCall τ)) : List Char :=
  recorderLoop json (calls.filterMap (CastCall.send includeInput) ++ [.stop])
    (json.headerText { header with version := 2 } ++ ['\n'])

/-- The chunks of the calls of `output`. -/
def outputChunks (calls : List (CastCall τ)) : List (List UInt8) :=
  calls.filterMap fun
    | .output _ bytes => some bytes
    | _ => none

/-! ## The lines of a recording -/

/-- The kind and the payload of a message's line. -/
def CastMsg.entry : CastMsg τ → Option (τ × List Char × List Char)
  | .output t bytes => some (t, ['o'], Utf8.decodeLossy bytes)
  | .input t bytes => some (t, ['i'], Utf8.decodeLossy bytes)
  | .resize t cols rows =>
    some (t, ['r'], decimal cols ++ ['x'] ++ decimal rows)
  | .stop => none

/-- The entries that a recording consists of. -/
def entries (includeInput : Bool) (calls : List (CastCall τ)) : List (τ × List Char × List Char) :=
  (calls.filterMap (CastCall.send includeInput)).filterMap CastMsg.entry

theorem recorderLoop_eq (msgs : List (CastMsg τ)) (hstop : ∀ m ∈ msgs, m ≠ .stop) (w : List Char) :
    recorderLoop json (msgs ++ [.stop]) w =
      w ++ (msgs.filterMap CastMsg.entry).flatMap
        fun entry => json.eventText entry.1 entry.2.1 entry.2.2 ++ ['\n'] := by
  induction msgs generalizing w with
  | nil => simp [recorderLoop]
  | cons m msgs ih =>
    have ih := ih fun m hm => hstop m (List.mem_cons_of_mem _ hm)
    rcases m with ⟨t, bytes⟩ | ⟨t, bytes⟩ | ⟨t, cols, rows⟩ | _
    · simp [recorderLoop, writeOutput, writeTextEvent, writeEvent, ih, CastMsg.entry]
    · simp [recorderLoop, writeInput, writeTextEvent, writeEvent, ih, CastMsg.entry]
    · simp [recorderLoop, writeResize, writeEvent, ih, CastMsg.entry]
    · exact absurd rfl (hstop .stop List.mem_cons_self)

/-- A recording is its header's line and then a line an entry. -/
theorem record_eq (header : CastHeader) (includeInput : Bool) (calls : List (CastCall τ)) :
    record json header includeInput calls =
      json.headerText { header with version := 2 } ++ ['\n'] ++
        (entries includeInput calls).flatMap
          fun entry => json.eventText entry.1 entry.2.1 entry.2.2 ++ ['\n'] := by
  refine recorderLoop_eq json _ (fun m hm => ?_) _
  obtain ⟨call, -, hsend⟩ := List.mem_filterMap.mp hm
  rintro rfl
  rcases call with _ | _ | _
  · cases hsend
  · cases includeInput <;> cases hsend
  · cases hsend

end Termua.Cast
