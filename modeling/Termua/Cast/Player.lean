import Mathlib
import Termua.Lib.Json
import Termua.Cast.Recorder

/-!
# Playing a recording back

`play_cast` of `termua/src/cast_player.rs` without its waits, on a recording of the recorder. The
player writes the decoded payload of each "o" event, less the newline probes of the fish shell that
it holds, and at the end a marker of its own. The recorder decodes each chunk on its own, so its
payloads join to the recorded bytes wherever no chunk ends inside a character.
-/

namespace Termua.Cast

/-! ## Fish newline probes -/

/-- `PREFIX` of `strip_fish_newline_probes`. -/
def probePrefix : List Char := "\x1b[2m⏎\x1b[m".toList

/-- `SUFFIX` of `strip_fish_newline_probes`. -/
def probeSuffix : List Char := "\r⏎ \r\x1b[K".toList

/-- What stands before and after the first occurrence of a pattern. -/
def findSplit (pat : List Char) : List Char → Option (List Char × List Char)
  | [] => if pat = [] then some ([], []) else none
  | c :: text =>
    if pat.isPrefixOf (c :: text) then some ([], (c :: text).drop pat.length)
    else (findSplit pat text).map fun (before, after) => (c :: before, after)

/-- The loop of `strip_fish_newline_probes`, with fuel for each prefix that is found. -/
def stripFuel : ℕ → List Char → List Char
  | 0, text => text
  | n + 1, text =>
    match findSplit probePrefix text with
    | none => text
    | some (before, rest) =>
      match findSplit probeSuffix rest with
      | none => text
      | some (padding, after) =>
        if padding ≠ [] ∧ padding.all (· = ' ') then before ++ stripFuel n after
        else before ++ probePrefix ++ stripFuel n rest

/-- `strip_fish_newline_probes`. -/
def stripFishNewlineProbes (text : List Char) : List Char := stripFuel text.length text

/-! ## The player -/

/-- `CastEvent`. -/
inductive CastEvent (τ : Type)
  | output (t : τ) (text : List Char)
  | input (t : τ) (text : List Char)
  | resize (t : τ) (size : List Char)

variable {τ : Type} (json : SerdeJson τ)

/-- `parse_event_line`; `none` is its error. -/
def parseEventLine (line : List Char) : Option (CastEvent τ) :=
  match json.fromStr line with
  | some (.array [.number t, .string ty, .string data]) =>
    if ty = ['o'] then some (.output t data)
    else if ty = ['i'] then some (.input t data)
    else if ty = ['r'] then some (.resize t data)
    else none
  | _ => none

/-- What the player writes for an event. -/
def CastEvent.played : CastEvent τ → List UInt8
  | .output _ text => Utf8.encode (stripFishNewlineProbes text)
  | .input .. | .resize .. => []

/-- What the player writes when the recording is at its end. -/
def finishedMarker : List UInt8 :=
  Utf8.encode "\r\n[Recorder] Playback finished.\x1b[?12l\x1b[?25l".toList

/-- The loop of `play_cast` over the lines: what it writes, and whether it returns without error. -/
def playLines : List (List Char) → List UInt8 × Bool
  | [] => (finishedMarker, true)
  | line :: lines =>
    if Text.trimEnd line = [] then playLines lines
    else
      match parseEventLine json (Text.trimEnd line) with
      | none => ([], false)
      | some ev =>
        let (written, ok) := playLines lines
        (ev.played ++ written, ok)

/-- The header is accepted. -/
def headerOk (header : List Char) : Bool :=
  if Text.trim header = [] then true
  else
    match json.fromStr (Text.trim header) with
    | none => false
    | some v =>
      let version := match v with
        | .object fields =>
          match fields.lookup "version".toList with
          | some (.number n) => json.asU64 n
          | _ => none
        | _ => none
      version.all (· = 2)

/-- `play_cast`, of a file's text. -/
def playCast (file : List Char) : List UInt8 × Bool :=
  match file.splitOn '\n' with
  | header :: lines =>
    if file = [] then ([], false)
    else if headerOk json header then playLines json lines
    else ([], false)
  | [] => ([], false)

/-- The decoded payloads of a file's "o" events; `none` when a line is not an event. -/
def outputPayloads (file : List Char) : Option (List (List Char)) :=
  (((file.splitOn '\n').drop 1).filter fun line => Text.trimEnd line ≠ []).mapM
      (fun line => parseEventLine json (Text.trimEnd line)) |>.map fun events =>
    events.filterMap fun
      | .output _ text => some text
      | _ => none

/-! ## Reading the lines back -/

variable {json}

/-- The lines of a file, each of which ends with a newline. -/
theorem splitOn_lines {lines : List (List Char)} (h : ∀ line ∈ lines, '\n' ∉ line) :
    (lines.flatMap (· ++ ['\n'])).splitOn '\n' = lines ++ [[]] := by
  induction lines with
  | nil => rfl
  | cons line lines ih =>
    have hfirst := List.splitOn_append_cons_self_of_not_mem (h line List.mem_cons_self)
      (lines.flatMap (· ++ ['\n']))
    rw [List.flatMap_cons, List.append_assoc]
    show (line ++ '\n' :: lines.flatMap (· ++ ['\n'])).splitOn '\n' = _
    rw [hfirst, ih fun line hline => h line (List.mem_cons_of_mem _ hline)]
    rfl

theorem trimEnd_of_isLine {line : List Char} (h : IsLine line) : Text.trimEnd line = line := by
  obtain ⟨init, c, rfl, hc⟩ := h.last
  exact Text.trimEnd_concat hc

theorem trim_of_isLine {line : List Char} (h : IsLine line) : Text.trim line = line := by
  have hend := trimEnd_of_isLine h
  obtain ⟨c, rest, rfl, hc⟩ := h.head
  exact Text.trim_of_trimEnd hend hc

theorem IsLine.ne_nil {line : List Char} (h : IsLine line) : line ≠ [] := by
  obtain ⟨c, rest, rfl, -⟩ := h.head
  exact List.cons_ne_nil c rest

/-- The line of an entry. -/
def entryLine (json : SerdeJson τ) (entry : τ × List Char × List Char) : List Char :=
  json.eventText entry.1 entry.2.1 entry.2.2

/-- The text that a message puts on record as output. -/
def CastMsg.outputText : CastMsg τ → Option (List Char)
  | .output _ bytes => some (Utf8.decodeLossy bytes)
  | _ => none

/-- The text of an output event. -/
def CastEvent.outputText : CastEvent τ → Option (List Char)
  | .output _ text => some text
  | _ => none

/-- The line of a message is read back as an event that puts out the same text. -/
theorem parseEventLine_entry (hjson : json.Lawful) {m : CastMsg τ}
    {entry : τ × List Char × List Char} (h : m.entry = some entry) :
    ∃ ev, parseEventLine json (entryLine json entry) = some ev ∧
      ev.outputText = m.outputText := by
  obtain ⟨t, kind, payload⟩ := entry
  obtain ⟨t', hread⟩ := hjson.event_read t kind payload
  unfold parseEventLine entryLine
  rw [hread]
  rcases m with ⟨t, bytes⟩ | ⟨t, bytes⟩ | ⟨t, cols, rows⟩ | _ <;> cases h
  · exact ⟨_, rfl, rfl⟩
  · exact ⟨_, rfl, rfl⟩
  · exact ⟨_, rfl, rfl⟩

theorem played_eq (ev : CastEvent τ) :
    ev.played = (ev.outputText.map fun text => Utf8.encode (stripFishNewlineProbes text)).getD [] := by
  rcases ev with _ | _ | _ <;> rfl

/-- What the player writes for the lines of messages. -/
theorem playLines_msgs (hjson : json.Lawful) (msgs : List (CastMsg τ)) :
    playLines json ((msgs.filterMap CastMsg.entry).map (entryLine json) ++ [[]]) =
      ((msgs.filterMap CastMsg.outputText).flatMap
        (fun text => Utf8.encode (stripFishNewlineProbes text)) ++ finishedMarker, true) := by
  induction msgs with
  | nil => rfl
  | cons m msgs ih =>
    rcases hentry : m.entry with _ | entry
    · have hquiet : m.outputText = none := by
        rcases m with _ | _ | _ | _ <;> first | rfl | cases hentry
      rw [List.filterMap_cons_none hentry, List.filterMap_cons_none hquiet]
      exact ih
    · obtain ⟨ev, hev, htext⟩ := parseEventLine_entry hjson hentry
      have hline : IsLine (entryLine json entry) := hjson.event_line _ _ _
      rw [List.filterMap_cons_some hentry, List.map_cons, List.cons_append]
      unfold playLines
      rw [trimEnd_of_isLine hline, if_neg hline.ne_nil, hev]
      simp only [ih, played_eq, htext]
      cases hm : m.outputText <;> simp [hm]

/-- The payloads on the lines of messages. -/
theorem mapM_parseEventLine_msgs (hjson : json.Lawful) (msgs : List (CastMsg τ)) :
    ∃ events, ((((msgs.filterMap CastMsg.entry).map (entryLine json) ++ [[]]).filter
        fun line => Text.trimEnd line ≠ []).mapM fun line => parseEventLine json (Text.trimEnd line)) =
          some events ∧
      events.filterMap CastEvent.outputText = msgs.filterMap CastMsg.outputText := by
  induction msgs with
  | nil => exact ⟨[], rfl, rfl⟩
  | cons m msgs ih =>
    obtain ⟨events, hevents, htexts⟩ := ih
    rcases hentry : m.entry with _ | entry
    · have hquiet : m.outputText = none := by
        rcases m with _ | _ | _ | _ <;> first | rfl | cases hentry
      rw [List.filterMap_cons_none hentry, List.filterMap_cons_none hquiet]
      exact ⟨events, hevents, htexts⟩
    · obtain ⟨ev, hev, htext⟩ := parseEventLine_entry hjson hentry
      have hline : IsLine (entryLine json entry) := hjson.event_line _ _ _
      have htrim := trimEnd_of_isLine hline
      refine ⟨ev :: events, ?_, ?_⟩
      · rw [List.filterMap_cons_some hentry, List.map_cons, List.cons_append,
          List.filter_cons_of_pos (by rw [htrim]; simpa using hline.ne_nil), List.mapM_cons, htrim,
          hev, hevents]
        rfl
      · rw [List.filterMap_cons, List.filterMap_cons, htext, htexts]

/-- The messages put on record what the chunks of the calls decode to. -/
theorem filterMap_outputText_send (includeInput : Bool) (calls : List (CastCall τ)) :
    (calls.filterMap (CastCall.send includeInput)).filterMap CastMsg.outputText =
      (outputChunks calls).map Utf8.decodeLossy := by
  unfold outputChunks
  rw [List.filterMap_filterMap, List.map_filterMap]
  congr 1
  funext call
  rcases call with _ | _ | _
  · rfl
  · cases includeInput <;> rfl
  · rfl

/-- The lines of a recording. -/
theorem splitOn_record (hjson : json.Lawful) (header : CastHeader) (includeInput : Bool)
    (calls : List (CastCall τ)) :
    (record json header includeInput calls).splitOn '\n' =
      json.headerText { header with version := 2 } ::
        ((entries includeInput calls).map (entryLine json) ++ [[]]) := by
  have hnewline : ∀ line ∈ (entries includeInput calls).map (entryLine json), '\n' ∉ line := by
    intro line hline
    obtain ⟨entry, -, rfl⟩ := List.mem_map.mp hline
    exact (hjson.event_line _ _ _).newline
  have hlines := splitOn_lines hnewline
  rw [List.flatMap_map] at hlines
  rw [record_eq, List.append_assoc]
  exact (List.splitOn_append_cons_self_of_not_mem (hjson.header_line _).newline _).trans
    (congrArg _ hlines)

theorem headerOk_header (hjson : json.Lawful) (header : CastHeader) :
    headerOk json (json.headerText { header with version := 2 }) = true := by
  obtain ⟨fields, n, hread, hlookup, hn⟩ := hjson.header_read { header with version := 2 }
  have hline := hjson.header_line { header with version := 2 }
  unfold headerOk
  rw [trim_of_isLine hline, if_neg hline.ne_nil, hread]
  show (match fields.lookup "version".toList with
    | some (.number n) => json.asU64 n
    | _ => none).all (· = 2) = true
  rw [hlookup]
  show (json.asU64 n).all (· = 2) = true
  rw [hn]
  rfl

/-! ## What a recording holds -/

/-- The payloads of a recording are what its chunks decode to, each on its own. -/
theorem outputPayloads_record (hjson : json.Lawful) (header : CastHeader) (includeInput : Bool)
    (calls : List (CastCall τ)) :
    outputPayloads json (record json header includeInput calls) =
      some ((outputChunks calls).map Utf8.decodeLossy) := by
  obtain ⟨events, hevents, htexts⟩ :=
    mapM_parseEventLine_msgs hjson (calls.filterMap (CastCall.send includeInput))
  unfold outputPayloads
  rw [splitOn_record hjson, List.drop_one, List.tail_cons]
  unfold entries
  rw [hevents, Option.map_some, ← filterMap_outputText_send includeInput, ← htexts]
  rfl

/-- Playing a recording writes the payloads, less the probes in each, and the marker. -/
theorem playCast_record (hjson : json.Lawful) (header : CastHeader) (includeInput : Bool)
    (calls : List (CastCall τ)) :
    playCast json (record json header includeInput calls) =
      (((outputChunks calls).map Utf8.decodeLossy).flatMap
        (fun text => Utf8.encode (stripFishNewlineProbes text)) ++ finishedMarker, true) := by
  have hne : record json header includeInput calls ≠ [] := by
    obtain ⟨c, rest, hcons, -⟩ := (hjson.header_line { header with version := 2 }).head
    rw [record_eq, hcons]
    exact List.cons_ne_nil _ _
  unfold playCast
  rw [splitOn_record hjson]
  simp only [if_neg hne, headerOk_header hjson, if_true]
  rw [← filterMap_outputText_send includeInput]
  exact playLines_msgs hjson _

/-- Where no call of `output` ends inside a character, the payloads of the recording join to the
recorded bytes, and playing it back writes these bytes, less the newline probes that a chunk holds,
and then the marker. -/
theorem record_faithful (hjson : json.Lawful) (header : CastHeader) (includeInput : Bool)
    (calls : List (CastCall τ)) (hvalid : ∀ bytes ∈ outputChunks calls, Utf8.Valid bytes) :
    ∃ texts, outputPayloads json (record json header includeInput calls) = some texts ∧
      texts.map Utf8.encode = outputChunks calls ∧
      Utf8.encode texts.flatten = (outputChunks calls).flatten ∧
      playCast json (record json header includeInput calls) =
        (texts.flatMap (fun text => Utf8.encode (stripFishNewlineProbes text)) ++ finishedMarker,
          true) := by
  have hchunks : ((outputChunks calls).map Utf8.decodeLossy).map Utf8.encode = outputChunks calls := by
    rw [List.map_map]
    refine List.map_congr_left (fun bytes hbytes => ?_) |>.trans (List.map_id _)
    obtain ⟨text, rfl⟩ := hvalid bytes hbytes
    exact congrArg Utf8.encode Utf8.decodeLossy_encode
  exact ⟨_, outputPayloads_record hjson header includeInput calls, hchunks,
    by rw [Utf8.encode_flatten, hchunks], playCast_record hjson header includeInput calls⟩

/-! ## A library for whole-second times -/

/-- The `env` field of a header. -/
def envText (env : List (List Char × List Char)) : List Char :=
  if env = [] then []
  else
    ",\"env\":\x7b".toList ++
      [','].intercalate (env.map fun (key, value) => Json.quote key ++ ':' :: Json.quote value) ++
      "\x7d".toList

/-- A header between its braces. -/
def headerBody (header : CastHeader) : List Char :=
  "\"version\":".toList ++ (decimal header.version ++ (",\"width\":".toList ++
    decimal header.width ++ ",\"height\":".toList ++ decimal header.height ++
    ",\"timestamp\":".toList ++ decimal header.timestamp ++ envText header.env))

/-- An event between its brackets. -/
def eventBody (t : ℕ) (kind payload : List Char) : List Char :=
  decimal t ++ (".0,".toList ++ (Json.quote kind ++ ([','] ++ Json.quote payload)))

/-- `from_str` on a header, up to its version. -/
def readHeader (text : List Char) : Option (JsonValue ℕ) :=
  (Json.expect ['\x7b'] text).bind fun rest =>
  (Json.expect "\"version\":".toList rest).bind fun rest =>
  (Json.readNat rest).bind fun n =>
  some (.object [("version".toList, .number n.1)])

/-- `from_str` on the line of an event. -/
def readEvent (text : List Char) : Option (JsonValue ℕ) :=
  (Json.expect ['['] text).bind fun rest =>
  (Json.readNat rest).bind fun t =>
  (Json.expect ".0,".toList t.2).bind fun rest =>
  (Json.readString rest).bind fun kind =>
  (Json.expect [','] kind.2).bind fun rest =>
  (Json.readString rest).bind fun payload =>
  if payload.2 = [']'] then some (.array [.number t.1, .string kind.1, .string payload.1]) else none

/-- The compact form of headers, and of events at whole seconds. -/
def secondsJson : SerdeJson ℕ where
  headerText header := ['\x7b'] ++ (headerBody header ++ ['\x7d'])
  eventText t kind payload := ['['] ++ (eventBody t kind payload ++ [']'])
  fromStr text := (readEvent text).or (readHeader text)
  asU64 := some

theorem newline_notMem_decimal (n : ℕ) : '\n' ∉ decimal n := by
  intro h
  have := Nat.isDigit_of_mem_toDigits (b := 10) (by decide) (by decide) h
  simp at this

theorem newline_notMem_envText (env : List (List Char × List Char)) : '\n' ∉ envText env := by
  unfold envText
  split_ifs
  · simp
  · have hfields : '\n' ∉ [','].intercalate
        (env.map fun (key, value) => Json.quote key ++ ':' :: Json.quote value) := by
      generalize env = fields
      induction fields with
      | nil => simp
      | cons field fields ih =>
        rcases fields with _ | ⟨next, fields⟩
        · simp [List.intercalate, Json.newline_notMem_quote]
        · simp only [List.map_cons, List.intercalate_cons_cons] at ih ⊢
          simp [Json.newline_notMem_quote] at ih ⊢
          exact ih
    simp [hfields]

/-- A text between two visible characters. -/
theorem isLine_between {c d : Char} {body : List Char} (hbody : '\n' ∉ body)
    (hc : Text.isWhitespace c = false) (hd : Text.isWhitespace d = false) :
    IsLine ([c] ++ (body ++ [d])) where
  newline := by
    have hc' : '\n' ≠ c := by rintro rfl; cases hc
    have hd' : '\n' ≠ d := by rintro rfl; cases hd
    simp [hbody, hc', hd']
  head := ⟨c, _, rfl, hc⟩
  last := ⟨[c] ++ body, d, (List.append_assoc _ _ _).symm, hd⟩

theorem readEvent_header (header : CastHeader) :
    readEvent (['\x7b'] ++ (headerBody header ++ ['\x7d'])) = none := rfl

theorem readHeader_header (header : CastHeader) :
    readHeader (['\x7b'] ++ (headerBody header ++ ['\x7d'])) =
      some (.object [("version".toList, .number header.version)]) := by
  unfold readHeader headerBody decimal
  rw [Json.expect_append, Option.bind_some, List.append_assoc, Json.expect_append,
    Option.bind_some, List.append_assoc, Json.readNat_toDigits (by simp), Option.bind_some]

theorem readEvent_event (t : ℕ) (kind payload : List Char) :
    readEvent (['['] ++ (eventBody t kind payload ++ [']'])) =
      some (.array [.number t, .string kind, .string payload]) := by
  unfold readEvent eventBody decimal
  rw [Json.expect_append, Option.bind_some, List.append_assoc, Json.readNat_toDigits (by simp),
    Option.bind_some, List.append_assoc, Json.expect_append, Option.bind_some, List.append_assoc,
    Json.readString_quote, Option.bind_some, List.append_assoc, Json.expect_append,
    Option.bind_some, Json.readString_quote, Option.bind_some, if_pos rfl]

theorem secondsJson_lawful : secondsJson.Lawful where
  header_line header := by
    -- no part of the text has a line break, and the braces are no blanks
    have hbody : '\n' ∉ headerBody header := by
      have hversion : '\n' ∉ "\"version\":".toList := by decide
      have hwidth : '\n' ∉ ",\"width\":".toList := by decide
      have hheight : '\n' ∉ ",\"height\":".toList := by decide
      have htimestamp : '\n' ∉ ",\"timestamp\":".toList := by decide
      unfold headerBody
      simp only [List.mem_append, not_or]
      refine ⟨hversion, newline_notMem_decimal _, ⟨⟨⟨⟨⟨hwidth, ?_⟩, hheight⟩, ?_⟩, htimestamp⟩,
        ?_⟩, newline_notMem_envText _⟩ <;> exact newline_notMem_decimal _
    have hc : Text.isWhitespace '\x7b' = false := by decide
    have hd : Text.isWhitespace '\x7d' = false := by decide
    show IsLine (['\x7b'] ++ (headerBody header ++ ['\x7d']))
    generalize headerBody header = body at hbody ⊢
    exact isLine_between hbody hc hd
  event_line t kind payload := by
    have hbody : '\n' ∉ eventBody t kind payload := by
      have hfraction : '\n' ∉ ".0,".toList := by decide
      have hcomma : '\n' ∉ [','] := by decide
      unfold eventBody
      simp only [List.mem_append, not_or]
      exact ⟨newline_notMem_decimal _, hfraction, Json.newline_notMem_quote, hcomma,
        Json.newline_notMem_quote⟩
    have hc : Text.isWhitespace '[' = false := by decide
    have hd : Text.isWhitespace ']' = false := by decide
    show IsLine (['['] ++ (eventBody t kind payload ++ [']']))
    generalize eventBody t kind payload = body at hbody ⊢
    exact isLine_between hbody hc hd
  header_read header := by
    refine ⟨[("version".toList, .number header.version)], header.version, ?_, rfl, rfl⟩
    show (readEvent (['\x7b'] ++ (headerBody header ++ ['\x7d']))).or
      (readHeader (['\x7b'] ++ (headerBody header ++ ['\x7d']))) = _
    rw [readEvent_header, readHeader_header, Option.none_or]
  event_read t kind payload := by
    refine ⟨t, ?_⟩
    show (readEvent (['['] ++ (eventBody t kind payload ++ [']']))).or _ = _
    rw [readEvent_event, Option.some_or]

/-! ## Two recordings -/

/-- The header of the samples. -/
def sampleHeader : CastHeader := ⟨2, 80, 24, 0, []⟩

/-- A chunk with a wide character, and after an input and a new size one with a newline probe. -/
def probeCalls : List (CastCall ℕ) :=
  [.output 0 (Utf8.encode "世".toList), .input 1 [3], .resize 1 100 30,
    .output 2 (Utf8.encode ("a".toList ++ probePrefix ++ "   ".toList ++ probeSuffix ++ "b".toList))]

/-- The bytes of both chunks are on record, and playing it back leaves out the probe. -/
theorem record_faithful_wholeCharacter :
    ∃ texts, outputPayloads secondsJson (record secondsJson sampleHeader true probeCalls) = some texts ∧
      texts.map Utf8.encode = outputChunks probeCalls ∧
      Utf8.encode texts.flatten = (outputChunks probeCalls).flatten ∧
      playCast secondsJson (record secondsJson sampleHeader true probeCalls) =
        (Utf8.encode "世ab".toList ++ finishedMarker, true) := by
  have hvalid : ∀ bytes ∈ outputChunks probeCalls, Utf8.Valid bytes := by
    intro bytes hbytes
    rcases List.mem_pair.mp hbytes with rfl | rfl
    · exact ⟨_, rfl⟩
    · exact ⟨_, rfl⟩
  obtain ⟨texts, htexts, hchunks, hflatten, hplay⟩ :=
    record_faithful secondsJson_lawful sampleHeader true probeCalls hvalid
  refine ⟨texts, htexts, hchunks, hflatten, hplay.trans ?_⟩
  have hdecoded := Option.some.inj
    (htexts.symm.trans (outputPayloads_record secondsJson_lawful sampleHeader true probeCalls))
  have hstripped : ((outputChunks probeCalls).map Utf8.decodeLossy).flatMap
      (fun text => Utf8.encode (stripFishNewlineProbes text)) = Utf8.encode "世ab".toList := by
    decide +kernel
  rw [hdecoded, hstripped]

/-- The same character cut after its first byte is recorded as three replacement characters; and the
marker follows what a recording plays, here of one letter. -/
theorem not_faithful_cutCharacter :
    (∃ texts, outputPayloads secondsJson (record secondsJson sampleHeader false
        [.output 0 [0xE4], .output 0 [0xB8, 0x96]]) = some texts ∧
      Utf8.Valid (outputChunks [CastCall.output 0 [0xE4], .output 0 [0xB8, 0x96]]).flatten ∧
      texts.flatten = ['\uFFFD', '\uFFFD', '\uFFFD'] ∧
      Utf8.encode texts.flatten ≠
        (outputChunks [CastCall.output 0 [0xE4], .output 0 [0xB8, 0x96]]).flatten) ∧
      (playCast secondsJson (record secondsJson sampleHeader false
        [.output 0 [0x61]])).1 ≠ [0x61] := by
  refine ⟨⟨_, outputPayloads_record secondsJson_lawful _ _ _, ⟨['世'], ?_⟩, ?_, ?_⟩, ?_⟩
  · decide +kernel
  · decide +kernel
  · decide +kernel
  · rw [playCast_record secondsJson_lawful]
    decide +kernel

end Termua.Cast
