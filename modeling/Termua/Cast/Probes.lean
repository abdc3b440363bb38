import Mathlib
import Termua.Lib.Excise
import Termua.Cast.Player

/-!
# Newline probes in a stream of events

`strip_fish_newline_probes` drops every probe of the text it is given, and `play_cast` gives it one
event at a time. What is played of a stream does not depend on its events as long as none of them
ends inside a probe.
-/

namespace Termua.Cast

open Excise (Begins Excised Separate Straddles)

/-- What the filter drops: the prefix, blanks and the suffix. -/
def IsProbe (text : List Char) : Prop :=
  ∃ n, text = probePrefix ++ (List.replicate (n + 1) ' ' ++ probeSuffix)

/-! ## Probes stand apart -/

section Probe

variable {text before after rest u v r s : List Char} {pat : List Char} {n : ℕ}

theorem probePrefix_eq : probePrefix = ['\x1b', '[', '2', 'm', '⏎', '\x1b', '[', 'm'] := by
  decide +kernel

theorem probeSuffix_eq : probeSuffix = ['\r', '⏎', ' ', '\r', '\x1b', '[', 'K'] := by
  decide +kernel

theorem head_ne {c d : Char} (hne : c ≠ d) : c :: r ≠ d :: s := fun h => hne (List.cons.inj h).1

/-- No prefix begins inside another one. -/
theorem probePrefix_apart (h : probePrefix = u ++ v) (hu : u ≠ []) (hv : v ≠ []) :
    v ++ r ≠ probePrefix ++ s := by
  have hmem : v ∈ probePrefix.tail.tails := by
    obtain ⟨c, u, rfl⟩ := List.exists_cons_of_ne_nil hu
    rw [h]
    exact (List.mem_tails _ _).mpr (List.suffix_append u v)
  rw [probePrefix_eq] at hmem ⊢
  simp only [List.tail_cons, List.tails, List.mem_cons, List.not_mem_nil, or_false] at hmem
  rcases hmem with rfl | rfl | rfl | rfl | rfl | rfl | rfl | rfl
  all_goals first | exact absurd rfl hv | simp

/-- No prefix begins inside a suffix. -/
theorem probeSuffix_apart (h : probeSuffix = u ++ v) (hv : v ≠ []) : v ++ r ≠ probePrefix ++ s := by
  have hmem : v ∈ probeSuffix.tails := by
    rw [h]
    exact (List.mem_tails _ _).mpr (List.suffix_append u v)
  rw [probeSuffix_eq] at hmem
  rw [probePrefix_eq]
  simp only [List.tails, List.mem_cons, List.not_mem_nil, or_false] at hmem
  rcases hmem with rfl | rfl | rfl | rfl | rfl | rfl | rfl | rfl
  all_goals first | exact absurd rfl hv | simp

/-- No prefix begins with a blank of a probe or behind the blanks. -/
theorem padding_apart : List.replicate n ' ' ++ (probeSuffix ++ r) ≠ probePrefix ++ s := by
  rw [probePrefix_eq, probeSuffix_eq]
  cases n with
  | zero => exact head_ne (by decide)
  | succ n => exact head_ne (by decide)

/-- The blanks before a suffix are found. -/
theorem findSplit_probeSuffix :
    findSplit probeSuffix (List.replicate n ' ' ++ (probeSuffix ++ rest)) =
      some (List.replicate n ' ', rest) := by
  induction n with
  | zero =>
    rw [List.replicate_zero, List.nil_append, probeSuffix_eq]
    simp [findSplit, List.isPrefixOf]
  | succ n ih =>
    rw [List.replicate_succ, List.cons_append, findSplit, ih, if_neg]
    · rfl
    · rw [probeSuffix_eq]
      simp [List.isPrefixOf]

theorem separate_isProbe : Separate IsProbe where
  ne_nil := by
    rintro w ⟨n, rfl⟩
    rw [probePrefix_eq]
    exact List.cons_ne_nil _ _
  unique := by
    rintro w w' r s ⟨n, rfl⟩ ⟨m, rfl⟩ h
    rw [List.append_assoc, List.append_assoc, List.append_assoc, List.append_assoc,
      List.append_cancel_left_eq] at h
    have hfound := congrArg (findSplit probeSuffix) h
    rw [findSplit_probeSuffix, findSplit_probeSuffix, Option.some.injEq, Prod.mk.injEq] at hfound
    rw [hfound.1]
  apart := by
    rintro u v w r s ⟨n, hn⟩ hu hv ⟨m, rfl⟩
    rw [List.append_assoc]
    rcases List.append_eq_append_iff.mp hn with ⟨t, ht, rfl⟩ | ⟨t, rfl, ht⟩
    · rcases eq_or_ne t [] with rfl | hne
      · rw [List.nil_append, List.append_assoc]
        exact padding_apart
      · rw [List.append_assoc]
        exact probePrefix_apart ht hu hne
    · rcases List.append_eq_append_iff.mp ht with ⟨t', rfl, ht'⟩ | ⟨t', ht', rfl⟩
      · rw [List.append_assoc]
        exact probeSuffix_apart ht' hv
      · have hblanks : t' = List.replicate t'.length ' ' :=
          List.eq_replicate_of_mem fun c hc =>
            List.eq_of_mem_replicate (ht' ▸ List.mem_append_right t hc)
        rw [hblanks, List.append_assoc, List.append_assoc]
        exact padding_apart

/-! ## The scan -/

theorem findSplit_some (h : findSplit pat text = some (before, after)) :
    text = before ++ (pat ++ after) ∧
      ∀ u v, before = u ++ v → v ≠ [] → ¬ pat <+: v ++ (pat ++ after) := by
  induction text generalizing before with
  | nil =>
    rw [findSplit] at h
    split at h
    · next hpat =>
      cases h
      exact ⟨by rw [hpat]; rfl, fun u v huv hv => absurd (List.append_eq_nil_iff.mp huv.symm).2 hv⟩
    · cases h
  | cons c text ih =>
    rw [findSplit] at h
    split at h
    · next hpat =>
      cases h
      obtain ⟨rest, hrest⟩ := List.isPrefixOf_iff_prefix.mp hpat
      refine ⟨?_, fun u v huv hv => absurd (List.append_eq_nil_iff.mp huv.symm).2 hv⟩
      rw [← hrest, List.drop_left]
      rfl
    · next hpat =>
      obtain ⟨⟨before', after'⟩, hfound, heq⟩ := Option.map_eq_some_iff.mp h
      cases heq
      obtain ⟨htext, hfirst⟩ := ih hfound
      refine ⟨congrArg (c :: ·) htext, fun u v huv hv hprefix => ?_⟩
      cases u with
      | nil =>
        rw [List.nil_append] at huv
        rw [← huv, List.cons_append, ← htext] at hprefix
        exact hpat (List.isPrefixOf_iff_prefix.mpr hprefix)
      | cons d u => exact hfirst u v (List.cons.inj huv).2 hv hprefix

theorem findSplit_none (h : findSplit pat text = none) : ¬ pat <:+: text := by
  induction text with
  | nil =>
    rw [findSplit] at h
    split at h
    · cases h
    · next hpat => exact fun hwithin => hpat (List.infix_nil.mp hwithin)
  | cons c text ih =>
    rw [findSplit] at h
    split at h
    · cases h
    · next hpat =>
      rw [Option.map_eq_none_iff] at h
      rw [List.infix_cons_iff, not_or]
      exact ⟨fun hprefix => hpat (List.isPrefixOf_iff_prefix.mpr hprefix), ih h⟩

theorem probePrefix_of_begins (h : Begins IsProbe text) : probePrefix <+: text := by
  obtain ⟨w, ⟨n, rfl⟩, hprefix⟩ := h
  exact (List.prefix_append _ _).trans hprefix

/-- Behind the first prefix a suffix follows any probe of the text. -/
theorem probeSuffix_infix_of_begins
    (hfirst : ∀ u v, before = u ++ v → v ≠ [] → ¬ probePrefix <+: v ++ (probePrefix ++ rest))
    (htext : before ++ (probePrefix ++ rest) = u ++ v) (hbegins : Begins IsProbe v) :
    probeSuffix <:+: rest := by
  obtain ⟨w, ⟨n, rfl⟩, r, rfl⟩ := hbegins
  have hbehind : probeSuffix <:+: List.replicate (n + 1) ' ' ++ probeSuffix ++ r :=
    List.infix_append _ _ _
  refine hbehind.trans ?_
  have hlength : (List.replicate (n + 1) ' ' ++ probeSuffix ++ r).length ≤ rest.length := by
    rcases List.append_eq_append_iff.mp htext with ⟨t, rfl, ht⟩ | ⟨t, ht, ht'⟩
    · have hlength := congrArg List.length ht
      simp only [List.length_append] at hlength ⊢
      omega
    · rcases eq_or_ne t [] with rfl | hne
      · have hlength := congrArg List.length ht'
        simp only [List.length_append, List.length_nil] at hlength ⊢
        omega
      · refine absurd ?_ (hfirst u t ht hne)
        rw [← ht', List.append_assoc]
        exact List.prefix_append _ _
  have hsuffix : List.replicate (n + 1) ' ' ++ probeSuffix ++ r <:+
      before ++ (probePrefix ++ rest) := by
    rw [htext]
    exact ⟨u ++ probePrefix, by simp only [List.append_assoc]⟩
  exact (List.suffix_of_suffix_length_le hsuffix ⟨before ++ probePrefix, List.append_assoc _ _ _⟩
    hlength).isInfix

/-- What stands between a prefix and the next suffix makes a probe of them when it is a run of blanks. -/
theorem isProbe_of_blanks {padding : List Char} (hne : padding ≠ [])
    (hblanks : padding.all (· = ' ') = true) : IsProbe (probePrefix ++ (padding ++ probeSuffix)) := by
  have hpadding : padding = List.replicate (padding.length - 1 + 1) ' ' := by
    rw [Nat.sub_add_cancel (List.length_pos_of_ne_nil hne)]
    exact List.eq_replicate_of_mem fun c hc => of_decide_eq_true (List.all_eq_true.mp hblanks c hc)
  exact ⟨padding.length - 1, by rw [← hpadding]⟩

/-- Where it is no run of blanks there is no probe at the prefix. -/
theorem not_begins_of_padding {padding after : List Char}
    (hsuffix : findSplit probeSuffix rest = some (padding, after))
    (hpadding : ¬ (padding ≠ [] ∧ padding.all (· = ' ') = true)) :
    ¬ Begins IsProbe (probePrefix ++ rest) := by
  rintro ⟨w, ⟨n, rfl⟩, r, hr⟩
  rw [List.append_assoc, List.append_cancel_left_eq, List.append_assoc] at hr
  rw [← hr, findSplit_probeSuffix, Option.some.injEq, Prod.mk.injEq] at hsuffix
  obtain ⟨rfl, -⟩ := hsuffix
  exact hpadding ⟨List.cons_ne_nil _ _,
    List.all_eq_true.mpr fun c hc => decide_eq_true (List.eq_of_mem_replicate hc)⟩

/-- Neither before the first prefix nor in it is there a probe when none begins at the prefix. -/
theorem not_begins_of_head
    (hfirst : ∀ u v, before = u ++ v → v ≠ [] → ¬ probePrefix <+: v ++ (probePrefix ++ rest))
    (hhead : ¬ Begins IsProbe (probePrefix ++ rest)) (huv : before ++ probePrefix = u ++ v)
    (hv : v ≠ []) : ¬ Begins IsProbe (v ++ rest) := by
  intro hbegins
  rcases List.append_eq_append_iff.mp huv with ⟨t, rfl, ht⟩ | ⟨t, ht, rfl⟩
  · rcases eq_or_ne t [] with rfl | hne
    · rw [List.nil_append] at ht
      exact hhead (ht ▸ hbegins)
    · obtain ⟨r, hr⟩ := probePrefix_of_begins hbegins
      exact probePrefix_apart ht hne hv hr.symm
  · rw [List.append_assoc] at hbegins
    rcases eq_or_ne t [] with rfl | hne
    · exact hhead hbegins
    · exact hfirst u t ht hne (probePrefix_of_begins hbegins)

/-- The loop drops the probes. -/
theorem excised_stripFuel (h : text.length ≤ n) : Excised IsProbe text (stripFuel n text) := by
  induction n generalizing text with
  | zero =>
    rw [List.length_eq_zero_iff.mp (Nat.le_zero.mp h)]
    exact .nil
  | succ n ih =>
    unfold stripFuel
    cases hprefix : findSplit probePrefix text with
    -- no start of a probe, so nothing is a probe
    | none =>
      refine .of_free fun u v huv _ hbegins => findSplit_none hprefix ?_
      rw [huv]
      exact (probePrefix_of_begins hbegins).isInfix.trans (List.suffix_append u v).isInfix
    | some split =>
      obtain ⟨before, rest⟩ := split
      obtain ⟨rfl, hfirst⟩ := findSplit_some hprefix
      have hfree : ∀ u v, before = u ++ v → v ≠ [] → ¬ Begins IsProbe (v ++ (probePrefix ++ rest)) :=
        fun u v huv hv hbegins => hfirst u v huv hv (probePrefix_of_begins hbegins)
      have hlength : rest.length < (before ++ (probePrefix ++ rest)).length := by
        rw [List.length_append, List.length_append, probePrefix_eq]
        simp only [List.length_cons]
        omega
      dsimp only
      cases hsuffix : findSplit probeSuffix rest with
      -- a start without an end: the rest holds no end of a probe either
      | none =>
        exact .of_free fun u v huv _ hbegins =>
          findSplit_none hsuffix (probeSuffix_infix_of_begins hfirst huv hbegins)
      | some split =>
        obtain ⟨padding, after⟩ := split
        obtain ⟨hrest, -⟩ := findSplit_some hsuffix
        dsimp only
        split
        -- a probe is dropped with its blanks
        · next hpadding =>
          refine .append_left hfree ?_
          have hafter : after.length ≤ n := by
            have hrestLength := congrArg List.length hrest
            rw [List.length_append, List.length_append] at hrestLength
            omega
          rw [hrest, ← List.append_assoc padding, ← List.append_assoc probePrefix]
          exact .drop (isProbe_of_blanks hpadding.1 hpadding.2) (ih hafter)
        -- no blanks between, so the start begins no probe and the loop goes on behind it
        · next hpadding =>
          have hhead := not_begins_of_padding hsuffix hpadding
          rw [← List.append_assoc]
          exact .append_left (fun u v huv hv => not_begins_of_head hfirst hhead huv hv)
            (ih (by omega))

/-- `strip_fish_newline_probes` drops the probes. -/
theorem excised_stripFishNewlineProbes (text : List Char) :
    Excised IsProbe text (stripFishNewlineProbes text) := excised_stripFuel le_rfl

end Probe

/-! ## The player -/

section Player

variable {τ : Type} {json : SerdeJson τ} {file : List Char} {lines texts : List (List Char)}

/-- The header of a file is accepted. -/
def Accepted (json : SerdeJson τ) (file : List Char) : Prop :=
  file ≠ [] ∧ ∀ header ∈ (file.splitOn '\n').head?, headerOk json header = true

/-- What the filter leaves of the events, one by one. -/
def playedTexts (texts : List (List Char)) : List UInt8 :=
  texts.flatMap fun text => Utf8.encode (stripFishNewlineProbes text)

theorem playedTexts_cons {text : List Char} : playedTexts (text :: texts) =
    Utf8.encode (stripFishNewlineProbes text) ++ playedTexts texts := List.flatMap_cons

theorem playedTexts_eq : playedTexts texts = Utf8.encode (texts.flatMap stripFishNewlineProbes) := by
  induction texts with
  | nil => rfl
  | cons text texts ih =>
    rw [List.flatMap_cons, Utf8.encode_append, ← ih, playedTexts_cons]

/-- The player writes what the filter leaves of the events of the lines. -/
theorem playLines_eq {events : List (CastEvent τ)}
    (h : (lines.filter fun line => Text.trimEnd line ≠ []).mapM
      (fun line => parseEventLine json (Text.trimEnd line)) = some events) :
    playLines json lines = (playedTexts (events.filterMap CastEvent.outputText) ++ finishedMarker, true) := by
  induction lines generalizing events with
  | nil =>
    cases h
    rfl
  | cons line lines ih =>
    unfold playLines
    by_cases hblank : Text.trimEnd line = []
    · rw [List.filter_cons_of_neg (by simpa using hblank)] at h
      rw [if_pos hblank]
      exact ih h
    · rw [List.filter_cons_of_pos (by simpa using hblank), List.mapM_cons] at h
      obtain ⟨ev, hev, h⟩ := Option.bind_eq_some_iff.mp h
      obtain ⟨events', hevents', h⟩ := Option.bind_eq_some_iff.mp h
      cases h
      rw [if_neg hblank, hev]
      simp only [ih hevents', played_eq]
      cases htext : ev.outputText with
      | none => rw [List.filterMap_cons_none htext]; rfl
      | some text =>
        rw [List.filterMap_cons_some htext, playedTexts_cons, List.append_assoc]
        rfl

theorem playCast_eq (haccepted : Accepted json file) (h : outputPayloads json file = some texts) :
    playCast json file = (playedTexts texts ++ finishedMarker, true) := by
  obtain ⟨events, hevents, rfl⟩ := Option.map_eq_some_iff.mp h
  unfold playCast
  cases hsplit : file.splitOn '\n' with
  | nil => exact absurd hsplit (List.splitOn_ne_nil _ _)
  | cons header lines =>
    rw [hsplit, List.drop_one, List.tail_cons] at hevents
    have hheader := haccepted.2 header (by rw [hsplit]; rfl)
    simp only [if_neg haccepted.1, hheader, if_true]
    exact playLines_eq hevents

/-- A stream in events is played as in a single event exactly when none of the events ends inside a
newline probe. -/
theorem playCast_eq_single_iff (json : SerdeJson τ) (file single : List Char)
    (texts : List (List Char)) (hfile : Accepted json file) (hsingle : Accepted json single)
    (htexts : outputPayloads json file = some texts)
    (htext : outputPayloads json single = some [texts.flatten]) :
    playCast json file = playCast json single ↔
      ∀ i, ¬ Straddles IsProbe (texts.take i).flatten (texts.drop i).flatten := by
  have hencode {a b : List Char} : Utf8.encode a = Utf8.encode b ↔ a = b :=
    ⟨fun h => by
      have hdecode := congrArg Utf8.decodeLossy h
      rwa [Utf8.decodeLossy_encode, Utf8.decodeLossy_encode] at hdecode, congrArg Utf8.encode⟩
  rw [playCast_eq hfile htexts, playCast_eq hsingle htext, Prod.mk.injEq, and_iff_left rfl,
    List.append_cancel_right_eq, playedTexts_eq, playedTexts_eq, hencode, List.flatMap_singleton]
  exact Excise.flatMap_eq_iff separate_isProbe excised_stripFishNewlineProbes texts

theorem accepted_record (hjson : json.Lawful) (header : CastHeader) (includeInput : Bool)
    (calls : List (CastCall τ)) : Accepted json (record json header includeInput calls) := by
  constructor
  · obtain ⟨c, rest, hcons, -⟩ := (hjson.header_line { header with version := 2 }).head
    rw [record_eq, hcons]
    exact List.cons_ne_nil _ _
  · rw [splitOn_record hjson]
    rintro line ⟨⟩
    exact headerOk_header hjson header

/-! ## Two streams -/

/-- The narrowest probe. -/
def narrowProbe : List Char := probePrefix ++ (' ' :: probeSuffix)

/-- A recording of texts. -/
def recordTexts (texts : List (List Char)) : List Char :=
  record secondsJson sampleHeader false (texts.map fun text => .output 0 (Utf8.encode text))

theorem accepted_recordTexts (texts : List (List Char)) :
    Accepted secondsJson (recordTexts texts) := accepted_record secondsJson_lawful _ _ _

theorem outputPayloads_recordTexts (texts : List (List Char)) :
    outputPayloads secondsJson (recordTexts texts) = some texts := by
  have hchunks : outputChunks (texts.map fun text => CastCall.output 0 (Utf8.encode text)) =
      texts.map Utf8.encode := by
    unfold outputChunks
    rw [List.filterMap_map]
    exact congrFun List.filterMap_eq_map texts
  have hdecode : Utf8.decodeLossy ∘ Utf8.encode = id := funext fun _ => Utf8.decodeLossy_encode
  unfold recordTexts
  rw [outputPayloads_record secondsJson_lawful, hchunks, List.map_map, hdecode, List.map_id]

/-- A probe and the prompt behind it in two events. -/
theorem playCast_wholeProbe :
    playCast secondsJson (recordTexts [narrowProbe, ['$']]) =
      playCast secondsJson (recordTexts [narrowProbe ++ ['$']]) := by
  refine (playCast_eq_single_iff secondsJson _ _ [narrowProbe, ['$']] (accepted_recordTexts _)
    (accepted_recordTexts _) (outputPayloads_recordTexts _) (outputPayloads_recordTexts _)).mpr ?_
  rintro (_ | _ | i) ⟨u, v, ⟨n, huv⟩, hu, hv, hsuffix, hprefix⟩
  · exact hu (List.suffix_nil.mp hsuffix)
  · -- a probe does not end with the prompt
    have hlast := congrArg List.getLast? huv
    have hprompt : v.getLast? = some '$' := by
      rcases List.prefix_cons_iff.mp hprefix with rfl | ⟨w, rfl, hw⟩
      · exact absurd rfl hv
      · rw [List.prefix_nil.mp hw]
        rfl
    rw [List.getLast?_append_of_ne_nil _ hv, hprompt, probeSuffix_eq] at hlast
    simp at hlast
  · have hnil : ([narrowProbe, ['$']].drop (i + 2)).flatten = [] := by simp
    rw [hnil] at hprefix
    exact hv (List.prefix_nil.mp hprefix)

/-- A probe that is cut in its blanks is played. -/
theorem not_playCast_cutProbe :
    playCast secondsJson (recordTexts [probePrefix ++ [' '], probeSuffix]) ≠
      playCast secondsJson (recordTexts [narrowProbe]) := by
  rw [playCast_eq (accepted_recordTexts _) (outputPayloads_recordTexts _),
    playCast_eq (accepted_recordTexts _) (outputPayloads_recordTexts _)]
  decide +kernel

end Player

end Termua.Cast
