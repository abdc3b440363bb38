import Mathlib

/-!
# Snippet templates

`parse_snippet_suffix` of `gpui_term/src/snippet.rs`: a template is a text with placeholders, `$`
followed by a number in braces, with or without a default after a colon. What is not a placeholder is
text, also its `$`. The tabstops are the places of the placeholders in the rendered text, in
characters, the final cursor position with the number zero last.
-/

namespace Termua.Snippet

/-- `TabStop`, with `range_chars` from `start` to `stop`. -/
structure TabStop where
  index : ℕ
  start : ℕ
  stop : ℕ
  deriving DecidableEq

/-- `SnippetSuffix`. -/
structure SnippetSuffix where
  rendered : List Char
  tabstops : List TabStop
  deriving DecidableEq

/-- The number that digits stand for, when it fits into 32 bits. -/
def parseU32 (digits : List Char) : Option ℕ :=
  let n := digits.foldl (fun n c => n * 10 + (c.toNat - '0'.toNat)) 0
  if n < 2 ^ 32 then some n else none

/-- A placeholder after its `$` and its opening brace: its number, its default and its length. -/
def parsePlaceholder (input : List Char) : Option (ℕ × List Char × ℕ) :=
  let digits := input.takeWhile Char.isDigit
  if digits = [] then none
  else
    match parseU32 digits with
    | none => none
    | some index =>
      match input.drop digits.length with
      | '\x7d' :: _ => some (index, [], digits.length + 1)
      | ':' :: rest =>
        let default := rest.takeWhile (· ≠ '\x7d')
        if default.length = rest.length then none
        else some (index, default, digits.length + default.length + 2)
      | _ => none

/-- The placeholder at the front of a text. -/
def placeholderAt : List Char → Option (ℕ × List Char × ℕ)
  | '$' :: '\x7b' :: input =>
    (parsePlaceholder input).map fun p => (p.1, p.2.1, p.2.2 + 2)
  | _ => none

/-- `ParsedStop`. -/
structure ParsedStop where
  stop : TabStop
  appearance : ℕ

/-- What was parsed so far. -/
structure Parsed where
  rendered : List Char := []
  stops : List ParsedStop := []

/-- A character of the text. -/
def Parsed.push (p : Parsed) (c : Char) : Parsed := { p with rendered := p.rendered ++ [c] }

/-- A placeholder; the final cursor position has no content. -/
def Parsed.place (p : Parsed) (index : ℕ) (default : List Char) : Parsed :=
  let text := if index = 0 then [] else default
  { rendered := p.rendered ++ text
    stops := p.stops ++
      [⟨⟨index, p.rendered.length, p.rendered.length + text.length⟩, p.stops.length⟩] }

/-- The loop of `parse_snippet_suffix`, with the characters to skip of the last placeholder. -/
def scan : ℕ → Parsed → List Char → Parsed
  | _, p, [] => p
  | skip + 1, p, _ :: input => scan skip p input
  | 0, p, c :: input =>
    match placeholderAt (c :: input) with
    | some (index, default, len) => scan (len - 1) (p.place index default) input
    | none => scan 0 (p.push c) input

/-- The order of the tabstops. -/
def compareStops (a b : ParsedStop) : Ordering :=
  ((compare (decide (a.stop.index = 0)) (decide (b.stop.index = 0))).then
    (compare a.stop.index b.stop.index)).then (compare a.appearance b.appearance)

/-- `parse_snippet_suffix`. -/
def parseSnippetSuffix (input : List Char) : Option SnippetSuffix :=
  let p := scan 0 {} input
  if p.stops.isEmpty then none
  else
    some
      { rendered := p.rendered
        tabstops :=
          (p.stops.insertionSort fun a b => compareStops a b ≠ .gt).map ParsedStop.stop }

/-! ## The ranges of the tabstops -/

/-- One of two ranges is before the other. -/
def Apart (a b : TabStop) : Prop := a.stop ≤ b.start ∨ b.stop ≤ a.start

theorem Apart.symm {a b : TabStop} (h : Apart a b) : Apart b a := Or.symm h

/-- The range of a tabstop is in a text. -/
def Within (a : TabStop) (text : List Char) : Prop := a.start ≤ a.stop ∧ a.stop ≤ text.length

/-- The stops of a text that is being parsed: they are in the text and stand one after the other. -/
structure Parsed.Ordered (p : Parsed) : Prop where
  within : ∀ s ∈ p.stops, Within s.stop p.rendered
  ordered : p.stops.Pairwise fun a b => a.stop.stop ≤ b.stop.start

variable {p : Parsed}

theorem Parsed.Ordered.push (h : p.Ordered) (c : Char) : (p.push c).Ordered where
  within := by
    intro s hs
    obtain ⟨hle, hlen⟩ := h.within s hs
    refine ⟨hle, hlen.trans ?_⟩
    show p.rendered.length ≤ (p.rendered ++ [c]).length
    rw [List.length_append]
    exact Nat.le_add_right _ _
  ordered := h.ordered

theorem Parsed.Ordered.place (h : p.Ordered) (index : ℕ) (default : List Char) :
    (p.place index default).Ordered where
  within := by
    intro s hs
    have hlen : (p.place index default).rendered.length =
        p.rendered.length + (if index = 0 then [] else default).length := List.length_append
    rcases List.mem_append.mp hs with hs | hs
    · obtain ⟨hle, hin⟩ := h.within s hs
      exact ⟨hle, hin.trans (by omega)⟩
    · obtain rfl := List.mem_singleton.mp hs
      exact ⟨Nat.le_add_right _ _, hlen.ge⟩
  ordered := by
    refine List.pairwise_append.mpr ⟨h.ordered, List.pairwise_singleton _ _, ?_⟩
    intro a ha b hb
    obtain rfl := List.mem_singleton.mp hb
    exact (h.within a ha).2

/-- What a character of the text and a placeholder keep holds of what a scan parses. -/
theorem scan_keeps {I : Parsed → Prop} (hpush : ∀ p c, I p → I (p.push c))
    (hplace : ∀ p index default, I p → I (p.place index default)) (h : I p) (skip : ℕ)
    (input : List Char) : I (scan skip p input) := by
  induction input generalizing skip p with
  | nil =>
    rcases skip with _ | skip
    · exact h
    · exact h
  | cons c input ih =>
    rcases skip with _ | skip
    · unfold scan
      split
      · exact ih (hplace _ _ _ h) _
      · exact ih (hpush _ c h) 0
    · exact ih h skip

theorem ordered_scan (input : List Char) : (scan 0 {} input).Ordered :=
  scan_keeps (fun _ c h => h.push c) (fun _ index default h => h.place index default)
    (p := {}) ⟨nofun, .nil⟩ 0 input

/-- The tabstops of a template are in the rendered text, and no two of them overlap. -/
theorem parseSnippetSuffix_ranges {input : List Char} {s : SnippetSuffix}
    (h : parseSnippetSuffix input = some s) :
    (∀ t ∈ s.tabstops, Within t s.rendered) ∧ s.tabstops.Pairwise Apart := by
  have hordered := ordered_scan input
  unfold parseSnippetSuffix at h
  simp only at h
  split at h
  · cases h
  · obtain rfl := Option.some.inj h
    have hperm := List.perm_insertionSort (fun a b => compareStops a b ≠ .gt) (scan 0 {} input).stops
    constructor
    · intro t ht
      obtain ⟨stop, hstop, rfl⟩ := List.mem_map.mp ht
      exact hordered.within stop (hperm.mem_iff.mp hstop)
    · rw [List.pairwise_map]
      refine hperm.symm.pairwise (hordered.ordered.imp fun hle => .inl hle) fun hab => hab.symm

/-- A template with a snippet has a tabstop. -/
theorem parseSnippetSuffix_ne_nil {input : List Char} {s : SnippetSuffix}
    (h : parseSnippetSuffix input = some s) : s.tabstops ≠ [] := by
  unfold parseSnippetSuffix at h
  simp only at h
  split at h
  · cases h
  · next hstops =>
    obtain rfl := Option.some.inj h
    intro hnil
    have hlen := congrArg List.length hnil
    rw [List.length_map, List.length_insertionSort] at hlen
    exact hstops (List.isEmpty_iff.mpr (List.length_eq_zero_iff.mp hlen))

/-! ## The order of the template -/

/-- The placeholders of a template in the order of its tabstops. -/
def templateStops (input : List Char) : List ParsedStop :=
  (scan 0 {} input).stops.insertionSort fun a b => compareStops a b ≠ .gt

/-- The tabstops are those of the placeholders of the template, in the text of the scan. -/
theorem parseSnippetSuffix_eq {input : List Char} {s : SnippetSuffix}
    (h : parseSnippetSuffix input = some s) :
    s.tabstops = (templateStops input).map ParsedStop.stop ∧ s.rendered = (scan 0 {} input).rendered := by
  unfold parseSnippetSuffix at h
  simp only at h
  split at h
  · cases h
  · obtain rfl := Option.some.inj h
    exact ⟨rfl, rfl⟩

/-- The stops are numbered as they appear. -/
def Parsed.Numbered (p : Parsed) : Prop :=
  ∀ (i : ℕ) (s : ParsedStop), p.stops[i]? = some s → s.appearance = i

theorem Parsed.Numbered.place (h : p.Numbered) (index : ℕ) (default : List Char) :
    (p.place index default).Numbered := by
  intro i s hs
  rcases Nat.lt_or_ge i p.stops.length with hlt | hge
  · exact h i s (by rwa [Parsed.place, List.getElem?_append_left hlt] at hs)
  · rw [Parsed.place, List.getElem?_append_right hge] at hs
    obtain ⟨hlt, rfl⟩ := List.getElem?_eq_some_iff.mp hs
    rw [List.length_singleton] at hlt
    have hi : i = p.stops.length := by omega
    subst hi
    simp

theorem numbered_scan (input : List Char) : (scan 0 {} input).Numbered :=
  scan_keeps (I := Parsed.Numbered) (fun _ _ h => h) (fun _ index default h => h.place index default)
    (p := {}) nofun 0 input

/-- What appears earlier in a template ends before what appears later starts. -/
theorem templateStops_apart {input : List Char} {a b : ParsedStop} (ha : a ∈ templateStops input)
    (hb : b ∈ templateStops input) (hlt : a.appearance < b.appearance) :
    a.stop.stop ≤ b.stop.start := by
  have hperm := List.perm_insertionSort (fun a b => compareStops a b ≠ .gt) (scan 0 {} input).stops
  obtain ⟨i, hi⟩ := List.getElem?_of_mem (hperm.mem_iff.mp ha)
  obtain ⟨j, hj⟩ := List.getElem?_of_mem (hperm.mem_iff.mp hb)
  obtain rfl := numbered_scan input i a hi
  obtain rfl := numbered_scan input j b hj
  obtain ⟨hilt, hia⟩ := List.getElem?_eq_some_iff.mp hi
  obtain ⟨hjlt, hjb⟩ := List.getElem?_eq_some_iff.mp hj
  have hpair := List.pairwise_iff_getElem.mp (ordered_scan input).ordered _ _ hilt hjlt hlt
  rwa [hia, hjb] at hpair

/-- No two placeholders of a template appear at one place of it. -/
theorem templateStops_nodup (input : List Char) :
    ((templateStops input).map ParsedStop.appearance).Nodup := by
  have hperm := List.perm_insertionSort (fun a b => compareStops a b ≠ .gt) (scan 0 {} input).stops
  refine (hperm.map _).nodup_iff.mpr (List.nodup_iff_injective_getElem.mpr ?_)
  intro i j hij
  have hnumber : ∀ k : Fin ((scan 0 {} input).stops.map ParsedStop.appearance).length,
      ((scan 0 {} input).stops.map ParsedStop.appearance)[k] = k := by
    intro k
    have hk : (k : ℕ) < (scan 0 {} input).stops.length := by simpa using k.isLt
    rw [Fin.getElem_fin, List.getElem_map]
    exact numbered_scan input k _ (List.getElem?_eq_getElem hk)
  exact Fin.ext ((hnumber i).symm.trans (hij.trans (hnumber j)))

example : parseSnippetSuffix "-m $\x7b1:msg\x7d$\x7b0\x7d".toList =
    some ⟨"-m msg".toList, [⟨1, 3, 6⟩, ⟨0, 6, 6⟩]⟩ := by decide

end Termua.Snippet
