import Mathlib
import Termua.Snippet.Scanner

/-!
# Printed templates

A template as text and placeholders in turn (`Template`), and its print. Reading the print back gives
the text with the defaults in the places of the placeholders, and a tabstop on each of them
(`parse_print`).
-/

namespace Termua.Snippet

/-- A text without the opening of a placeholder. -/
structure Literal where
  text : List Char
  plain : ¬['$', '\x7b'] <:+: text

/-- A placeholder, with or without a default. -/
structure Placeholder where
  index : ℕ
  index_lt : index < 2 ^ 32
  default : Option (List Char)
  plain : ∀ d ∈ default, '\x7d' ∉ d

/-- Text and placeholders in turn. -/
structure Template where
  first : Literal
  rest : List (Placeholder × Literal)
  ne_nil : rest ≠ []

/-- A default behind its colon. -/
def printDefault : Option (List Char) → List Char
  | none => []
  | some default => ':' :: default

/-- The print of a placeholder. -/
def Placeholder.print (p : Placeholder) : List Char :=
  '$' :: '\x7b' :: (Nat.toDigits 10 p.index ++ (printDefault p.default ++ ['\x7d']))

/-- What a placeholder is replaced by: its default, and nothing for the final cursor position. -/
def Placeholder.content (p : Placeholder) : List Char :=
  if p.index = 0 then [] else p.default.getD []

/-- The print of placeholders, each with the text behind it. -/
def printRest : List (Placeholder × Literal) → List Char
  | [] => []
  | (p, text) :: rest => p.print ++ (text.text ++ printRest rest)

/-- The text of placeholders, each with the text behind it. -/
def renderRest : List (Placeholder × Literal) → List Char
  | [] => []
  | (p, text) :: rest => p.content ++ (text.text ++ renderRest rest)

/-- The tabstops of placeholders in the order of the text, from a position on. -/
def places : ℕ → List (Placeholder × Literal) → List TabStop
  | _, [] => []
  | start, (p, text) :: rest =>
    ⟨p.index, start, start + p.content.length⟩ ::
      places (start + p.content.length + text.text.length) rest

namespace Template

/-- The print of a template. -/
def print (t : Template) : List Char := t.first.text ++ printRest t.rest

/-- The text of a template with every placeholder replaced by its default. -/
def render (t : Template) : List Char := t.first.text ++ renderRest t.rest

/-- The tabstops of a template in the order of the text. -/
def tabstops (t : Template) : List TabStop := places t.first.text.length t.rest

end Template

/-- The order of tabstops with their positions in the template: by index, the final cursor position
last, and by position where the index is the same. -/
def Before (a b : TabStop × ℕ) : Prop :=
  (a.1.index ≠ 0 ∧ b.1.index = 0) ∨
    ((a.1.index = 0 ↔ b.1.index = 0) ∧
      (a.1.index < b.1.index ∨ a.1.index = b.1.index ∧ a.2 < b.2))

/-! ## Reading a print -/

/-- A text without placeholders is copied, unless what follows opens one with its last character. -/
theorem scan_literal {text : List Char} (hplain : ¬['$', '\x7b'] <:+: text) {rest : List Char}
    (hrest : rest.head? ≠ some '\x7b') (q : Parsed) :
    scan 0 q (text ++ rest) = scan 0 { q with rendered := q.rendered ++ text } rest := by
  induction text generalizing q with
  | nil => rw [List.append_nil, List.nil_append]
  | cons c text ih =>
    have hnone : placeholderAt (c :: (text ++ rest)) = none := by
      unfold placeholderAt
      split
      · next heq =>
        obtain ⟨rfl, htail⟩ := List.cons.inj heq
        rcases text with _ | ⟨d, text⟩
        · rw [List.nil_append] at htail
          exact absurd (congrArg List.head? htail) hrest
        · obtain ⟨rfl, -⟩ := List.cons.inj htail
          exact absurd (List.prefix_append ['$', '\x7b'] text).isInfix hplain
      · rfl
    have hplain' : ¬['$', '\x7b'] <:+: text := fun h => hplain (List.infix_cons h)
    rw [List.cons_append, scan, hnone]
    simp only
    rw [ih hplain' (q.push c)]
    unfold Parsed.push
    rw [List.append_assoc]
    rfl

/-- The digits of a number are read as the number. -/
theorem parseU32_toDigits {n : ℕ} (hn : n < 2 ^ 32) : parseU32 (Nat.toDigits 10 n) = some n := by
  have hfold : (Nat.toDigits 10 n).foldl (fun n c => n * 10 + (c.toNat - '0'.toNat)) 0 = n := by
    have hdigits := Nat.ofDigitChars_ten_toDigits (n := n)
    rw [Nat.ofDigitChars_eq_foldl] at hdigits
    simpa only [Nat.mul_comm] using hdigits
  unfold parseU32
  simp only
  rw [hfold, if_pos hn]

theorem placeholderAt_print (p : Placeholder) (rest : List Char) :
    placeholderAt (p.print ++ rest) = some (p.index, p.default.getD [], p.print.length) := by
  have hdigit : ∀ c ∈ Nat.toDigits 10 p.index, c.isDigit = true := fun c hc =>
    Nat.isDigit_of_mem_toDigits (by decide) (by decide) hc
  -- behind the digits: no default, or one without a closing brace
  have hend : ∀ {default : Option (List Char)}, (∀ d ∈ default, '\x7d' ∉ d) →
      (printDefault default ++ ['\x7d'] ++ rest).takeWhile Char.isDigit = [] ∧
      (printDefault default ++ ['\x7d'] ++ rest).dropWhile Char.isDigit =
        printDefault default ++ ['\x7d'] ++ rest ∧
      placeholderEnd (printDefault default ++ ['\x7d'] ++ rest) =
        some (default.getD [], (printDefault default ++ ['\x7d']).length) := by
    intro default hplain
    rcases default with _ | default
    · exact ⟨rfl, rfl, rfl⟩
    · refine ⟨rfl, rfl, ?_⟩
      have hne : ∀ c ∈ default, decide (c ≠ '\x7d') = true := by
        intro c hc
        exact decide_eq_true (ne_of_mem_of_not_mem hc (hplain default rfl))
      have htake : (default ++ ['\x7d'] ++ rest).takeWhile (· ≠ '\x7d') = default := by
        rw [List.append_assoc, List.takeWhile_append_of_pos hne]
        simp
      unfold placeholderEnd
      simp only [printDefault, List.cons_append]
      rw [htake, if_neg (by simp)]
      simp
  obtain ⟨htake, hdrop, hplaceholder⟩ := hend p.plain
  have hprint : p.print ++ rest = '$' :: '\x7b' ::
      (Nat.toDigits 10 p.index ++ (printDefault p.default ++ ['\x7d'] ++ rest)) := by
    simp [Placeholder.print]
  rw [hprint]
  show (parsePlaceholder _).map _ = _
  rw [parsePlaceholder_eq, List.takeWhile_append_of_pos hdigit, List.dropWhile_append_of_pos hdigit,
    htake, hdrop, List.append_nil, if_neg Nat.toDigits_ne_nil, parseU32_toDigits p.index_lt,
    Option.bind_some, hplaceholder]
  simp only [Option.map_some, Placeholder.print, List.length_cons, List.length_append]

/-- A printed placeholder is read as the placeholder. -/
theorem scan_print (p : Placeholder) (rest : List Char) (q : Parsed) :
    scan 0 q (p.print ++ rest) = scan 0 (q.place p.index (p.default.getD [])) rest := by
  have hat := placeholderAt_print p rest
  obtain ⟨input, hinput⟩ : ∃ input, p.print = '$' :: input := ⟨_, rfl⟩
  rw [hinput, List.cons_append] at hat ⊢
  rw [scan, hat]
  simp only
  rw [scan_skip, List.length_cons, Nat.add_sub_cancel, List.drop_left]

/-- What is read of placeholders and the text behind them. -/
theorem scan_printRest (q : Parsed) (ps : List (Placeholder × Literal)) :
    scan 0 q (printRest ps) =
      ⟨q.rendered ++ renderRest ps,
        q.stops ++ ((places q.rendered.length ps).zipIdx q.stops.length).map
          fun s => ⟨s.1, s.2⟩⟩ := by
  induction ps generalizing q with
  | nil => simp [printRest, renderRest, places, scan]
  | cons piece ps ih =>
    obtain ⟨p, text⟩ := piece
    have hhead : (printRest ps).head? ≠ some '\x7b' := by
      rcases ps with _ | ⟨piece, ps⟩
      · exact nofun
      · exact fun h => absurd h (by simp [printRest, Placeholder.print])
    unfold printRest
    rw [scan_print, scan_literal text.plain hhead, ih]
    simp [Parsed.place, renderRest, places, Placeholder.content, Nat.add_assoc]

/-- What is read of a printed template. -/
theorem scan_template (t : Template) :
    scan 0 {} t.print = ⟨t.render, t.tabstops.zipIdx.map fun s => ⟨s.1, s.2⟩⟩ := by
  have hhead : (printRest t.rest).head? ≠ some '\x7b' := by
    rcases t.rest with _ | ⟨piece, ps⟩
    · exact nofun
    · exact fun h => absurd h (by simp [printRest, Placeholder.print])
  unfold Template.print
  rw [scan_literal t.first.plain hhead, scan_printRest]
  rfl

/-! ## The order of the tabstops -/

/-- By index, the final cursor position last, and by appearance where the index is the same. -/
theorem compareStops_ne_gt_iff (a b : ParsedStop) :
    compareStops a b ≠ .gt ↔
      (a.stop.index ≠ 0 ∧ b.stop.index = 0) ∨
        ((a.stop.index = 0 ↔ b.stop.index = 0) ∧
          (a.stop.index < b.stop.index ∨
            a.stop.index = b.stop.index ∧ a.appearance ≤ b.appearance)) := by
  have hbool : ∀ x y : Bool, (compare x y = .gt ↔ x = true ∧ y = false) ∧
      (compare x y = .eq ↔ x = y) := by decide
  unfold compareStops
  rw [ne_eq, Ordering.then_eq_gt, Ordering.then_eq_gt, Ordering.then_eq_eq, Nat.compare_eq_gt,
    Nat.compare_eq_gt, Nat.compare_eq_eq, (hbool _ _).1, (hbool _ _).2, decide_eq_true_eq,
    decide_eq_false_iff_not, decide_eq_decide]
  omega

/-- The tabstops of a template stand in their order. -/
theorem templateStops_sorted (input : List Char) :
    (templateStops input).Pairwise fun a b =>
      Before (a.stop, a.appearance) (b.stop, b.appearance) := by
  have htotal : Std.Total fun a b : ParsedStop => compareStops a b ≠ .gt := ⟨fun a b => by
    rw [compareStops_ne_gt_iff, compareStops_ne_gt_iff]
    omega⟩
  have htrans : IsTrans ParsedStop fun a b => compareStops a b ≠ .gt := ⟨fun a b c => by
    rw [compareStops_ne_gt_iff, compareStops_ne_gt_iff, compareStops_ne_gt_iff]
    omega⟩
  have hsorted := List.pairwise_insertionSort (fun a b => compareStops a b ≠ .gt)
    (scan 0 {} input).stops
  refine (hsorted.and (List.pairwise_map.mp (templateStops_nodup input))).imp ?_
  rintro a b ⟨hle, hne⟩
  rw [compareStops_ne_gt_iff] at hle
  unfold Before
  simp only
  omega

/-! ## The default under a tabstop -/

/-- The text under a tabstop. -/
def under (text : List Char) (t : TabStop) : List Char := (text.take t.stop).drop t.start

/-- A tabstop of a template covers the text of its placeholder. -/
theorem under_places (before : List Char) (ps : List (Placeholder × Literal)) :
    (places before.length ps).map (fun t => (t.index, under (before ++ renderRest ps) t)) =
      ps.map fun piece => (piece.1.index, piece.1.content) := by
  induction ps generalizing before with
  | nil => rfl
  | cons piece ps ih =>
    obtain ⟨p, text⟩ := piece
    have hrest := ih (before ++ p.content ++ text.text)
    have hfirst : under (before ++ (p.content ++ (text.text ++ renderRest ps)))
        ⟨p.index, before.length, before.length + p.content.length⟩ = p.content := by
      unfold under
      rw [← List.append_assoc, List.take_left' List.length_append, List.drop_left]
    have hlen : (before ++ p.content ++ text.text).length =
        before.length + p.content.length + text.text.length := by
      rw [List.length_append, List.length_append]
    have hall : before ++ p.content ++ text.text ++ renderRest ps =
        before ++ (p.content ++ (text.text ++ renderRest ps)) := by
      simp
    rw [hlen, hall] at hrest
    unfold places renderRest
    rw [List.map_cons, List.map_cons, hfirst, hrest]

/-- A printed template is read as its text with every placeholder replaced by its default, and one
tabstop for each placeholder on its default, in their order; any input is read as nothing, or as a
text and tabstops in it that do not overlap. -/
theorem parse_print :
    (∀ t : Template, ∃ stops : List (TabStop × ℕ), stops.Perm t.tabstops.zipIdx ∧
      stops.Pairwise Before ∧
      parseSnippetSuffixBytes (Utf8.encode t.print) =
        some (some ⟨t.render, stops.map Prod.fst⟩) ∧
      t.tabstops.map (fun s => (s.index, under t.render s)) =
        t.rest.map fun piece => (piece.1.index, piece.1.content)) ∧
    ∀ input : List Char, ∃ result, parseSnippetSuffixBytes (Utf8.encode input) = some result ∧
      ∀ s ∈ result, (∀ t ∈ s.tabstops, Within t s.rendered) ∧ s.tabstops.Pairwise Apart := by
  constructor
  · intro t
    -- what the scanner collects are the tabstops of the template, which are then sorted
    have hscan := scan_template t
    have hstops : (scan 0 {} t.print).stops = t.tabstops.zipIdx.map fun s => ⟨s.1, s.2⟩ := by
      rw [hscan]
    refine ⟨(templateStops t.print).map fun s => (s.stop, s.appearance), ?_, ?_, ?_, ?_⟩
    · have hperm := List.perm_insertionSort (fun a b => compareStops a b ≠ .gt)
        (scan 0 {} t.print).stops
      refine (hperm.map _).trans ?_
      rw [hstops, List.map_map]
      exact .of_eq (List.map_id _)
    · exact List.pairwise_map.mpr (templateStops_sorted t.print)
    · rw [parseSnippetSuffixBytes_encode]
      have hne : ¬(scan 0 {} t.print).stops.isEmpty := by
        obtain ⟨piece, rest, hrest⟩ := List.exists_cons_of_ne_nil t.ne_nil
        rw [hstops]
        simp [Template.tabstops, hrest, places]
      have hmap : ((templateStops t.print).map fun s => (s.stop, s.appearance)).map Prod.fst =
          (templateStops t.print).map ParsedStop.stop := by
        rw [List.map_map]
        rfl
      have hrendered : t.render = (scan 0 {} t.print).rendered := by rw [hscan]
      rw [hmap, hrendered]
      exact congrArg some (if_neg hne)
    · exact under_places t.first.text t.rest
  · intro input
    refine ⟨_, parseSnippetSuffixBytes_encode input, fun s hs => parseSnippetSuffix_ranges hs⟩

/-- A template with placeholders of one index, the final cursor position, an accent and lone signs. -/
def forLoop : Template where
  first := ⟨"für ".toList, by decide⟩
  rest :=
    [(⟨1, by decide, some "i".toList, by decide⟩, ⟨"=$1; ".toList, by decide⟩),
      (⟨0, by decide, some "end".toList, by decide⟩, ⟨[], by decide⟩),
      (⟨1, by decide, none, by decide⟩, ⟨" \x7d$".toList, by decide⟩)]
  ne_nil := by decide

/-- The template is read back, and a placeholder without an end is read as text. -/
theorem parse_print_forLoop :
    (∃ stops : List (TabStop × ℕ), stops.Perm [(⟨1, 4, 5⟩, 0), (⟨0, 10, 10⟩, 1), (⟨1, 10, 10⟩, 2)] ∧
      stops.Pairwise Before ∧
      parseSnippetSuffixBytes (Utf8.encode "für $\x7b1:i\x7d=$1; $\x7b0:end\x7d$\x7b1\x7d \x7d$".toList) =
        some (some ⟨"für i=$1;  \x7d$".toList, stops.map Prod.fst⟩)) ∧
    ∃ result, parseSnippetSuffixBytes (Utf8.encode "$\x7b1:é".toList) = some result ∧
      ∀ s ∈ result, (∀ t ∈ s.tabstops, Within t s.rendered) ∧ s.tabstops.Pairwise Apart := by
  obtain ⟨stops, hperm, hsorted, hparse, -⟩ := parse_print.1 forLoop
  have hprint : forLoop.print = "für $\x7b1:i\x7d=$1; $\x7b0:end\x7d$\x7b1\x7d \x7d$".toList := by
    decide +kernel
  have hrender : forLoop.render = "für i=$1;  \x7d$".toList := by decide +kernel
  have htabstops : forLoop.tabstops.zipIdx = [(⟨1, 4, 5⟩, 0), (⟨0, 10, 10⟩, 1), (⟨1, 10, 10⟩, 2)] := by
    decide +kernel
  rw [hprint, hrender] at hparse
  rw [htabstops] at hperm
  exact ⟨⟨stops, hperm, hsorted, hparse⟩, parse_print.2 _⟩

end Termua.Snippet
