import Mathlib
import Termua.Assistant.Conversation
import Termua.Cast.Probes

/-!
# Fenced code blocks of a reply

`extract_fenced_code_blocks` and `strip_fenced_code_blocks` of `termua/src/assistant.rs`: two copies
of a scanner, one of which keeps the blocks and the other the text between them. Where a fence is not
closed both of them stop, and what is behind the fence is in neither result. `Doc` is how the scanners
read a reply.
-/

namespace Termua.Assistant

open Cast (findSplit findSplit_some findSplit_none)

/-- `FencedCodeBlock`. -/
structure FencedCodeBlock where
  lang : Option Text
  body : Text
  deriving DecidableEq, Repr

/-- The three backticks. -/
def fence : Text := ['`', '`', '`']

/-- The loop of `extract_fenced_code_blocks`, with fuel for each fence that opens. -/
def extractFuel : ℕ → Text → List FencedCodeBlock
  | 0, _ => []
  | n + 1, text =>
    match findSplit fence text with
    | none => []
    | some (_, opened) =>
      match findSplit ['\n'] opened with
      | none => []
      | some (langRaw, bodyStart) =>
        let langRaw := Text.trim langRaw
        let lang := if langRaw ≠ [] then some langRaw else none
        match findSplit fence bodyStart with
        | none => []
        | some (body, rest) =>
          let body := Text.trim body
          if body ≠ [] then { lang, body } :: extractFuel n rest else extractFuel n rest

/-- `extract_fenced_code_blocks`. -/
def extractFencedCodeBlocks (text : Text) : List FencedCodeBlock :=
  if Text.trim text = [] then [] else extractFuel text.length text

/-- The loop of `strip_fenced_code_blocks`, with fuel for each fence that opens. -/
def stripFuel : ℕ → Text → Text
  | 0, _ => []
  | n + 1, text =>
    match findSplit fence text with
    | none => text
    | some (before, opened) =>
      before ++
        match findSplit ['\n'] opened with
        | none => []
        | some (_, bodyStart) =>
          match findSplit fence bodyStart with
          | none => []
          | some (_, rest) => stripFuel n rest

/-- `strip_fenced_code_blocks`. -/
def stripFencedCodeBlocks (text : Text) : Text :=
  if Text.trim text = [] then [] else Text.trim (stripFuel text.length text)

/-! ## How a reply is read -/

/-- A reply in its parts: what is behind the last block has no fence, a fence on the last line, or a
fence that nothing closes; a block has the rest of the line of its opening fence and a body. -/
inductive Doc
  | prose (text : Text)
  | openLine (before line : Text)
  | openBody (before line body : Text)
  | block (before line body : Text) (rest : Doc)
  deriving Repr

namespace Doc

/-- The reply of the parts. -/
def text : Doc → Text
  | prose text => text
  | openLine before line => before ++ (fence ++ line)
  | openBody before line body => before ++ (fence ++ (line ++ (['\n'] ++ body)))
  | block before line body rest =>
    before ++ (fence ++ (line ++ (['\n'] ++ (body ++ (fence ++ rest.text)))))

/-- The parts of a reply, with fuel for each fence that opens. -/
def readFuel : ℕ → Text → Doc
  | 0, text => prose text
  | n + 1, text =>
    match findSplit fence text with
    | none => prose text
    | some (before, opened) =>
      match findSplit ['\n'] opened with
      | none => openLine before opened
      | some (line, bodyStart) =>
        match findSplit fence bodyStart with
        | none => openBody before line bodyStart
        | some (body, rest) => block before line body (readFuel n rest)

/-- The parts of a reply. -/
def read (text : Text) : Doc := readFuel text.length text

end Doc

/-- The characters that are not whitespace. -/
def visible (text : Text) : Text := text.filter fun c => !Text.isWhitespace c

/-- A text without its fences. -/
def withoutFences : Text → Text
  | '`' :: '`' :: '`' :: text => withoutFences text
  | c :: text => c :: withoutFences text
  | [] => []

/-- What the line of an opening fence has to show: nothing where it is an info string, which has no
fence in it, else what stands between its fences. -/
def lineContent (line : Text) : Text :=
  if fence <:+: line then visible (withoutFences line) else []

namespace Doc

/-- What a reply has to show: its visible characters without the fences and the info strings. -/
def content : Doc → Text
  | prose text => visible text
  | openLine before line => visible before ++ lineContent line
  | openBody before line body => visible before ++ (lineContent line ++ visible body)
  | block before line body rest =>
    visible before ++ (lineContent line ++ (visible body ++ rest.content))

/-- Each line of an opening fence is an info string or has fences only, and only blanks are behind the
line of a fence that nothing closes. -/
def Closed : Doc → Prop
  | prose _ => True
  | openLine _ line => lineContent line = []
  | openBody _ line body => lineContent line = [] ∧ visible body = []
  | block _ line _ rest => lineContent line = [] ∧ rest.Closed

end Doc

/-- The third list has the items of the first and of the second, each in their order. -/
inductive Shuffle {α : Type*} : List α → List α → List α → Prop
  | nil : Shuffle [] [] []
  | left {a : α} {l r whole : List α} (h : Shuffle l r whole) : Shuffle (a :: l) r (a :: whole)
  | right {a : α} {l r whole : List α} (h : Shuffle l r whole) : Shuffle l (a :: r) (a :: whole)

/-- What the reply has to show is shown in its order: each character in the stripped text or in one of
the blocks. -/
def ShownCompletely (text : Text) : Prop :=
  ∃ prose bodies, Shuffle prose bodies (Doc.read text).content ∧
    prose.Sublist (visible (stripFencedCodeBlocks text)) ∧
    bodies.Sublist ((extractFencedCodeBlocks text).flatMap fun block => visible block.body)

/-! ## What is shown -/

section Shown

variable {n : ℕ} {text x y : Text} {d : Doc}

theorem visible_append : visible (x ++ y) = visible x ++ visible y := List.filter_append x y

theorem visible_eq_nil_iff : visible x = [] ↔ ∀ c ∈ x, Text.isWhitespace c = true := by
  unfold visible
  rw [List.filter_eq_nil_iff]
  simp only [Bool.not_eq_true', Bool.not_eq_false]

theorem visible_trim (text : Text) : visible (Text.trim text) = visible text := by
  obtain ⟨before, after, htext, hbefore, hafter⟩ := Text.exists_eq_append_trim text
  have hsplit := congrArg visible htext
  rw [visible_append, visible_append, visible_eq_nil_iff.mpr hbefore, visible_eq_nil_iff.mpr hafter,
    List.nil_append, List.append_nil] at hsplit
  exact hsplit.symm

theorem length_of_findSplit {pat before after : Text} (h : findSplit pat text = some (before, after)) :
    after.length + pat.length ≤ text.length := by
  have hlength := congrArg List.length (findSplit_some h).1
  rw [List.length_append, List.length_append] at hlength
  omega

/-- What is behind a block is shorter than the reply. -/
theorem length_of_block {before opened line bodyStart body rest : Text} (h : text.length ≤ n + 1)
    (hopen : findSplit fence text = some (before, opened))
    (hline : findSplit ['\n'] opened = some (line, bodyStart))
    (hclose : findSplit fence bodyStart = some (body, rest)) : rest.length ≤ n := by
  have hopened := length_of_findSplit hopen
  have hbodyStart := length_of_findSplit hline
  have hrest := length_of_findSplit hclose
  have hfence : fence.length = 3 := rfl
  omega

/-- Induction over the turns of a scanner: the reply ends, it has no fence, the line of its fence does
not end, nothing closes its fence, or there is a block and the reply behind it. -/
@[elab_as_elim]
theorem scanInduction {motive : (n : ℕ) → (text : Text) → text.length ≤ n → Prop}
    (done : motive 0 [] (Nat.zero_le _))
    (prose : ∀ n text (h : text.length ≤ n + 1), findSplit fence text = none → motive (n + 1) text h)
    (openLine : ∀ n text (h : text.length ≤ n + 1) before line,
      findSplit fence text = some (before, line) → findSplit ['\n'] line = none →
        motive (n + 1) text h)
    (openBody : ∀ n text (h : text.length ≤ n + 1) before opened line body,
      findSplit fence text = some (before, opened) → findSplit ['\n'] opened = some (line, body) →
        findSplit fence body = none → motive (n + 1) text h)
    (block : ∀ n text (h : text.length ≤ n + 1) before opened line bodyStart body rest
      (hopen : findSplit fence text = some (before, opened))
      (hline : findSplit ['\n'] opened = some (line, bodyStart))
      (hclose : findSplit fence bodyStart = some (body, rest)),
        motive n rest (length_of_block h hopen hline hclose) → motive (n + 1) text h)
    (n : ℕ) (text : Text) (h : text.length ≤ n) : motive n text h := by
  induction n generalizing text with
  | zero =>
    obtain rfl := List.length_eq_zero_iff.mp (Nat.le_zero.mp h)
    exact done
  | succ n ih =>
    cases hopen : findSplit fence text with
    | none => exact prose n text h hopen
    | some split =>
      obtain ⟨before, opened⟩ := split
      cases hline : findSplit ['\n'] opened with
      | none => exact openLine n text h before opened hopen hline
      | some split =>
        obtain ⟨line, bodyStart⟩ := split
        cases hclose : findSplit fence bodyStart with
        | none => exact openBody n text h before opened line bodyStart hopen hline hclose
        | some split =>
          obtain ⟨body, rest⟩ := split
          exact block n text h before opened line bodyStart body rest hopen hline hclose (ih rest _)

namespace Doc

/-- The visible characters of the text between the blocks. -/
def shownProse : Doc → Text
  | prose text => visible text
  | openLine before _ => visible before
  | openBody before _ _ => visible before
  | block before _ _ rest => visible before ++ rest.shownProse

/-- The visible characters of the blocks. -/
def shownBodies : Doc → Text
  | prose _ => []
  | openLine _ _ => []
  | openBody _ _ _ => []
  | block _ _ body rest => visible body ++ rest.shownBodies

/-- The parts make up the reply. -/
theorem text_readFuel (h : text.length ≤ n) : (readFuel n text).text = text := by
  induction n, text, h using scanInduction with
  | done => rfl
  | prose n text h hopen =>
    simp only [readFuel, hopen]
    rfl
  | openLine n text h before line hopen hline =>
    simp only [readFuel, hopen, hline]
    exact (findSplit_some hopen).1.symm
  | openBody n text h before opened line body hopen hline hclose =>
    simp only [readFuel, hopen, hline, hclose]
    rw [(findSplit_some hopen).1, (findSplit_some hline).1]
    rfl
  | block n text h before opened line bodyStart body rest hopen hline hclose ih =>
    simp only [readFuel, hopen, hline, hclose]
    rw [Doc.text, ih, (findSplit_some hopen).1, (findSplit_some hline).1, (findSplit_some hclose).1]

theorem text_read (text : Text) : (read text).text = text := text_readFuel le_rfl

end Doc

/-- The stripped text is what is between the blocks. -/
theorem visible_stripFuel (h : text.length ≤ n) :
    visible (stripFuel n text) = (Doc.readFuel n text).shownProse := by
  induction n, text, h using scanInduction with
  | done => rfl
  | prose n text h hopen =>
    simp only [stripFuel, Doc.readFuel, hopen]
    rfl
  | openLine n text h before line hopen hline =>
    simp only [stripFuel, Doc.readFuel, hopen, hline, List.append_nil]
    rfl
  | openBody n text h before opened line body hopen hline hclose =>
    simp only [stripFuel, Doc.readFuel, hopen, hline, hclose, List.append_nil]
    rfl
  | block n text h before opened line bodyStart body rest hopen hline hclose ih =>
    simp only [stripFuel, Doc.readFuel, hopen, hline, hclose]
    rw [visible_append, ih, Doc.shownProse]

/-- The blocks are what is between a fence and the next one. -/
theorem flatMap_extractFuel (h : text.length ≤ n) :
    (extractFuel n text).flatMap (fun block => visible block.body) =
      (Doc.readFuel n text).shownBodies := by
  induction n, text, h using scanInduction with
  | done => rfl
  | prose n text h hopen =>
    simp only [extractFuel, Doc.readFuel, hopen]
    rfl
  | openLine n text h before line hopen hline =>
    simp only [extractFuel, Doc.readFuel, hopen, hline]
    rfl
  | openBody n text h before opened line body hopen hline hclose =>
    simp only [extractFuel, Doc.readFuel, hopen, hline, hclose]
    rfl
  | block n text h before opened line bodyStart body rest hopen hline hclose ih =>
    simp only [extractFuel, Doc.readFuel, hopen, hline, hclose]
    rw [Doc.shownBodies, ← ih, ← visible_trim body]
    split
    · rfl
    · next hblank =>
      rw [not_not.mp hblank]
      rfl

/-- A reply of blanks has no fence. -/
theorem findSplit_of_blank (h : Text.trim text = []) : findSplit fence text = none := by
  have hblank : visible text = [] := by rw [← visible_trim, h]; rfl
  cases hopen : findSplit fence text with
  | none => rfl
  | some split =>
    have hmem : '`' ∈ text := by
      rw [(findSplit_some hopen).1]
      exact List.mem_append_right _ (List.mem_append_left _ List.mem_cons_self)
    exact absurd (visible_eq_nil_iff.mp hblank '`' hmem) (by decide)

theorem read_of_blank (h : Text.trim text = []) : Doc.read text = .prose text := by
  unfold Doc.read
  cases text.length with
  | zero => rfl
  | succ n =>
    unfold Doc.readFuel
    rw [findSplit_of_blank h]

theorem visible_stripFencedCodeBlocks (text : Text) :
    visible (stripFencedCodeBlocks text) = (Doc.read text).shownProse := by
  unfold stripFencedCodeBlocks
  split
  · next hblank =>
    rw [read_of_blank hblank, Doc.shownProse, ← visible_trim text, hblank]
  · rw [visible_trim]
    exact visible_stripFuel le_rfl

theorem flatMap_extractFencedCodeBlocks (text : Text) :
    (extractFencedCodeBlocks text).flatMap (fun block => visible block.body) =
      (Doc.read text).shownBodies := by
  unfold extractFencedCodeBlocks
  split
  · next hblank =>
    rw [read_of_blank hblank]
    rfl
  · exact flatMap_extractFuel le_rfl

end Shown

/-! ## What has to be shown -/

section Content

variable {text : Text} {d : Doc}

namespace Shuffle

variable {α : Type*} {l r whole l' r' whole' : List α}

theorem append (h : Shuffle l r whole) (h' : Shuffle l' r' whole') :
    Shuffle (l ++ l') (r ++ r') (whole ++ whole') := by
  induction h with
  | nil => exact h'
  | left _ ih => exact .left ih
  | right _ ih => exact .right ih

theorem left_self (l : List α) : Shuffle l [] l := by
  induction l with
  | nil => exact .nil
  | cons a l ih => exact .left ih

theorem right_self (r : List α) : Shuffle [] r r := by
  induction r with
  | nil => exact .nil
  | cons a r ih => exact .right ih

theorem length_eq (h : Shuffle l r whole) : whole.length = l.length + r.length := by
  induction h with
  | nil => rfl
  | left _ ih =>
    rw [List.length_cons, List.length_cons, ih]
    omega
  | right _ ih =>
    rw [List.length_cons, List.length_cons, ih]
    omega

end Shuffle

/-- What a reply has to show is what is shown, where each fence is closed. -/
theorem Doc.Closed.shuffle (h : d.Closed) : Shuffle d.shownProse d.shownBodies d.content := by
  induction d with
  | prose text => exact .left_self _
  | openLine before line =>
    rw [Doc.content, h, List.append_nil]
    exact .left_self _
  | openBody before line body =>
    rw [Doc.content, h.1, h.2, List.append_nil, List.append_nil]
    exact .left_self _
  | block before line body rest ih =>
    rw [Doc.content, h.1, List.nil_append]
    have hrest := (Shuffle.right_self (visible body)).append (ih h.2)
    exact (Shuffle.left_self (visible before)).append hrest

theorem Doc.length_shown_le : d.shownProse.length + d.shownBodies.length ≤ d.content.length := by
  induction d with
  | prose text => exact le_rfl
  | openLine before line =>
    simp only [Doc.shownProse, Doc.shownBodies, Doc.content, List.length_append, List.length_nil]
    omega
  | openBody before line body =>
    simp only [Doc.shownProse, Doc.shownBodies, Doc.content, List.length_append, List.length_nil]
    omega
  | block before line body rest ih =>
    simp only [Doc.shownProse, Doc.shownBodies, Doc.content, List.length_append]
    omega

/-- Where what has to be shown is not more than what is shown, each fence is closed. -/
theorem Doc.closed_of_length_le
    (h : d.content.length ≤ d.shownProse.length + d.shownBodies.length) : d.Closed := by
  induction d with
  | prose text => exact trivial
  | openLine before line =>
    simp only [Doc.shownProse, Doc.shownBodies, Doc.content, List.length_append, List.length_nil] at h
    exact List.length_eq_zero_iff.mp (by omega)
  | openBody before line body =>
    simp only [Doc.shownProse, Doc.shownBodies, Doc.content, List.length_append, List.length_nil] at h
    exact ⟨List.length_eq_zero_iff.mp (by omega), List.length_eq_zero_iff.mp (by omega)⟩
  | block before line body rest ih =>
    have hrest := rest.length_shown_le
    simp only [Doc.shownProse, Doc.shownBodies, Doc.content, List.length_append] at h
    exact ⟨List.length_eq_zero_iff.mp (by omega), ih (by omega)⟩

/-- A reply is shown completely exactly when each of its fences is closed and no line of an opening
fence has more than an info string. -/
theorem shownCompletely_iff (text : Text) : ShownCompletely text ↔ (Doc.read text).Closed := by
  unfold ShownCompletely
  rw [visible_stripFencedCodeBlocks, flatMap_extractFencedCodeBlocks]
  constructor
  · rintro ⟨prose, bodies, hshuffle, hprose, hbodies⟩
    refine Doc.closed_of_length_le ?_
    rw [hshuffle.length_eq]
    exact Nat.add_le_add hprose.length_le hbodies.length_le
  · intro h
    exact ⟨_, _, h.shuffle, List.Sublist.refl _, List.Sublist.refl _⟩

/-- A reply that is cut off in a block loses the block. -/
theorem not_shownCompletely_cutOff : ¬ ShownCompletely "A\n```sh\necho hi".toList := by
  rintro ⟨prose, bodies, hshuffle, hprose, hbodies⟩
  have hcontent : (Doc.read "A\n```sh\necho hi".toList).content.length = 7 := by decide +kernel
  have hstripped : visible (stripFencedCodeBlocks "A\n```sh\necho hi".toList) = ['A'] := by
    decide +kernel
  have hblocks : extractFencedCodeBlocks "A\n```sh\necho hi".toList = [] := by decide +kernel
  have hlength := hshuffle.length_eq
  have hleft := hprose.length_le
  have hright := hbodies.length_le
  rw [hstripped, List.length_singleton] at hleft
  rw [hblocks, List.flatMap_nil, List.length_nil] at hright
  omega

end Content

end Termua.Assistant
