import Mathlib
import Termua.Cast.Repaint
import Termua.Web.Sent

/-!
# What the clients of a share see

`terminal.js` feeds the screen messages it receives to a terminal. The update that the broadcaster
sends to everybody is the difference between the last broadcast screen and the snapshot, while a
client may have seen another snapshot: the one that was current when it authenticated. A row that
changed before and changed back after the authentication is in no update.

`mirrors_broadcast` is the exact other side: when every row that an update skips is as the client
saw it last (`Bridges`), then right after the broadcaster's iteration every client shows the
snapshot. What xterm.js keeps of a screen when its dimensions change is left open.
-/

namespace Termua.Web

open Termua.Cast (TerminalScreen Shows rowSlots)
open Vt (Screen Terminal)

/-! ## The client -/

section Client

variable (resize : Screen → ℕ → ℕ → Screen) (width : Char → ℕ)

/-- What the page relies on in `Terminal.resize` of xterm.js: from two columns and one row on, the
screen gets the dimensions asked for. Nothing is said of the rest: rows may move into the
scrollback, long lines may be wrapped anew, and the cursor goes where they take it. -/
def Resizes : Prop :=
  ∀ s columns rows, 2 ≤ columns → 1 ≤ rows → (resize s columns rows).size = (columns, rows)

/-- `resizeTerminal` of `terminal.js`. -/
def resizeTerminal (terminal : Terminal) (columns rows : ℕ) : Terminal :=
  if terminal.screen.columns ≠ columns ∨ terminal.screen.rows ≠ rows then
    { terminal with screen := resize terminal.screen columns rows }
  else terminal

/-- `ws.onmessage` of `terminal.js`, as far as it concerns the terminal. -/
def onMessage (terminal : Terminal) : Message → Terminal
  | .screen message =>
    if message.kind = 0 ∨ message.kind = 2 then
      (resizeTerminal resize terminal message.columns message.rows).interpret width message.ansi
    else terminal
  | _ => terminal

/-- The terminal of a client that received the messages, which starts with 80 columns and 24
rows. -/
def reconstruct (messages : List Message) : Terminal :=
  messages.foldl (onMessage resize width) (.new 80 24)

/-- A screen equals a captured one: dimensions, grid, and the position and visibility of the
cursor. -/
structure Mirrors (s : Screen) (screen : TerminalScreen) : Prop where
  columns : s.columns = screen.columns
  rows : s.rows = screen.rows
  lines : ∀ row < screen.rows, s.line row = rowSlots width (screen.row row)
  cursorVisible : s.cursorVisible = decide (screen.cursor.shape ≠ .hidden)
  y : (s.y : ℤ) = screen.cursorRow
  x : s.x = screen.cursor.point.column

/-- A screen that a terminal can show: printable, with the cursor inside, and of two columns at
least, which is the minimum of xterm.js. -/
structure Presentable (screen : TerminalScreen) : Prop where
  printable : screen.Printable width
  columns : 2 ≤ screen.columns
  row : screen.cursorRow < screen.rows
  column : screen.cursor.point.column < screen.columns

variable {resize width}

/-- `resizeTerminal` gives the dimensions asked for, whether or not they are the old ones. -/
theorem size_resizeTerminal (hresize : Resizes resize) (terminal : Terminal) {columns rows : ℕ}
    (hcolumns : 2 ≤ columns) (hrows : 1 ≤ rows) :
    (resizeTerminal resize terminal columns rows).screen.size = (columns, rows) := by
  rw [resizeTerminal]
  split
  · exact hresize _ _ _ hcolumns hrows
  · next h =>
    obtain ⟨rfl, rfl⟩ : terminal.screen.columns = columns ∧ terminal.screen.rows = rows := by
      simpa using h
    rfl

/-- A terminal of the dimensions asked for stays as it is. -/
theorem resizeTerminal_self {terminal : Terminal} {columns rows : ℕ}
    (hcolumns : terminal.screen.columns = columns) (hrows : terminal.screen.rows = rows) :
    resizeTerminal resize terminal columns rows = terminal :=
  if_neg (by simp [hcolumns, hrows])

@[simp] theorem parser_resizeTerminal (terminal : Terminal) (columns rows : ℕ) :
    (resizeTerminal resize terminal columns rows).parser = terminal.parser := by
  rw [resizeTerminal]
  split <;> rfl

/-- Showing a screen with the cursor inside is being equal to it. -/
theorem mirrors_of_shows {s : Screen} {screen : TerminalScreen} (hscreen : Presentable width screen)
    (h : Shows width s screen) : Mirrors width s screen where
  columns := h.columns
  rows := h.rows
  lines := h.lines
  cursorVisible := h.cursorVisible
  y := by
    have hnonneg := screen.cursorRow_nonneg
    have hrow := hscreen.row
    rw [h.y]
    omega
  x := by
    have hcolumn := hscreen.column
    rw [h.x]
    omega

theorem reconstruct_append (messages : List Message) (message : Message) :
    reconstruct resize width (messages ++ [message]) =
      onMessage resize width (reconstruct resize width messages) message := by
  simp [reconstruct]

end Client

/-! ## Every client shows what it was sent last -/

namespace Server

variable {resize : Screen → ℕ → ℕ → Screen} {width : Char → ℕ}

/-- The terminal of a client shows the screen, and is between two control sequences. -/
structure ShowsSent (resize : Screen → ℕ → ℕ → Screen) (width : Char → ℕ) (conn : Connection)
    (screen : TerminalScreen) : Prop where
  parser : (reconstruct resize width conn.sent).parser = .ground
  shows : Shows width (reconstruct resize width conn.sent).screen screen

/-- Everything is painted because the dimensions changed since the last broadcast, or every row in
which the broadcast screen agrees with the snapshot is what a client that shows `base` has in it, at
the dimensions of the snapshot. -/
def SkipsShown (width : Char → ℕ) (s : Server) (base : TerminalScreen) : Prop :=
  (s.broadcastScreen.columns ≠ s.snapshot.columns ∨ s.broadcastScreen.rows ≠ s.snapshot.rows) ∨
    ∀ row < s.snapshot.rows, s.broadcastScreen.row row = s.snapshot.row row →
      base.columns = s.snapshot.columns ∧ base.rows = s.snapshot.rows ∧
        rowSlots width (base.row row) = rowSlots width (s.snapshot.row row)

/-- The steps that set presentable snapshots, and those broadcaster iterations whose update skips
only what every connected client shows. -/
def Bridges (width : Char → ℕ) (s : Server) : Event → Prop
  | .setSnapshot snapshot => Presentable width snapshot
  | .broadcast => ∀ client conn base, s.Connected client conn → conn.mirrored = some base →
      s.SkipsShown width base
  | _ => True

/-- Interpreting a text that parses in the terminal of a client. -/
theorem interpret_ground {terminal : Terminal} (hparser : terminal.parser = .ground)
    {text : List Char} {actions : List Vt.Action} (htext : Vt.Parses text actions) :
    terminal.interpret width text =
      ⟨.ground, actions.foldl (Screen.perform width) terminal.screen⟩ := by
  obtain ⟨parser, screen⟩ := terminal
  subst hparser
  exact Terminal.interpret_of_parses width htext _

/-- After it joined, a client shows the snapshot. -/
theorem showsSent_joined {s : Server} {conn : Connection} (hresize : Resizes resize)
    (hsnapshot : Presentable width s.snapshot)
    (hsent : conn.sent = [.access false,
      screenMessage 0 s.snapshot (Cast.serializeTerminalScreenAnsi s.snapshot)]) :
    ShowsSent resize width conn s.snapshot := by
  have hparses := Cast.parses_serializeTerminalScreenAnsi width hsnapshot.printable
  have hterminal : reconstruct resize width conn.sent =
      (resizeTerminal resize (.new 80 24) s.snapshot.columns s.snapshot.rows).interpret width
        (Cast.serializeTerminalScreenAnsi s.snapshot) := by
    rw [hsent]
    rfl
  rw [interpret_ground (parser_resizeTerminal _ _ _) hparses] at hterminal
  constructor
  · rw [hterminal]
  · rw [hterminal]
    -- a full repaint asks for nothing but the dimensions
    exact Cast.shows_full hsnapshot.printable
      (size_resizeTerminal hresize _ hsnapshot.columns s.snapshot.rows_pos)

/-- An update that skips only what a client shows makes it show the snapshot. -/
theorem showsSent_updated {s : Server} {conn conn' : Connection} {base : TerminalScreen}
    (hresize : Resizes resize) (hsnapshot : Presentable width s.snapshot)
    (h : ShowsSent resize width conn base) (hskips : s.SkipsShown width base)
    (hsent : conn'.sent = conn.sent ++ [s.updateMessage]) :
    ShowsSent resize width conn' s.snapshot := by
  have hparses :=
    Cast.parses_serializeTerminalScreenUpdateAnsi width s.broadcastScreen hsnapshot.printable
  have hterminal : reconstruct resize width conn'.sent =
      (resizeTerminal resize (reconstruct resize width conn.sent) s.snapshot.columns
        s.snapshot.rows).interpret width
          (Cast.serializeTerminalScreenUpdateAnsi s.broadcastScreen s.snapshot) := by
    rw [hsent, reconstruct_append]
    rfl
  rw [interpret_ground (by rw [parser_resizeTerminal, h.parser]) hparses] at hterminal
  constructor
  · rw [hterminal]
  · rw [hterminal]
    refine Cast.shows_update hsnapshot.printable
      (size_resizeTerminal hresize _ hsnapshot.columns s.snapshot.rows_pos)
      fun hcolumns hrows row hrow hrow' => ?_
    -- a row that is skipped is the client's row already, and the terminal is not resized
    obtain ⟨hbase, hbase', hskipped⟩ :=
      hskips.resolve_left (by simp [hcolumns, hrows]) row hrow hrow'
    rw [resizeTerminal_self (h.shows.columns.trans hbase) (h.shows.rows.trans hbase'), ← hskipped]
    exact h.shows.lines row (hbase' ▸ hrow)

/-- A message that is no screen message leaves what a client shows. -/
theorem ShowsSent.of_post {conn conn' : Connection} {screen : TerminalScreen} {message : Message}
    (h : ShowsSent resize width conn screen) (hsent : conn'.sent = (conn.post message).sent)
    (hmessage : ∀ terminal, onMessage resize width terminal message = terminal) :
    ShowsSent resize width conn' screen := by
  have hterminal :
      reconstruct resize width conn'.sent = reconstruct resize width conn.sent := by
    rw [hsent, Connection.sent_post]
    split
    · rw [reconstruct_append, hmessage]
    · rfl
  constructor
  · rw [hterminal]
    exact h.parser
  · rw [hterminal]
    exact h.shows

/-- What holds in every state reached by steps that bridge. -/
structure MirrorInv (resize : Screen → ℕ → ℕ → Screen) (width : Char → ℕ) (s : Server) :
    Prop where
  snapshot : Presentable width s.snapshot
  clients : ∀ client conn, s.Connected client conn →
    ∃ base, conn.mirrored = some base ∧ Presentable width base ∧ ShowsSent resize width conn base

/-- Only `update_snapshot` changes the snapshot. -/
theorem snapshot_step {s s' : Server} {e : Event} (hstep : s.step e = some s') :
    s'.snapshot = s.snapshot ∨ e = .setSnapshot s'.snapshot := by
  cases step_cases hstep with
  | authenticated _ _ _ _ =>
    rw [authenticate]
    split <;> exact .inl rfl
  | setSnapshot _ => exact .inr rfl
  | _ => exact .inl rfl

/-- One step that bridges keeps the invariant. -/
theorem MirrorInv.step (hresize : Resizes resize) {s s' : Server} {e : Event} (hinv : s.SharingInv)
    (h : MirrorInv resize width s) (hbridges : Bridges width s e) (hstep : s.step e = some s') :
    MirrorInv resize width s' where
  snapshot := by
    rcases snapshot_step hstep with heq | rfl
    · rw [heq]
      exact h.snapshot
    · exact hbridges
  clients client conn' hconn' := by
    cases clientStep hinv hstep hconn' with
    | joined _ hsent hmirrored _ =>
      exact ⟨s.snapshot, hmirrored, h.snapshot, showsSent_joined hresize h.snapshot hsent⟩
    | kept hconn hsent hmirrored _ =>
      obtain ⟨base, hbase, hpresentable, hshows⟩ := h.clients client _ hconn
      exact ⟨base, hmirrored.trans hbase, hpresentable, by rw [hsent]; exact hshows.parser,
        by rw [hsent]; exact hshows.shows⟩
    | answered hconn hsent hmirrored _ | told hconn hsent hmirrored _ =>
      obtain ⟨base, hbase, hpresentable, hshows⟩ := h.clients client _ hconn
      exact ⟨base, hmirrored.trans hbase, hpresentable, hshows.of_post hsent fun _ => rfl⟩
    | updated he hconn hsent hmirrored _ =>
      subst he
      obtain ⟨base, hbase, hpresentable, hshows⟩ := h.clients client _ hconn
      have hskips := hbridges client _ base hconn hbase
      exact ⟨s.snapshot, hmirrored, h.snapshot,
        showsSent_updated hresize h.snapshot hshows hskips hsent⟩

/-- In every run that bridges, right after each broadcaster iteration the screen that every connected
client reconstructs from the messages sent to it equals the snapshot. -/
theorem mirrors_broadcast (resize : Screen → ℕ → ℕ → Screen) (hresize : Resizes resize)
    (width : Char → ℕ) (token : String) (snapshot : TerminalScreen)
    (hsnapshot : Presentable width snapshot) (es : List Event) (s : Server)
    (h : ReachesWhere (Bridges width) token snapshot (es ++ [.broadcast]) s) (client : ClientId)
    (conn : Connection) (hconn : s.Connected client conn) :
    Mirrors width (reconstruct resize width conn.sent).screen s.snapshot := by
  have hinv : MirrorInv resize width s := by
    refine Transition.Run.invariant (I := MirrorInv resize width) ?_ ?_ h
    · exact ⟨hsnapshot, fun client conn hconn => absurd hconn.mem (Finset.notMem_empty _)⟩
    · rintro _ s e s' hrun hinv ⟨hbridges, hstep⟩
      exact hinv.step hresize (sharingInv_of_reaches hrun.unguard) hbridges hstep
  obtain ⟨base, hbase, hpresentable, hshows⟩ := hinv.clients client conn hconn
  -- what the client was sent last is the snapshot of the iteration itself
  obtain ⟨m, -, -, hstep⟩ := h.last
  have hbroadcast : s = m.broadcast := by
    cases step_cases hstep
    rfl
  subst hbroadcast
  obtain rfl : base = m.snapshot := Option.some.inj (hbase.symm.trans (mirrored_broadcast hconn))
  exact mirrors_of_shows hpresentable hshows.shows

/-- Every character takes one column. -/
def oneColumn (_ : Char) : ℕ := 1

/-- What a change of the dimensions does with the cursor in the first row: what does not fit is cut
off on the right and at the bottom. -/
def cutOff (s : Screen) (columns rows : ℕ) : Screen :=
  { s with columns := columns, rows := rows, x := min s.x (columns - 1) }

theorem resizes_cutOff : Resizes cutOff := fun _ _ _ _ _ => rfl

/-- A screen of a letter and a blank, with the cursor on the letter. -/
def twoColumnScreen (c : Char) : TerminalScreen where
  columns := 2
  rows := 1
  cells := [{ c := c }, {}]
  lineNumbers := [none]
  selection := none
  cursor := ⟨.block, ⟨0, 0⟩⟩
  cursorRow := 0
  columns_pos := Nat.two_pos
  rows_pos := Nat.one_pos
  cells_length := rfl
  lineNumbers_length := Cast.length_oneLineNumber
  cursorRow_nonneg := Cast.firstRow_nonneg

theorem presentable_twoColumnScreen {c : Char} (hc : Vt.isControl c = false) :
    Presentable oneColumn (twoColumnScreen c) where
  printable row hrow := by
    obtain rfl : row = 0 := Nat.lt_one_iff.mp hrow
    exact .narrow ⟨hc, rfl, by simp, rfl⟩ (.narrow ⟨rfl, rfl, by simp, rfl⟩ .nil)
  columns := le_rfl
  row := Int.zero_lt_one
  column := Nat.two_pos

/-- A client joins, and the screen changes. -/
def changedOnce : List Event :=
  [.accept 1 "peer", .receive 1 (.authenticate "secret"), .setSnapshot (twoColumnScreen 'b'), .notify,
    .recvToken, .wake, .drained]

/-- The screen changes, a client joins, and the screen changes back before the broadcaster's
iteration. -/
def changedBack : List Event :=
  [.setSnapshot (twoColumnScreen 'b'), .accept 1 "peer", .receive 1 (.authenticate "secret"),
    .setSnapshot (twoColumnScreen 'a'), .notify, .recvToken, .wake, .drained]

/-- The rows of a connected client whose terminal cuts off. -/
def reconstructed (width : Char → ℕ) (s : Server) (client : ClientId) :
    Option (List (List Vt.Slot)) :=
  (s.connections client).bind fun conn =>
    if client ∈ s.clients ∧ conn.isEnded = false then
      some (reconstruct cutOff width conn.sent).screen.lines
    else none

theorem reconstructed_eq_some {s : Server} {client : ClientId} {lines : List (List Vt.Slot)}
    (h : s.reconstructed width client = some lines) :
    ∃ conn, s.Connected client conn ∧ (reconstruct cutOff width conn.sent).screen.lines = lines := by
  obtain ⟨conn, hconn, h⟩ := Option.bind_eq_some_iff.mp h
  split_ifs at h with hlive
  exact ⟨conn, ⟨hlive.1, hconn, hlive.2⟩, Option.some.inj h⟩

/-- A client that joined before the screen changed shows the snapshot. -/
theorem mirrors_broadcast_changedOnce :
    ∃ s conn, ReachesWhere (Bridges oneColumn) "secret" (twoColumnScreen 'a')
        (changedOnce ++ [.broadcast]) s ∧
      s.Connected 1 conn ∧ Mirrors oneColumn (reconstruct cutOff oneColumn conn.sent).screen s.snapshot := by
  obtain ⟨s, hrun, hs⟩ : ∃ s, Reaches "secret" (twoColumnScreen 'a') (changedOnce ++ [.broadcast]) s ∧
      (s.reconstructed oneColumn 1).isSome = true :=
    Transition.exists_run_of_any _ _ (by decide +kernel)
  obtain ⟨lines, hlines⟩ := Option.isSome_iff_exists.mp hs
  obtain ⟨conn, hconn, -⟩ := reconstructed_eq_some hlines
  have hguarded : ReachesWhere (Bridges oneColumn) "secret" (twoColumnScreen 'a')
      (changedOnce ++ [.broadcast]) s := by
    refine hrun.guard fun i e m hi hm => ?_
    have hlt : i < 8 := (List.getElem?_eq_some_iff.mp hi).1
    -- the only row changed, so the update skips none
    by_cases hseven : i = 7
    · subst hseven
      cases hi
      intro client conn base hconn hbase
      have hrun' : Reaches "secret" (twoColumnScreen 'a') changedOnce m := hm
      have hchanged : (changedOnce.foldlM step (bind "secret" (twoColumnScreen 'a'))).any
          (fun m : Server => m.snapshot.rows = 1 ∧ m.broadcastScreen.row 0 ≠ m.snapshot.row 0) =
            true := by
        decide +kernel
      rw [Transition.run_ofPartial_iff.mp hrun'] at hchanged
      obtain ⟨hrows, hne⟩ := of_decide_eq_true hchanged
      refine .inr fun row hrow heq => absurd heq ?_
      obtain rfl : row = 0 := by omega
      exact hne
    · interval_cases i <;> cases hi <;>
        first | trivial | exact presentable_twoColumnScreen rfl
  exact ⟨s, conn, hguarded, hconn,
    mirrors_broadcast _ resizes_cutOff _ _ _ (presentable_twoColumnScreen rfl) _ _ hguarded 1 conn hconn⟩

/-- A client that joined while the screen was changed keeps what it saw then, although the screen
changed back. -/
theorem not_mirrors_changedBack :
    ∃ s conn, Reaches "secret" (twoColumnScreen 'a') (changedBack ++ [.broadcast]) s ∧
      s.Connected 1 conn ∧
      ¬ Mirrors oneColumn (reconstruct cutOff oneColumn conn.sent).screen s.snapshot := by
  obtain ⟨s, hrun, hs⟩ : ∃ s, Reaches "secret" (twoColumnScreen 'a') (changedBack ++ [.broadcast]) s ∧
      ((s.reconstructed oneColumn 1).any fun lines =>
        decide (lines ≠ (List.range s.snapshot.rows).map fun row =>
          rowSlots oneColumn (s.snapshot.row row))) = true :=
    Transition.exists_run_of_any _ _ (by decide +kernel)
  obtain ⟨lines, hlines, hne⟩ := (Option.any_eq_true _ _).mp hs
  obtain ⟨conn, hconn, rfl⟩ := reconstructed_eq_some hlines
  refine ⟨s, conn, hrun, hconn, fun hmirrors => ?_⟩
  refine of_decide_eq_true hne ?_
  rw [Screen.lines, hmirrors.rows]
  exact List.map_congr_left fun row hrow => hmirrors.lines row (List.mem_range.mp hrow)

end Server

end Termua.Web
