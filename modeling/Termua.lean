import Termua.Assistant.Conversation
import Termua.Assistant.Fences
import Termua.Lib.Overlay
import Termua.Lib.Run
import Termua.Lib.Bisect
import Termua.Lib.Channel
import Termua.Lib.Signal
import Termua.Lib.Sparse
import Termua.Lib.Table
import Termua.Lib.Entries
import Termua.Lib.Utf8
import Termua.Lib.Collapse
import Termua.Lib.Text
import Termua.Lib.Bytes
import Termua.Lib.Clamp
import Termua.Lib.Graphemes
import Termua.Lib.Windows
import Termua.Lib.Excise
import Termua.Lib.MouseProtocol
import Termua.Lib.Effect
import Termua.Lib.Files
import Termua.Lib.Groups
import Termua.Lib.Trie
import Termua.Lib.Json
import Termua.Lib.JsonValue
import Termua.Lib.Serde
import Termua.Lib.LineEditor
import Termua.Lib.Vt.Parser
import Termua.Lib.Vt.Screen
import Termua.Lib.Vt.Sound
import Termua.Cast.Screen
import Termua.Cast.Serialize
import Termua.Cast.Actions
import Termua.Cast.Repaint
import Termua.Cast.Faithful
import Termua.Cast.Recorder
import Termua.Cast.Player
import Termua.Cast.Selection
import Termua.Cast.Probes
import Termua.Web.Access
import Termua.Web.Server
import Termua.Web.Step
import Termua.Web.Broadcaster
import Termua.Web.Input
import Termua.Web.Sharing
import Termua.Web.Sent
import Termua.Web.Announce
import Termua.Web.Mirror
import Termua.Web.Teardown
import Termua.Web.Frame
import Termua.Window.Reload
import Termua.Window.Sidebar
import Termua.Window.WebShare
import Termua.Window.Connecting
import Termua.Window.Lifecycle
import Termua.Window.Tree
import Termua.Window.TabLabels
import Termua.Transfer.Center
import Termua.Transfer.Invariant
import Termua.Transfer.History
import Termua.Transfer.Enumeration
import Termua.Transfer.Summary
import Termua.Limiter.PermitPool
import Termua.Limiter.Permits
import Termua.Upload.Worker
import Termua.Upload.Planning
import Termua.Upload.Scheduler
import Termua.Upload.Debris
import Termua.Upload.Results
import Termua.Session.Store
import Termua.Panel.Accounting
import Termua.Panel.Batch
import Termua.Panel.Cancel
import Termua.Panel.Plan
import Termua.Panel.Worker
import Termua.Session.Json
import Termua.Session.Open
import Termua.Session.Update
import Termua.Settings.File
import Termua.Settings.Keymap
import Termua.Settings.Reload
import Termua.Settings.Sections
import Termua.Session.Load
import Termua.Session.Form
import Termua.Session.Edit
import Termua.Session.Environment
import Termua.Session.Migrate
import Termua.Settings.Headers
import Termua.Ssh.Proxy
import Termua.Ssh.Quoting
import Termua.Ssh.Auth
import Termua.Snippet.Parse
import Termua.Snippet.Session
import Termua.Snippet.Integrity
import Termua.Snippet.Scanner
import Termua.Snippet.Print
import Termua.View.Input
import Termua.View.Editing
import Termua.View.MultiExec
import Termua.View.SearchBuffer
import Termua.Suggest.Matching
import Termua.Suggest.Engine
import Termua.Suggest.Static
import Termua.Suggest.CursorLine
import Termua.Terminal.Shutdown
import Termua.Terminal.Mouse
import Termua.Sftp.Path
import Termua.Lib.Forest
import Termua.Lib.Fresh
import Termua.Lib.Replace
import Termua.Lib.Expansion
import Termua.Lib.Shell
import Termua.Sftp.Tree
import Termua.Sftp.Table
import Termua.Sftp.Browser
import Termua.Sftp.Coherence
import Termua.Sftp.Context
import Termua.Sftp.Delete
import Termua.Sftp.Freshness
import Termua.Sftp.Rows
import Termua.Sftp.Selection
import Termua.Sftp.DropTarget
import Termua.Sftp.Breadcrumbs
import Termua.Element.Highlight
import Termua.Lib.RunLog
import Termua.Lib.History
import Termua.Element.Plan
import Termua.Element.Coverage
import Termua.Scroll.Viewport
import Termua.Scroll.Requests
import Termua.Scroll.Jump
import Termua.Search.Tokens
import Termua.Search.Copy
import Termua.Lib.Ring
import Termua.Lib.Scrollback
import Termua.Grid.Row
import Termua.Grid.Storage
import Termua.Grid.Index
import Termua.Grid.Scroll
import Termua.Grid.Scrolling
import Termua.Grid.Pages
import Termua.Grid.Cell
import Termua.Grid.Clearing
import Termua.Grid.Runs
import Termua.Grid.StableIds
import Termua.Lib.Returns
import Termua.Term.State
import Termua.Term.Handler
import Termua.Term.Safety
import Termua.Term.Writing
import Termua.Term.Runs
import Termua.Pty.EventLoop
import Termua.Pty.Delivery
import Termua.Pty.Progress
import Termua.Lib.Sections
import Termua.Lib.Inclusion
import Termua.Ssh.ConfigFile
import Termua.Ssh.Config
import Termua.Ssh.Reading
import Termua.Ssh.FirstValue
