import TerminalManager.Lib.Monitor
import TerminalManager.Ptyd.Registry
import TerminalManager.Ptyd.Operations
import TerminalManager.Ptyd.Ensure
import TerminalManager.Ptyd.RegistryRuns
import TerminalManager.Ptyd.Reader
import TerminalManager.Lib.LittleEndian
import TerminalManager.Ptyd.Frame
import TerminalManager.Ptyd.Connection
import TerminalManager.Ptyd.AttachOrder
import TerminalManager.Ptyd.Sinks
import TerminalManager.Ptyd.Attachments
import TerminalManager.Lib.Lines
import TerminalManager.Editor.Buffer
import TerminalManager.Editor.Splice
import TerminalManager.Editor.Moves
import TerminalManager.Editor.Edits
import TerminalManager.Editor.LineEdits
import TerminalManager.Editor.History
import TerminalManager.Editor.Saved
import TerminalManager.Editor.Columns
import TerminalManager.Editor.Offsets
import TerminalManager.Editor.Comments
import TerminalManager.Editor.Safety
import TerminalManager.Lib.Chunked
import TerminalManager.Ptyd.Codec
import TerminalManager.Ptyd.Client
import TerminalManager.Diff.Parse
import TerminalManager.Diff.Document
import TerminalManager.Diff.Patch
import TerminalManager.Diff.RoundTrip
import TerminalManager.Lib.Loops
import TerminalManager.Lib.Picture
import TerminalManager.Core.Grid
import TerminalManager.Core.Terminal
import TerminalManager.Core.Screen
import TerminalManager.Core.Invariant
import TerminalManager.Core.Resizing
import TerminalManager.Core.Scrolling
import TerminalManager.Core.AltScreen
import TerminalManager.Core.Intermediates
import TerminalManager.Lib.Json
import TerminalManager.Core.Snapshot
import TerminalManager.Ptyd.Response
import TerminalManager.Ui.CellGrid
import TerminalManager.Ui.Motion
import TerminalManager.Ui.Terminal
import TerminalManager.Ui.Screen
import TerminalManager.Ui.ScrollPosition
import TerminalManager.Ui.Invariant
import TerminalManager.Ui.LineIds
import TerminalManager.Ui.AbsLines
import TerminalManager.Ui.Links
import TerminalManager.Ui.Display
import TerminalManager.Ui.Intermediates
import TerminalManager.Lib.Table
import TerminalManager.Lib.Ragged
import TerminalManager.App.Agents
import TerminalManager.App.Grid
import TerminalManager.App.State
import TerminalManager.App.Tabs
import TerminalManager.App.Panes
import TerminalManager.App.Workspaces
import TerminalManager.App.Step
import TerminalManager.App.Persist
import TerminalManager.App.Shape
import TerminalManager.App.Boot
import TerminalManager.App.Effects
import TerminalManager.App.PaneIds
import TerminalManager.App.Rearrange
import TerminalManager.App.TabIds
import TerminalManager.App.Outcomes
import TerminalManager.App.Orphans
import TerminalManager.App.Titles
import TerminalManager.App.Commands
import TerminalManager.App.CommandEffects
import TerminalManager.App.Unsaved
import TerminalManager.App.Prompts
import TerminalManager.App.Restart
import TerminalManager.App.Pruning
import TerminalManager.App.Dragging
import TerminalManager.Lib.Deletion
import TerminalManager.Lib.Utf8
import TerminalManager.App.Paste
import TerminalManager.Lib.Paths
import TerminalManager.App.RepoPaths
import TerminalManager.Lib.Overlay
import TerminalManager.Lib.Ownership
import TerminalManager.Lib.LinkedTree
import TerminalManager.Keybinds.Combo
import TerminalManager.Keybinds.RoundTrip
import TerminalManager.Keybinds.Action
import TerminalManager.Keybinds.State
import TerminalManager.Keybinds.Loader
import TerminalManager.Framework.Input
import TerminalManager.Palette.Fuzzy
import TerminalManager.Palette.FileIndex
import TerminalManager.Updater.Transport
import TerminalManager.Updater.State
import TerminalManager.Updater.Feed
import TerminalManager.Updater.Runs
import TerminalManager.DiffReview.Align
import TerminalManager.DiffReview.Patch
import TerminalManager.DiffReview.State
import TerminalManager.DiffReview.Runs
import TerminalManager.Reconcile.Element
import TerminalManager.Reconcile.Arena
import TerminalManager.Reconcile.Engine
import TerminalManager.Reconcile.Subtree
import TerminalManager.Reconcile.Matching
import TerminalManager.Reconcile.Children
import TerminalManager.Reconcile.LiveTree
import TerminalManager.Reconcile.Rebuild
import TerminalManager.Lib.Registers
import TerminalManager.Reconcile.NodeRefs
import TerminalManager.App.Resume
import TerminalManager.Lib.Climb
import TerminalManager.Style.Selector
import TerminalManager.Style.Matching
import TerminalManager.Lib.Bits
import TerminalManager.Style.Candidates
import TerminalManager.Style.SelectorText
import TerminalManager.Lib.Grouping
import TerminalManager.Style.TokenScopes
import TerminalManager.Style.Environment
import TerminalManager.Lib.Find
import TerminalManager.Syntax.Language
import TerminalManager.Syntax.Scanner
import TerminalManager.Syntax.Tiling
import TerminalManager.Editor.Damage
import TerminalManager.Syntax.Cache
import TerminalManager.Diff.BlockStates
import TerminalManager.Editor.Search
import TerminalManager.Flow.Tree
import TerminalManager.Lib.Worklist
import TerminalManager.Flow.Graph
import TerminalManager.Flow.Boxes
import TerminalManager.Lib.Rows
import TerminalManager.Flow.Folding
import TerminalManager.Lib.Parens
import TerminalManager.Style.Variables
import TerminalManager.Style.Expansion
import TerminalManager.Style.Resolution
import TerminalManager.Keybinds.Config
import TerminalManager.Ui.Damage
import TerminalManager.Ui.FragmentUpload
import TerminalManager.Pty.Resizes
import TerminalManager.Pty.Sizes
import TerminalManager.Pty.Output
import TerminalManager.Pty.Reattach
import TerminalManager.Ui.GlyphAtlas
