import Accessors.Editor.Workspace
import Accessors.Log.Arguments
import Accessors.Log.Loggers
import Accessors.Main
import Accessors.Server.Session
import Accessors.Text.Utf8.Lemmas
import Accessors.Proofs.Source.Grammar
import Accessors.Proofs.Text.Replace
import Accessors.Proofs.Text.Lines
import Accessors.Proofs.Source.Inert
import Accessors.Proofs.Source.Search
import Accessors.Proofs.Source.Unbroken
import Accessors.Proofs.Render.Indent
import Accessors.Proofs.Render.Block
import Accessors.Proofs.Editor.Build
import Accessors.Proofs.Editor.Transparency
import Accessors.Proofs.Disk.Folder
import Accessors.Proofs.Editor.Command
import Accessors.Proofs.Editor.Splice
import Accessors.Proofs.Editor.Workspace
import Accessors.Proofs.Editor.Lossless
import Accessors.Proofs.Editor.Alike
import Accessors.Proofs.Server.Relay
import Accessors.Proofs.Server.Refinement
import Accessors.Proofs.Render.Spacing
import Accessors.Proofs.Editor.Answer
import Accessors.Proofs.Editor.Calls
import Accessors.Proofs.Editor.Enclosure
import Accessors.Proofs.Render.Description
import Accessors.Proofs.Server.Arguments
import Accessors.Proofs.Server.Answer
import Accessors.Proofs.CommandLine.Answer
import Accessors.Proofs.CommandLine.DryRun
import Accessors.Proofs.Log.Loggers
import Accessors.Proofs.Settings.Ways
import Accessors.Proofs.Editor.Language
import Accessors.Proofs.CommandLine.Status
import Accessors.Proofs.Source.Unclosed
import Accessors.Proofs.Render.Closing
import Accessors.Proofs.Render.Layout
import Accessors.Proofs.Source.Nearest
import Accessors.Proofs.Editor.Selections
import Accessors.Proofs.Source.Comment
import Accessors.Proofs.Source.Ending
import Accessors.Proofs.Editor.Repeats
import Accessors.Proofs.Source.Compound
import Accessors.Proofs.Source.Arrow
import Accessors.Proofs.Render.Wordless
import Accessors.Proofs.Editor.Complaints
import Accessors.Proofs.Settings.File
import Accessors.Proofs.Source.Shape
import Accessors.Proofs.Message
import Accessors.Proofs.Log.Lines
import Accessors.Proofs.CommandLine.Serve
import Accessors.Proofs.Server.Cursors
