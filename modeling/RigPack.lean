import RigPack.Animation.Basic
import RigPack.Binary.Arithmetic
import RigPack.Binary.Format
import RigPack.Binary.Power
import RigPack.Binary.Shortest
import RigPack.Binary.Text
import RigPack.Command.Basic
import RigPack.Command.Text
import RigPack.CommandLine.Description
import RigPack.CommandLine.Grammar
import RigPack.CommandLine.Parser
import RigPack.CommandLine.Request
import RigPack.CommandLine.Run
import RigPack.Defect
import RigPack.Export.Basic
import RigPack.Export.Fault
import RigPack.Failure
import RigPack.Json.Basic
import RigPack.Json.Decode
import RigPack.Json.Draft
import RigPack.Json.Grammar
import RigPack.Json.Parser
import RigPack.Json.Printer
import RigPack.Json.Reader
import RigPack.Main
import RigPack.Naming
import RigPack.Pack.Blueprint
import RigPack.Pack.Content
import RigPack.Pack.Folder
import RigPack.Pack.Layout
import RigPack.Path
import RigPack.Project.Basic
import RigPack.Project.Document
import RigPack.Project.Load
import RigPack.RangeTree.Balanced
import RigPack.RangeTree.Basic
import RigPack.Rig.Basic
import RigPack.Settings.Basic
import RigPack.Settings.Conventions
import RigPack.Settings.Environment
import RigPack.Settings.Fault
import RigPack.Settings.File
import RigPack.Settings.Library
import RigPack.Settings.Load
import RigPack.Snbt
import RigPack.Store.Basic
import RigPack.Store.Disk
import RigPack.Store.Shelf
import RigPack.Table
import RigPack.Text.Alphanumeric
import RigPack.Text.Blank
import RigPack.Text.CharSet
import RigPack.Text.Digits
import RigPack.Text.Invisible
import RigPack.Text.Lines
import RigPack.Text.Pieces
import RigPack.Text.Quoted
import RigPack.Timeline.Keyframe
import RigPack.Timeline.Units
import RigPack.Toml.Basic
import RigPack.Toml.Printer
import RigPack.Toml.Reader
import RigPack.Toml.Scalar
import RigPack.Toml.Tables
import RigPack.Toml.Text
import RigPack.Variant
import RigPack.Proofs.Agreement
import RigPack.Proofs.Binary.Basin
import RigPack.Proofs.Binary.Chars
import RigPack.Proofs.Binary.Literal
import RigPack.Proofs.Binary.Nearest
import RigPack.Proofs.Binary.Overflow
import RigPack.Proofs.Binary.Pattern
import RigPack.Proofs.Command.OneLine
import RigPack.Proofs.Command.Reader
import RigPack.Proofs.Command.References
import RigPack.Proofs.Command.RoundTrip
import RigPack.Proofs.Export.Accepted
import RigPack.Proofs.Export.AnimationList
import RigPack.Proofs.Export.Clash
import RigPack.Proofs.Export.Confinement
import RigPack.Proofs.Export.FileCount
import RigPack.Proofs.Export.FrameCommands
import RigPack.Proofs.Export.Independence
import RigPack.Proofs.Export.Lines
import RigPack.Proofs.Export.Looks
import RigPack.Proofs.Export.Namespaces
import RigPack.Proofs.Export.References
import RigPack.Proofs.Export.Refusal
import RigPack.Proofs.Export.Renaming
import RigPack.Proofs.Export.Replacement
import RigPack.Proofs.Export.Retry
import RigPack.Proofs.Export.Shelved
import RigPack.Proofs.Export.Summoning
import RigPack.Proofs.Export.Transforms
import RigPack.Proofs.Export.Validity
import RigPack.Proofs.FirstFault
import RigPack.Proofs.Game.Displays
import RigPack.Proofs.Game.Machine
import RigPack.Proofs.Game.Resources
import RigPack.Proofs.Game.ScoreTest
import RigPack.Proofs.Game.View
import RigPack.Proofs.Json.Compact
import RigPack.Proofs.Json.Literal
import RigPack.Proofs.Json.Provenance
import RigPack.Proofs.Json.Record
import RigPack.Proofs.Pack.ChangeAt
import RigPack.Proofs.Pack.Clash
import RigPack.Proofs.Pack.Counting
import RigPack.Proofs.Pack.Leaves
import RigPack.Proofs.Pack.Located
import RigPack.Proofs.Pack.Lookup
import RigPack.Proofs.Pack.Named
import RigPack.Proofs.Pack.OneLine
import RigPack.Proofs.Pack.PathMap
import RigPack.Proofs.Pack.Places
import RigPack.Proofs.Pack.References
import RigPack.Proofs.Pack.Sound
import RigPack.Proofs.Pack.Tags
import RigPack.Proofs.Pack.Tidy
import RigPack.Proofs.Pack.Trace
import RigPack.Proofs.Pack.Warning
import RigPack.Proofs.Pack.Writing
import RigPack.Proofs.Path
import RigPack.Proofs.Playback.Controls
import RigPack.Proofs.Playback.Frames
import RigPack.Proofs.Playback.Lines
import RigPack.Proofs.Playback.Player
import RigPack.Proofs.Playback.Poses
import RigPack.Proofs.Playback.Simulation
import RigPack.Proofs.Project.Poses
import RigPack.Proofs.RangeTree.Balanced
import RigPack.Proofs.RangeTree.Descent
import RigPack.Proofs.RangeTree.Halving
import RigPack.Proofs.RangeTree.Partition
import RigPack.Proofs.RangeTree.Postorder
import RigPack.Proofs.RangeTree.Preorder
import RigPack.Proofs.RangeTree.SearchTree
import RigPack.Proofs.RangeTree.Traversal
import RigPack.Proofs.Settings.Layers
import RigPack.Proofs.Settings.Shown
import RigPack.Proofs.Settings.Word
import RigPack.Proofs.Snbt.Decoding
import RigPack.Proofs.Snbt.Reader
import RigPack.Proofs.Snbt.Values
import RigPack.Proofs.Store.Alike
import RigPack.Proofs.Store.Contents
import RigPack.Proofs.Store.Growing
import RigPack.Proofs.Store.Outside
import RigPack.Proofs.Store.Watched
import RigPack.Proofs.Success
import RigPack.Proofs.Table
import RigPack.Proofs.Text.ByteOrder
import RigPack.Proofs.Text.Decimal
import RigPack.Proofs.Text.LineBreaks
import RigPack.Proofs.Text.OneLine
import RigPack.Proofs.Text.Words
import RigPack.Proofs.Timeline.Compilation
import RigPack.Proofs.Timeline.Faults
import RigPack.Proofs.Timeline.Names
import RigPack.Proofs.Timeline.Spelling
import RigPack.Proofs.Timeline.Walk
import RigPack.Proofs.Toml.Document
import RigPack.Proofs.Toml.Lines
import RigPack.Proofs.Toml.Numbers
import RigPack.Proofs.Toml.Strings
