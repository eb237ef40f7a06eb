import NodeSchema.Text.Blank
import NodeSchema.Text.Lines
import NodeSchema.Text.Cut
import NodeSchema.Text.Quoted
import NodeSchema.Word
import NodeSchema.Schema
import NodeSchema.Settings
import NodeSchema.Fault
import NodeSchema.Source
import NodeSchema.Header
import NodeSchema.Json
import NodeSchema.Document
import NodeSchema.Decimal.Shortest
import NodeSchema.Decimal.Notation
import NodeSchema.Json.Fault
import NodeSchema.Json.Text
import NodeSchema.Json.Number
import NodeSchema.Json.Value
import NodeSchema.Settings.Reader
import NodeSchema.FileTree.Path
import NodeSchema.FileTree
import NodeSchema.FileTree.Pattern
import NodeSchema.Command.Arguments
import NodeSchema.Command.Invocation
import NodeSchema.Command.Outline
import NodeSchema.Command.Report
import NodeSchema.Command.Generator
import NodeSchema.Fixture.Difference
import NodeSchema.Fixture
import NodeSchema.Main
import NodeSchema.Proofs.Text
import NodeSchema.Proofs.Word
import NodeSchema.Proofs.Settings
import NodeSchema.Proofs.Grammar
import NodeSchema.Proofs.Reading
import NodeSchema.Proofs.FirstFault
import NodeSchema.Proofs.Scope
import NodeSchema.Proofs.HeaderText
import NodeSchema.Proofs.Readback
import NodeSchema.Proofs.Landmarks
import NodeSchema.Proofs.Guard
import NodeSchema.Proofs.Capture
import NodeSchema.Proofs.JsonText
import NodeSchema.Proofs.SettingsText
import NodeSchema.Proofs.Layout
import NodeSchema.Proofs.Concatenation
import NodeSchema.Proofs.LineOrder
import NodeSchema.Proofs.Separator
import NodeSchema.Proofs.Delivery
import NodeSchema.Proofs.Preparation
import NodeSchema.Proofs.Arguments
import NodeSchema.Proofs.Run
import NodeSchema.Proofs.Locality
import NodeSchema.Proofs.Unambiguous
import NodeSchema.Proofs.PrettyText
import NodeSchema.Proofs.CompactText
import NodeSchema.Proofs.SettingsFile
import NodeSchema.Proofs.Views
import NodeSchema.Proofs.Matching
import NodeSchema.Proofs.Fixtures
import NodeSchema.Proofs.Remainder
import NodeSchema.Proofs.SameNodes
import NodeSchema.Proofs.ClassText
import NodeSchema.Proofs.PathsBelow
import NodeSchema.Proofs.Siblings
import NodeSchema.Proofs.NewFile
import NodeSchema.Proofs.PlainDirectory
import NodeSchema.Proofs.FixtureFiles
import NodeSchema.Proofs.Blessing
import NodeSchema.Proofs.FieldFault
import NodeSchema.Proofs.Quoted
import NodeSchema.Proofs.Difference
import NodeSchema.Proofs.Includes
import NodeSchema.Proofs.Namespace
import NodeSchema.Proofs.Messages
import NodeSchema.Proofs.Pushes
import NodeSchema.Proofs.Writer
