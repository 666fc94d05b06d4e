import ScriptGlue.Main
import ScriptGlue.Proofs.Declaration.Printing
import ScriptGlue.Proofs.Glue.Alignment
import ScriptGlue.Proofs.Output.Slots
import ScriptGlue.Proofs.Table.Layout
import ScriptGlue.Proofs.Custom.Registry
import ScriptGlue.Proofs.Glue.EventTyping
import ScriptGlue.Proofs.Glue.Locals
import ScriptGlue.Proofs.Hook.Numbering
import ScriptGlue.Proofs.Hook.Printing
import ScriptGlue.Proofs.Glue.Fragments
import ScriptGlue.Proofs.Disk.FileMap
import ScriptGlue.Proofs.Disk.Path
import ScriptGlue.Proofs.Output.Findings
import ScriptGlue.Proofs.Output.Surface
import ScriptGlue.Proofs.Run.Outcome
import ScriptGlue.Proofs.Source.Coverage
import ScriptGlue.Proofs.Source.LineEnds
import ScriptGlue.Proofs.Table.Comments
import ScriptGlue.Proofs.Mapping.Stages
import ScriptGlue.Proofs.Hook.Alignment
import ScriptGlue.Proofs.Table.Groups
import ScriptGlue.Proofs.Source.Matching
import ScriptGlue.Proofs.Source.Order
import ScriptGlue.Proofs.Table.Extent
import ScriptGlue.Proofs.Declaration.Outline
import ScriptGlue.Proofs.Access.Safety
import ScriptGlue.Proofs.Declaration.FoldPlaces
import ScriptGlue.Proofs.Glue.ArrayLengths
import ScriptGlue.Proofs.Glue.StagedElements
import ScriptGlue.Proofs.Declaration.Collapsing
import ScriptGlue.Proofs.Glue.Flags
import ScriptGlue.Proofs.Mapping.Qualifiers
import ScriptGlue.Proofs.Glue.Externals
import ScriptGlue.Proofs.Declaration.WrittenNames
import ScriptGlue.Proofs.Declaration.TypeWords
import ScriptGlue.Proofs.Glue.ListedNames
import ScriptGlue.Proofs.Output.ScriptNames
import ScriptGlue.Proofs.Hook.Foreign
import ScriptGlue.Proofs.Hook.Definitions
import ScriptGlue.Proofs.Output.InPlace
import ScriptGlue.Proofs.Record.Calls
import ScriptGlue.Proofs.Output.Symbols
import ScriptGlue.Proofs.Quantities
