import PluginCompiler.Main
import PluginCompiler.Proofs.Config.Layers
import PluginCompiler.Proofs.Connection.Agreement
import PluginCompiler.Proofs.Connection.Key
import PluginCompiler.Proofs.Connection.Members
import PluginCompiler.Proofs.Connection.Operands
import PluginCompiler.Proofs.Emit.Bodies
import PluginCompiler.Proofs.Emit.Comments
import PluginCompiler.Proofs.Emit.Constants
import PluginCompiler.Proofs.Emit.Declared
import PluginCompiler.Proofs.Emit.Dispatch
import PluginCompiler.Proofs.Emit.Flat
import PluginCompiler.Proofs.Emit.Imports
import PluginCompiler.Proofs.Emit.Lines
import PluginCompiler.Proofs.Emit.Packages
import PluginCompiler.Proofs.Emit.Records
import PluginCompiler.Proofs.Enrich.Allowed
import PluginCompiler.Proofs.Enrich.Literals
import PluginCompiler.Proofs.Enrich.Outcome
import PluginCompiler.Proofs.Enrich.Raw
import PluginCompiler.Proofs.Enrich.Rearranged
import PluginCompiler.Proofs.Enrich.Sites
import PluginCompiler.Proofs.FileTree.Change
import PluginCompiler.Proofs.FileTree.Extent
import PluginCompiler.Proofs.FileTree.Listing
import PluginCompiler.Proofs.FileTree.Lookup
import PluginCompiler.Proofs.FileTree.Path
import PluginCompiler.Proofs.Generate.Abort
import PluginCompiler.Proofs.Generate.Completion
import PluginCompiler.Proofs.Generate.Containment
import PluginCompiler.Proofs.Generate.Emission
import PluginCompiler.Proofs.Generate.History
import PluginCompiler.Proofs.Generate.Obstacle
import PluginCompiler.Proofs.Generate.Placement
import PluginCompiler.Proofs.Generate.Preview
import PluginCompiler.Proofs.Go.Declarations
import PluginCompiler.Proofs.Go.Entries
import PluginCompiler.Proofs.Go.Evaluation
import PluginCompiler.Proofs.Go.Expression
import PluginCompiler.Proofs.Go.Literal
import PluginCompiler.Proofs.Go.Operand
import PluginCompiler.Proofs.Go.Produced
import PluginCompiler.Proofs.Go.Switch
import PluginCompiler.Proofs.Go.Token
import PluginCompiler.Proofs.Json.Characters
import PluginCompiler.Proofs.Json.Objects
import PluginCompiler.Proofs.Json.Texts
import PluginCompiler.Proofs.Naming.Normal
import PluginCompiler.Proofs.Null.Parse
import PluginCompiler.Proofs.Performance.Configuration
import PluginCompiler.Proofs.Performance.CrashLog
import PluginCompiler.Proofs.Performance.Inspection
import PluginCompiler.Proofs.Performance.PackageRoot
import PluginCompiler.Proofs.Performance.Preview
import PluginCompiler.Proofs.Performance.Refusal
import PluginCompiler.Proofs.Performance.Rendering
import PluginCompiler.Proofs.Performance.Tables
import PluginCompiler.Proofs.Performance.Unforeseen
import PluginCompiler.Proofs.Plan.ActionNames
import PluginCompiler.Proofs.Plan.Bodies
import PluginCompiler.Proofs.Plan.Collision
import PluginCompiler.Proofs.Plan.Comments
import PluginCompiler.Proofs.Plan.Files
import PluginCompiler.Proofs.Plan.Imports
import PluginCompiler.Proofs.Plan.Keys
import PluginCompiler.Proofs.Plan.Listing
import PluginCompiler.Proofs.Plan.Names
import PluginCompiler.Proofs.Plan.Order
import PluginCompiler.Proofs.Plan.Plain
import PluginCompiler.Proofs.Plan.References
import PluginCompiler.Proofs.Plan.Rendering
import PluginCompiler.Proofs.Plan.Scopes
import PluginCompiler.Proofs.Plan.TypeFields
import PluginCompiler.Proofs.Section.Checked
import PluginCompiler.Proofs.Section.Order
import PluginCompiler.Proofs.Section.Traverse
import PluginCompiler.Proofs.Spec.Address
import PluginCompiler.Proofs.Spec.Decoded
import PluginCompiler.Proofs.Spec.Identifiers
import PluginCompiler.Proofs.Spec.Keys
import PluginCompiler.Proofs.Spec.Parameters
import PluginCompiler.Proofs.Spec.Raw
import PluginCompiler.Proofs.Spec.Root
import PluginCompiler.Proofs.Table.Cells
import PluginCompiler.Proofs.Table.Plain
import PluginCompiler.Proofs.Text.Characters
import PluginCompiler.Proofs.Text.Decoding
import PluginCompiler.Proofs.Toolchain.Commands
import PluginCompiler.Proofs.Toolchain.Sources
import PluginCompiler.Proofs.Yaml.Alias
import PluginCompiler.Proofs.Yaml.Foreseen
import PluginCompiler.Proofs.Yaml.Mapping
import PluginCompiler.Proofs.Yaml.Parts
import PluginCompiler.Proofs.Yaml.Sweep
import PluginCompiler.Proofs.Yaml.Visit
