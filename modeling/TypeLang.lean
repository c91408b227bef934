import TypeLang.Text.Basic
import TypeLang.Text.Case
import TypeLang.Text.Escape
import TypeLang.Text.WordChar
import TypeLang.Scalar
import TypeLang.TypeToken
import TypeLang.Naming
import TypeLang.Token
import TypeLang.Signature
import TypeLang.DocTags
import TypeLang.Block
import TypeLang.Item
import TypeLang.Schema
import TypeLang.Registry.Basic
import TypeLang.Registry.Admission
import TypeLang.Registry.Undeclared
import TypeLang.Source.Unit
import TypeLang.Source.Emission
import TypeLang.Source.Writer
import TypeLang.Compilation
import TypeLang.FileTree
import TypeLang.Disk
import TypeLang.CommandLine
import TypeLang.Program
import TypeLang.Main
import TypeLang.Proofs.TypeExpr
import TypeLang.Proofs.Growth
import TypeLang.Proofs.Sound
import TypeLang.Proofs.Readers
import TypeLang.Proofs.Checks
import TypeLang.Proofs.Reachable
import TypeLang.Proofs.Refusal
import TypeLang.Proofs.Catalogue
import TypeLang.Proofs.Clause
import TypeLang.Proofs.ItemRun
import TypeLang.Proofs.Lenient
import TypeLang.Proofs.Verified
import TypeLang.Proofs.Completeness
import TypeLang.Proofs.Swap
import TypeLang.Proofs.Units
import TypeLang.Proofs.Reorder
import TypeLang.Proofs.Spelling
import TypeLang.Proofs.Representation
import TypeLang.Proofs.TypeIdentity
import TypeLang.Proofs.Built
import TypeLang.Proofs.References
import TypeLang.Proofs.Emitted
import TypeLang.Proofs.Unions
import TypeLang.Proofs.UnionClasses
import TypeLang.Proofs.Words
import TypeLang.Proofs.Traces
import TypeLang.Proofs.Paths
import TypeLang.Proofs.Writing
import TypeLang.Proofs.Collisions
import TypeLang.Proofs.Lifecycle
import TypeLang.Proofs.Resubmission
import TypeLang.Proofs.Blocks
import TypeLang.Proofs.LineEnds
import TypeLang.Proofs.Joined
import TypeLang.Proofs.Nesting
import TypeLang.Proofs.Grammar
import TypeLang.Proofs.Layout
import TypeLang.Proofs.Casing
import TypeLang.Proofs.Members
import TypeLang.Proofs.Identifiers
import TypeLang.Proofs.Levels
import TypeLang.Proofs.Chains
import TypeLang.Proofs.Occurrences
import TypeLang.Proofs.Documented
import TypeLang.Proofs.Tiling
import TypeLang.Proofs.Braces
import TypeLang.Proofs.Directories
import TypeLang.Proofs.Rewriting
import TypeLang.Proofs.WrittenOut
import TypeLang.Proofs.Columns
import TypeLang.Proofs.Division
import TypeLang.Proofs.Entities
