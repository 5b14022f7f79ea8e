import CodeFacts.Archive
import CodeFacts.Builder.Basic
import CodeFacts.Builder.Declaration
import CodeFacts.Builder.Draft
import CodeFacts.Builder.Handle
import CodeFacts.Call
import CodeFacts.Command
import CodeFacts.DocComment
import CodeFacts.DocEntry
import CodeFacts.Dotted
import CodeFacts.Entries
import CodeFacts.Event.Basic
import CodeFacts.Event.Log
import CodeFacts.Fault
import CodeFacts.Identifier
import CodeFacts.Index
import CodeFacts.Main
import CodeFacts.Model
import CodeFacts.Modifier
import CodeFacts.Ontology.Basic
import CodeFacts.Ontology.Bounds
import CodeFacts.Ontology.Gate
import CodeFacts.Ontology.Profile
import CodeFacts.Paths
import CodeFacts.Position
import CodeFacts.Proofs.Binding
import CodeFacts.Proofs.Builder.Accept
import CodeFacts.Proofs.Builder.Access
import CodeFacts.Proofs.Builder.Afresh
import CodeFacts.Proofs.Builder.Along
import CodeFacts.Proofs.Builder.Atomic
import CodeFacts.Proofs.Builder.Bodies
import CodeFacts.Proofs.Builder.Brackets
import CodeFacts.Proofs.Builder.Ending
import CodeFacts.Proofs.Builder.Fits
import CodeFacts.Proofs.Builder.Forest
import CodeFacts.Proofs.Builder.Lasting
import CodeFacts.Proofs.Builder.Layers
import CodeFacts.Proofs.Builder.Mirror
import CodeFacts.Proofs.Builder.Named
import CodeFacts.Proofs.Builder.Outcome
import CodeFacts.Proofs.Builder.Paired
import CodeFacts.Proofs.Builder.Replies
import CodeFacts.Proofs.Builder.Reported
import CodeFacts.Proofs.Builder.Roots
import CodeFacts.Proofs.Builder.Said
import CodeFacts.Proofs.Builder.Settled
import CodeFacts.Proofs.Builder.Shadows
import CodeFacts.Proofs.Builder.Signature
import CodeFacts.Proofs.Builder.Standing
import CodeFacts.Proofs.Builder.Steady
import CodeFacts.Proofs.Builder.Wider
import CodeFacts.Proofs.Builder.Writes
import CodeFacts.Proofs.Declared
import CodeFacts.Proofs.Distinct
import CodeFacts.Proofs.DocComment
import CodeFacts.Proofs.DocEntry
import CodeFacts.Proofs.Entries
import CodeFacts.Proofs.Event.Log
import CodeFacts.Proofs.Event.Record
import CodeFacts.Proofs.Event.Replay
import CodeFacts.Proofs.Grammar
import CodeFacts.Proofs.Identifier
import CodeFacts.Proofs.Index
import CodeFacts.Proofs.Lookup
import CodeFacts.Proofs.Names
import CodeFacts.Proofs.Ontology.Gate
import CodeFacts.Proofs.Ontology.Hierarchy
import CodeFacts.Proofs.Ontology.Order
import CodeFacts.Proofs.Ontology.Profile
import CodeFacts.Proofs.Ontology.Rules
import CodeFacts.Proofs.Preload
import CodeFacts.Proofs.Query.Access
import CodeFacts.Proofs.Query.Answers
import CodeFacts.Proofs.Query.Libraries
import CodeFacts.Proofs.Query.Overloads
import CodeFacts.Proofs.Query.Signatures
import CodeFacts.Proofs.Query.Types
import CodeFacts.Proofs.Resolve
import CodeFacts.Proofs.Source.Alike
import CodeFacts.Proofs.Source.Altered
import CodeFacts.Proofs.Source.Blocks
import CodeFacts.Proofs.Source.Comments
import CodeFacts.Proofs.Source.Driven
import CodeFacts.Proofs.Source.Missing
import CodeFacts.Proofs.Source.Overloads
import CodeFacts.Proofs.Source.OwnTypes
import CodeFacts.Proofs.Source.Qualified
import CodeFacts.Proofs.Source.Rebound
import CodeFacts.Proofs.Source.Retold
import CodeFacts.Proofs.Source.Stack
import CodeFacts.Proofs.Source.Surroundings
import CodeFacts.Proofs.Source.Trace
import CodeFacts.Proofs.Source.Unit
import CodeFacts.Proofs.Steps
import CodeFacts.Proofs.Store.Collection
import CodeFacts.Proofs.Store.Contents
import CodeFacts.Proofs.Store.Edit
import CodeFacts.Proofs.Store.Graph
import CodeFacts.Proofs.Store.Keyed
import CodeFacts.Proofs.Store.Memory
import CodeFacts.Proofs.Store.Plain
import CodeFacts.Proofs.Stored
import CodeFacts.Proofs.Symbols
import CodeFacts.Proofs.Tally
import CodeFacts.Proofs.Text.Blank
import CodeFacts.Proofs.Text.Digest
import CodeFacts.Proofs.Text.Integer
import CodeFacts.Proofs.TypeRef
import CodeFacts.Proofs.Value.Json
import CodeFacts.Proofs.View
import CodeFacts.Proofs.Vocabulary
import CodeFacts.Query.Ask
import CodeFacts.Query.Basic
import CodeFacts.Query.Entity
import CodeFacts.Query.Record
import CodeFacts.Recorder
import CodeFacts.Session
import CodeFacts.Source.Declaration
import CodeFacts.Source.Library
import CodeFacts.Source.Node
import CodeFacts.Source.Outline
import CodeFacts.Source.Resolver
import CodeFacts.Source.Telling
import CodeFacts.Source.Trace
import CodeFacts.Store.Backend
import CodeFacts.Store.Basic
import CodeFacts.Store.Element
import CodeFacts.Store.Form
import CodeFacts.Store.Graph
import CodeFacts.Store.Keyed
import CodeFacts.Store.Line
import CodeFacts.Store.Memory
import CodeFacts.Store.Reference
import CodeFacts.Store.ShortName
import CodeFacts.Store.Turtle.Reader
import CodeFacts.Store.Turtle.Writer
import CodeFacts.Symbols
import CodeFacts.Tally
import CodeFacts.Text.Blank
import CodeFacts.Text.Decimal
import CodeFacts.Text.Digest
import CodeFacts.Text.Integer
import CodeFacts.Text.Name
import CodeFacts.Text.Printable
import CodeFacts.Text.Quoted
import CodeFacts.Text.Ranges
import CodeFacts.Text.Split
import CodeFacts.Text.Utf8
import CodeFacts.Text.Word
import CodeFacts.Triple
import CodeFacts.TypeRef
import CodeFacts.Value.Basic
import CodeFacts.Value.Checked
import CodeFacts.Value.Json
import CodeFacts.Vocabulary
