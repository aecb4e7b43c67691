import StoreQL.Arithmetic
import StoreQL.Command.Check
import StoreQL.Command.Error
import StoreQL.Command.Files
import StoreQL.Command.Inspect
import StoreQL.Command.Option
import StoreQL.Command.Request
import StoreQL.Command.Run
import StoreQL.Concurrency.Batch
import StoreQL.Concurrency.Branches
import StoreQL.Concurrency.Buffer
import StoreQL.Concurrency.Cancellation
import StoreQL.Concurrency.Handoff
import StoreQL.Concurrency.Network
import StoreQL.Concurrency.Pipeline
import StoreQL.Concurrency.ProducerConsumer
import StoreQL.Concurrency.Schedule
import StoreQL.Concurrency.WorkerPool
import StoreQL.Container.FiniteSet
import StoreQL.Container.Sequence
import StoreQL.Container.Tree
import StoreQL.Decimal.Basic
import StoreQL.Decimal.Read
import StoreQL.Dictionary
import StoreQL.Execute.Basic
import StoreQL.Execute.Projection
import StoreQL.Execute.Result
import StoreQL.Grammar.Basic
import StoreQL.Grammar.Table
import StoreQL.Json.Basic
import StoreQL.Json.Binary64
import StoreQL.Json.Fault
import StoreQL.Json.Print
import StoreQL.Json.Read
import StoreQL.Json.Shortest
import StoreQL.Literal
import StoreQL.Machine.Basic
import StoreQL.Machine.Order
import StoreQL.Main
import StoreQL.Manual.Basic
import StoreQL.Manual.Pages
import StoreQL.Proofs.Concurrency.Accounting
import StoreQL.Proofs.Concurrency.BatchSlots
import StoreQL.Proofs.Concurrency.Chain
import StoreQL.Proofs.Concurrency.Conservation
import StoreQL.Proofs.Concurrency.Delivery
import StoreQL.Proofs.Concurrency.Fan
import StoreQL.Proofs.Concurrency.Fifo
import StoreQL.Proofs.Concurrency.Forwarding
import StoreQL.Proofs.Concurrency.Merge
import StoreQL.Proofs.Concurrency.Moves
import StoreQL.Proofs.Concurrency.Stream
import StoreQL.Proofs.Container.Links
import StoreQL.Proofs.Container.Outline
import StoreQL.Proofs.Container.Preorder
import StoreQL.Proofs.Container.SetAlgebra
import StoreQL.Proofs.Container.Traversal
import StoreQL.Proofs.Decimal.Rendering
import StoreQL.Proofs.Execute.Layout
import StoreQL.Proofs.Execute.Meaning
import StoreQL.Proofs.Execute.Numbers
import StoreQL.Proofs.Execute.Outcome
import StoreQL.Proofs.Execute.Projection
import StoreQL.Proofs.Execute.Reading
import StoreQL.Proofs.Execute.Rendering
import StoreQL.Proofs.Grammar.Derivation
import StoreQL.Proofs.Grammar.Grouping
import StoreQL.Proofs.Grammar.Phrases
import StoreQL.Proofs.Grammar.Rendering
import StoreQL.Proofs.Grammar.Sentences
import StoreQL.Proofs.Json.Fields
import StoreQL.Proofs.Machine.Edges
import StoreQL.Proofs.Machine.Lifecycle
import StoreQL.Proofs.Machine.Reentry
import StoreQL.Proofs.Machine.Words
import StoreQL.Proofs.Query.Completion
import StoreQL.Proofs.Query.Condition
import StoreQL.Proofs.Query.Extent
import StoreQL.Proofs.Query.Locality
import StoreQL.Proofs.Query.Phrase
import StoreQL.Proofs.Query.Reader
import StoreQL.Proofs.Query.Rendering
import StoreQL.Proofs.Query.Statement
import StoreQL.Proofs.Run
import StoreQL.Proofs.Store.History
import StoreQL.Proofs.Store.Loading
import StoreQL.Proofs.Text.ByteOrder
import StoreQL.Proofs.Text.Lines
import StoreQL.Proofs.Text.Position
import StoreQL.Proofs.Text.Separated
import StoreQL.Proofs.Token.Concatenation
import StoreQL.Proofs.Token.Places
import StoreQL.Proofs.Token.Segmentation
import StoreQL.Proofs.Token.Stream
import StoreQL.Query.Basic
import StoreQL.Query.Build
import StoreQL.Query.Clause
import StoreQL.Query.Node
import StoreQL.Query.Parse
import StoreQL.Query.SyntaxError
import StoreQL.Result
import StoreQL.Store.Basic
import StoreQL.Store.Memory
import StoreQL.Text.Blank
import StoreQL.Text.Digit
import StoreQL.Text.Letter
import StoreQL.Text.Numeral
import StoreQL.Text.Position
import StoreQL.Text.Ranges
import StoreQL.Text.UpperCase
import StoreQL.Token.Basic
import StoreQL.Token.Lexeme
import StoreQL.Token.Scan
import StoreQL.Token.Table
