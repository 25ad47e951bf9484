import GraphQuery.Binary.Arithmetic
import GraphQuery.Binary.Printer
import GraphQuery.Calendar.Printer
import GraphQuery.Calendar.Reader
import GraphQuery.Text.Blank
import GraphQuery.Text.Case
import GraphQuery.Text.Pieces
import GraphQuery.Text.Quoted
import GraphQuery.Value.Logic
import GraphQuery.Record.Basic
import GraphQuery.Record.SymbolTable
import GraphQuery.Graph.Context
import GraphQuery.Function.Registry
import GraphQuery.Aggregate.Config
import GraphQuery.Aggregate.Accumulator
import GraphQuery.Expression.Detection
import GraphQuery.Evaluation.Evaluator
import GraphQuery.Plan.Progress
import GraphQuery.Proofs.EntryOrder
import GraphQuery.Proofs.ReferenceGrouping
import GraphQuery.Proofs.Replay
import GraphQuery.Proofs.FailedDrain
import GraphQuery.Proofs.MixedOperands
import GraphQuery.Proofs.ReducedCalls
import GraphQuery.Proofs.StaleElements
import GraphQuery.Proofs.Snapshots
import GraphQuery.Proofs.EqualityDecisions
import GraphQuery.Proofs.DistinctOperands
import GraphQuery.Proofs.TextKeys
import GraphQuery.Proofs.RowOrder
import GraphQuery.Proofs.Extrema
import GraphQuery.Proofs.Percentiles
import GraphQuery.Proofs.DistinctCounts
import GraphQuery.Proofs.ExactArithmetic
import GraphQuery.Proofs.Remainders
import GraphQuery.Proofs.CaseForms
import GraphQuery.Proofs.ScopedNames
import GraphQuery.Proofs.Renaming
import GraphQuery.Proofs.PropertyChains
import GraphQuery.Proofs.ClassifiedItems
import GraphQuery.Proofs.KeptRecords
import GraphQuery.Proofs.FailedDelivery
import GraphQuery.Proofs.InvalidElements
import GraphQuery.Proofs.Progressions
import GraphQuery.Proofs.Subscripts
import GraphQuery.Proofs.TextParts
import GraphQuery.Proofs.SplitTexts
import GraphQuery.Proofs.ReadBack
import GraphQuery.Proofs.NestedVisits
import GraphQuery.Proofs.Registrations
