import SocialGraph.Decimal.Double
import SocialGraph.Decimal.Shortest
import SocialGraph.Json.Basic
import SocialGraph.Json.Render
import SocialGraph.Json.Error
import SocialGraph.Json.Cursor
import SocialGraph.Text.Printable
import SocialGraph.Text.Quoted
import SocialGraph.Text.Space
import SocialGraph.Json.Read
import SocialGraph.Json.Decode
import SocialGraph.Id.Uuid
import SocialGraph.Id.Basic
import SocialGraph.Service.Error
import SocialGraph.Record.Basic
import SocialGraph.Record.Dataset
import SocialGraph.Document.Report
import SocialGraph.Document.Lexer
import SocialGraph.Document.Combinator
import SocialGraph.Document.Syntax
import SocialGraph.Document.Literal
import SocialGraph.Document.Grammar
import SocialGraph.Text.NameMap
import SocialGraph.Selection.Basic
import SocialGraph.Selection.Error
import SocialGraph.Selection.OfDocument
import SocialGraph.Store.Basic
import SocialGraph.Store.Call
import SocialGraph.Engine.Cache
import SocialGraph.Engine.Schema
import SocialGraph.Engine.Response
import SocialGraph.Engine.Resolve
import SocialGraph.Engine.Execute
import SocialGraph.Record.Seed
import SocialGraph.Service.MediaType
import SocialGraph.Service.Query
import SocialGraph.Service.Http
import SocialGraph.Proofs.Keys
import SocialGraph.Proofs.Cache
import SocialGraph.Proofs.MemoContract
import SocialGraph.Proofs.Reference
import SocialGraph.Proofs.StoreTables
import SocialGraph.Proofs.FaithfulCache
import SocialGraph.Proofs.Layout
import SocialGraph.Proofs.Refinement
import SocialGraph.Proofs.Batching
import SocialGraph.Proofs.ResponsePaths
import SocialGraph.Proofs.OutcomeShapes
import SocialGraph.Proofs.LevelLayout
import SocialGraph.Proofs.ObjectAssembly
import SocialGraph.Proofs.ResponseShape
import SocialGraph.Proofs.TruthfulCache
import SocialGraph.Proofs.PrunedValues
import SocialGraph.Proofs.FailurePruning
import SocialGraph.Proofs.LevelDepth
import SocialGraph.Proofs.ResponseDepth
import SocialGraph.Proofs.FieldRemoval
import SocialGraph.Proofs.LayoutFrame
import SocialGraph.Proofs.ObjectPairs
import SocialGraph.Proofs.InertFields
import SocialGraph.Proofs.Flattening
import SocialGraph.Proofs.FieldCollection
import SocialGraph.Proofs.FragmentCycles
import SocialGraph.Proofs.CanonicalValues
import SocialGraph.Proofs.InlinedVariables
import SocialGraph.Proofs.ValidationReports
import SocialGraph.Proofs.StoreLoading
import SocialGraph.Proofs.IdSpelling
import SocialGraph.Proofs.RecordKinds
import SocialGraph.Proofs.DirectiveOrder
import SocialGraph.Proofs.LevelAlignment
import SocialGraph.Proofs.CallCount
