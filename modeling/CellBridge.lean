import CellBridge.Bridge.Session
import CellBridge.Cell.Exchange
import CellBridge.Cell.Feed
import CellBridge.Conversion.Line
import CellBridge.Proofs.Heap.Sweep
import CellBridge.Proofs.Heap.Run
import CellBridge.Proofs.Heap.Identity
import CellBridge.Proofs.Heap.Eviction
import CellBridge.Proofs.Session.Calls
import CellBridge.Proofs.Session.CandidateCache
import CellBridge.Proofs.Session.CacheKey
import CellBridge.Proofs.Session.CallingConvention
import CellBridge.Proofs.Session.Construction
import CellBridge.Proofs.Session.StaleArguments
import CellBridge.Proofs.Conversion.Contracts
import CellBridge.Proofs.Conversion.Elements
import CellBridge.Proofs.Conversion.EntryPoints
import CellBridge.Proofs.Conversion.Scalars
import CellBridge.Proofs.Conversion.Reading
import CellBridge.Proofs.Conversion.TypeSoundness
import CellBridge.Proofs.Conversion.StaleHandles
import CellBridge.Proofs.Conversion.RoundTrip
import CellBridge.Proofs.Conversion.Writing
import CellBridge.Proofs.Call.BuiltinBodies
import CellBridge.Proofs.Call.TameCalls
import CellBridge.Proofs.Call.AddCalls
import CellBridge.Proofs.Call.Resolution
import CellBridge.Proofs.Call.Specificity
import CellBridge.Proofs.Session.Termination
import CellBridge.Proofs.Managed.Portable
import CellBridge.Proofs.Number.Integers
import CellBridge.Proofs.Conversion.Layout
import CellBridge.Proofs.Call.Attempts
import CellBridge.Proofs.Session.MemberCalls
import CellBridge.Proofs.Call.Fallback
import CellBridge.Proofs.Session.CallOutcome
import CellBridge.Proofs.Call.Calming
import CellBridge.Proofs.Session.Panics
import CellBridge.Proofs.Managed.Nesting
import CellBridge.Proofs.Conversion.StandardWriters
import CellBridge.Proofs.Heap.Interning
import CellBridge.Proofs.Conversion.Positions
import CellBridge.Proofs.Conversion.Sketch
import CellBridge.Proofs.Conversion.Picture
import CellBridge.Proofs.Conversion.Rendering
import CellBridge.Proofs.Conversion.RenderedHandles
import CellBridge.Proofs.Session.RenderedResults
import CellBridge.Proofs.Conversion.PlainCells
import CellBridge.Proofs.Conversion.Rows
import CellBridge.Proofs.Call.Results
import CellBridge.Proofs.Call.Shelf
import CellBridge.Proofs.Call.CollectionCalls
import CellBridge.Proofs.Session.ShelfRuns
import CellBridge.Proofs.Session.Receivers
import CellBridge.Proofs.Json.Strings
import CellBridge.Proofs.Json.Numerals
import CellBridge.Proofs.Json.Documents
import CellBridge.Proofs.Number.Range
import CellBridge.Proofs.Cell.Grids
import CellBridge.Proofs.Cell.Exchange
import CellBridge.Proofs.Heap.Seeds
import CellBridge.Proofs.Cell.Equality
import CellBridge.Proofs.Conversion.CatalogOrder
import CellBridge.Proofs.Session.Overriding
import CellBridge.Proofs.Heap.Report
import CellBridge.Proofs.Heap.MissCounts
import CellBridge.Proofs.Conversion.KeptWriters
import CellBridge.Proofs.Conversion.Flattening
import CellBridge.Proofs.Conversion.Cropping
import CellBridge.Proofs.Number.Values
import CellBridge.Proofs.Conversion.IntegerReaders
import CellBridge.Proofs.Conversion.IntegerTypes
import CellBridge.Proofs.Cell.GridShape
import CellBridge.Proofs.Call.NumericOverloads
import CellBridge.Proofs.Session.StaticCalls
import CellBridge.Proofs.Session.NarrowestOverload
import CellBridge.Proofs.Call.RenderingRule
import CellBridge.Proofs.Session.SimplestResults
import CellBridge.Proofs.Call.ArgumentReading
import CellBridge.Proofs.Session.ArgumentEffects
import CellBridge.Proofs.Managed.ValueEquality
import CellBridge.Proofs.Call.SetContents
import CellBridge.Proofs.Managed.Assignability
import CellBridge.Proofs.Call.TypeNames
import CellBridge.Proofs.Call.PrioritySums
import CellBridge.Proofs.Conversion.Nesting
import CellBridge.Proofs.Session.Room
