import ShapeExport.Main
import ShapeExport.Shape.Equality
import ShapeExport.Proofs.Collection.Confluence
import ShapeExport.Proofs.Validation.Instantiation
import ShapeExport.Proofs.Validation.Local
import ShapeExport.Proofs.Validation.Opened
import ShapeExport.Proofs.JsonSchema.Document
import ShapeExport.Proofs.FilePath
import ShapeExport.Proofs.Collection.Calls
import ShapeExport.Proofs.Export.Specifiers
import ShapeExport.Proofs.Collection.Marks
import ShapeExport.Proofs.Collection.Dangling
import ShapeExport.Proofs.Export.Agreement
import ShapeExport.Proofs.TypeScript.Agreement
import ShapeExport.Proofs.Zod.Agreement
import ShapeExport.Proofs.Collection.Order
import ShapeExport.Proofs.Export.InsertionOrder
import ShapeExport.Proofs.TypeScript.Grouping
import ShapeExport.Proofs.Export.Imports
import ShapeExport.Proofs.Zod.Aliases
import ShapeExport.Proofs.Zod.StringKeys
import ShapeExport.Proofs.FileTree.Writing
import ShapeExport.Proofs.Export.Directory
import ShapeExport.Proofs.Export.Rejection
import ShapeExport.Proofs.Export.Missing
import ShapeExport.Proofs.Export.Accepted
import ShapeExport.Proofs.Export.PropertyKeys
import ShapeExport.Proofs.JsonSchema.Keys
import ShapeExport.Proofs.Export.WideIntegers
import ShapeExport.Proofs.Export.Envelopes
import ShapeExport.Proofs.Export.ObjectKeys
import ShapeExport.Proofs.Validation.Reduction
import ShapeExport.Proofs.Export.Arity
import ShapeExport.Proofs.Export.Capture
import ShapeExport.Proofs.JsonSchema.Formed
import ShapeExport.Proofs.JsonSchema.Tagged
import ShapeExport.Proofs.Comment
import ShapeExport.Proofs.Validation.Located
import ShapeExport.Proofs.Text.PropertyName
import ShapeExport.Proofs.Script.Grammar
import ShapeExport.Proofs.Shape.Substitution
import ShapeExport.Proofs.JsonSchema.Bound
import ShapeExport.Proofs.JsonSchema.Termination
import ShapeExport.Proofs.Zod.Endless
import ShapeExport.Proofs.Collection.Reachability
import ShapeExport.Proofs.Export.Places
import ShapeExport.Proofs.Json.Alike
import ShapeExport.Proofs.JsonSchema.DistinctKeys
import ShapeExport.Proofs.JsonSchema.Union
import ShapeExport.Proofs.Config.RoundTrip
import ShapeExport.Proofs.Export.Containment
import ShapeExport.Proofs.TypeId
import ShapeExport.Proofs.Casing
import ShapeExport.Proofs.Export.StringEnums
