import JavaResources.Disk.Listing
import JavaResources.JavaClass
import JavaResources.SourceFile
import JavaResources.Style.Source
import JavaResources.Proofs.Pen.Stroke
import JavaResources.Proofs.Pen.Ink
import JavaResources.Proofs.Pen.Levels
import JavaResources.Proofs.Pen.Lines
import JavaResources.Proofs.Layout.Closed
import JavaResources.Proofs.SourceFile.LimitedSpace
import JavaResources.Proofs.Pen.Deeper
import JavaResources.Proofs.Layout.Rendering
import JavaResources.Proofs.JavaClass.Latest
import JavaResources.Proofs.Pen.Fragments
import JavaResources.Proofs.Pen.Stopping
import JavaResources.Proofs.Layout.Depth
import JavaResources.Proofs.Pen.Record
import JavaResources.Proofs.Pen.Retries
import JavaResources.Proofs.Layout.Empty
import JavaResources.Proofs.DocComment.Collected
import JavaResources.Proofs.DocComment.Tags
import JavaResources.Proofs.DocComment.Stripped
import JavaResources.Proofs.DocComment.Appended
import JavaResources.Proofs.Layout.RenderedLines
import JavaResources.Proofs.Layout.Braces
import JavaResources.Proofs.Layout.Injective
import JavaResources.Proofs.DocComment.Printed
import JavaResources.Proofs.Layout.FinalFields
import JavaResources.Proofs.Pen.LeveledLines
import JavaResources.Proofs.SourceFile.Style
import JavaResources.Proofs.SourceFile.Parts
import JavaResources.Proofs.Layout.Rows
import JavaResources.Proofs.Path.Resolve
import JavaResources.Proofs.SourceFile.Place
import JavaResources.Proofs.ResourceId.Order
import JavaResources.Proofs.Layout.MethodNames
import JavaResources.Proofs.Layout.Methods
import JavaResources.Proofs.SourceFile.Methods
import JavaResources.Proofs.Toml.DistinctKeys
import JavaResources.Proofs.Toml.ReadDistinct
import JavaResources.Proofs.Style.Accepted
