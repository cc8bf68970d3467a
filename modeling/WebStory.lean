import WebStory.CommandLine
import WebStory.Document.Body
import WebStory.Document.Compile
import WebStory.Document.Head
import WebStory.Entries
import WebStory.Error
import WebStory.Json.Canonical
import WebStory.Json.Decode
import WebStory.Json.Printer
import WebStory.Json.Reader
import WebStory.Json.SyntaxError
import WebStory.Json.Value
import WebStory.Markup.Escape
import WebStory.Markup.Indent
import WebStory.Markup.Inline
import WebStory.Markup.Tag
import WebStory.Markup.Token
import WebStory.Number.Binary64
import WebStory.Number.Layout
import WebStory.Number.Shortest
import WebStory.Options
import WebStory.Path
import WebStory.Story.Basic
import WebStory.Story.Codec
import WebStory.Story.Parse
import WebStory.Story.Source
import WebStory.Style.ClassTable
import WebStory.Style.Convert
import WebStory.Style.Declarations
import WebStory.Style.Record
import WebStory.Style.Shapes
import WebStory.Text.Blank
import WebStory.Text.Quoted
import WebStory.Text.Unprintable
import WebStory.Yaml.CoreScalar
import WebStory.Yaml.Cursor
import WebStory.Yaml.Link
import WebStory.Yaml.Node
import WebStory.Yaml.OptionText
import WebStory.Yaml.Parse
import WebStory.Yaml.Property
import WebStory.Yaml.Resolve
import WebStory.Yaml.Scalar
import WebStory.Yaml.Scan
import WebStory.Yaml.Token
import WebStory.Main
import WebStory.Proofs.Entries
import WebStory.Proofs.Number.Digits
import WebStory.Proofs.Style.Numbering
import WebStory.Proofs.Number.DecimalText
import WebStory.Proofs.Number.Interval
import WebStory.Proofs.Json.Tree
import WebStory.Proofs.Number.Spelling
import WebStory.Proofs.Json.Canonical
import WebStory.Proofs.Json.Decode
import WebStory.Proofs.Json.Printer
import WebStory.Proofs.Json.Reader
import WebStory.Proofs.Style.CanonicalKey
import WebStory.Proofs.Style.Convert
import WebStory.Proofs.Style.Sharing
import WebStory.Proofs.Outcome
import WebStory.Proofs.Style.Faults
import WebStory.Proofs.Style.Reachable
import WebStory.Proofs.Document.Markup
import WebStory.Proofs.Document.Visits
import WebStory.Proofs.Story.Tree
import WebStory.Proofs.Document.Rendering
import WebStory.Proofs.Document.Compile
import WebStory.Proofs.Document.Classes
import WebStory.Proofs.Story.KeysOnce
import WebStory.Proofs.Story.Restyled
import WebStory.Proofs.Style.SameStyle
import WebStory.Proofs.Document.Respelling
import WebStory.Proofs.Markup.Escape
import WebStory.Proofs.Markup.Nesting
import WebStory.Proofs.Markup.Element
import WebStory.Proofs.Markup.Inline
import WebStory.Proofs.Document.Outline
import WebStory.Proofs.Json.Ensures
import WebStory.Proofs.Markup.Pieces
import WebStory.Proofs.Markup.Spans
import WebStory.Proofs.Markup.Renaming
import WebStory.Proofs.Document.Context
import WebStory.Proofs.Style.Containment
import WebStory.Proofs.Document.StyleSheet
import WebStory.Proofs.Document.Scripts
import WebStory.Proofs.Markup.Partition
import WebStory.Proofs.Story.Places
import WebStory.Proofs.Story.Sources
import WebStory.Proofs.Document.FaultPlaces
import WebStory.Proofs.Markup.Layout
import WebStory.Proofs.Document.Indentation
import WebStory.Proofs.Text.Trim
import WebStory.Proofs.Markup.Borders
import WebStory.Proofs.Markup.Legible
import WebStory.Proofs.Markup.Respacing
import WebStory.Proofs.Markup.Reprinting
import WebStory.Proofs.Markup.Ended
import WebStory.Proofs.Json.Accepts
import WebStory.Proofs.Style.Grammar
import WebStory.Proofs.Style.Properties
import WebStory.Proofs.Document.Loading
import WebStory.Proofs.Number.Reading
import WebStory.Proofs.Json.ReadNumber
import WebStory.Proofs.Json.RoundTrip
import WebStory.Proofs.Json.Guarding
import WebStory.Proofs.Json.ReaderPlaces
import WebStory.Proofs.Json.Literals
import WebStory.Proofs.Json.Encode
import WebStory.Proofs.Story.Codec
import WebStory.Proofs.Document.Payloads
import WebStory.Proofs.Story.Readers
import WebStory.Proofs.Story.TypeNames
import WebStory.Proofs.Story.Properties
import WebStory.Proofs.Story.Grammar
import WebStory.Proofs.Story.BareElements
import WebStory.Proofs.Story.Nulls
import WebStory.Proofs.Markup.Attributes
import WebStory.Proofs.Markup.Settings
import WebStory.Proofs.Style.PropertyNames
import WebStory.Proofs.Style.Display
import WebStory.Proofs.Document.Selectors
import WebStory.Proofs.Document.GridAreas
import WebStory.Proofs.Document.PageIds
import WebStory.Proofs.Style.FlexDefault
import WebStory.Proofs.Style.ShadowText
import WebStory.Proofs.Text.Replacing
import WebStory.Proofs.Markup.Entities
import WebStory.Proofs.Markup.LineBreaks
import WebStory.Proofs.Json.IntegerTypes
import WebStory.Proofs.Markup.Scanning
import WebStory.Proofs.Markup.ElementEnd
