import TemplateStyles.Block.Printer
import TemplateStyles.Main
import TemplateStyles.Render.Css
import TemplateStyles.Render.Element
import TemplateStyles.Proofs.Render.Resolution
import TemplateStyles.Proofs.Render.Expansion
import TemplateStyles.Proofs.Render.Priority
import TemplateStyles.Proofs.Render.Overlays
import TemplateStyles.Proofs.Render.FixedRendering
import TemplateStyles.Proofs.Text.MarkerScan
import TemplateStyles.Proofs.Block.LastWrite
import TemplateStyles.Proofs.Block.Declarations
import TemplateStyles.Proofs.Template.Glyph
import TemplateStyles.Proofs.Template.TemplateDeclaration
import TemplateStyles.Proofs.Sheet.Emission
import TemplateStyles.Proofs.Render.LateTemplate
import TemplateStyles.Proofs.Render.CssDeclaration
import TemplateStyles.Proofs.Render.CssAgreement
import TemplateStyles.Proofs.Block.Sides
import TemplateStyles.Proofs.Render.Inheritance
import TemplateStyles.Proofs.Template.Interpolation
import TemplateStyles.Proofs.Property.Spelling
import TemplateStyles.Proofs.Number.Reading
import TemplateStyles.Proofs.Number.Rounding
import TemplateStyles.Proofs.Text.Words
import TemplateStyles.Proofs.Number.Printing
import TemplateStyles.Proofs.Block.ValuePrinting
import TemplateStyles.Proofs.Block.RoundTrip
import TemplateStyles.Proofs.Template.MarkedName
import TemplateStyles.Proofs.Render.Memoization
import TemplateStyles.Proofs.StyleModule.Independence
import TemplateStyles.Proofs.StyleModule.Scope
import TemplateStyles.Proofs.OrderedMap.Merging
import TemplateStyles.Proofs.Render.MetadataMonoid
import TemplateStyles.Proofs.Json.Reread
import TemplateStyles.Proofs.Render.Chain
import TemplateStyles.Proofs.Script.Generation
import TemplateStyles.Proofs.StyleModule.Statistics
import TemplateStyles.Proofs.Template.Manifest
import TemplateStyles.Proofs.Block.Shorthand
import TemplateStyles.Proofs.Block.Timeline
import TemplateStyles.Proofs.Block.Pieces
import TemplateStyles.Proofs.Render.Redeclaration
import TemplateStyles.Proofs.Render.Nulls
import TemplateStyles.Proofs.Render.NamedStyles
import TemplateStyles.Proofs.Render.CombinedPatch
import TemplateStyles.Proofs.Render.Forwarding
import TemplateStyles.Proofs.Render.ProviderTheme
import TemplateStyles.Proofs.StyleModule.Rewriting
import TemplateStyles.Proofs.Template.Literal
import TemplateStyles.Proofs.Text.Row
import TemplateStyles.Proofs.Script.Unambiguous
import TemplateStyles.Proofs.Property.Alias
import TemplateStyles.Proofs.Number.Nearest
import TemplateStyles.Proofs.Block.ValueTyping
import TemplateStyles.Proofs.Render.Numbering
import TemplateStyles.Proofs.Property.CaseConversion
import TemplateStyles.Proofs.CommandLine.Verdict
