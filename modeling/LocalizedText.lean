import LocalizedText.Cache.Insertion
import LocalizedText.Cache.Recency
import LocalizedText.Cache.Result
import LocalizedText.Dictionary.Basic
import LocalizedText.Dictionary.Coverage
import LocalizedText.Dictionary.Loading
import LocalizedText.Dictionary.Resolution
import LocalizedText.Dictionary.Validation
import LocalizedText.Event
import LocalizedText.Json.Basic
import LocalizedText.Json.Numeral
import LocalizedText.Json.Record
import LocalizedText.Json.Source
import LocalizedText.Keyed
import LocalizedText.Locale
import LocalizedText.Localizer.Answer
import LocalizedText.Localizer.Basic
import LocalizedText.Localizer.Lookup
import LocalizedText.Message.Basic
import LocalizedText.Message.Clause
import LocalizedText.Message.Faults
import LocalizedText.Message.Formatter
import LocalizedText.Message.Reader
import LocalizedText.Number.Currency
import LocalizedText.Number.Double
import LocalizedText.Number.Exponent
import LocalizedText.Number.FormatError
import LocalizedText.Number.Formatter
import LocalizedText.Number.LocaleData
import LocalizedText.Number.Logarithm
import LocalizedText.Number.Manual
import LocalizedText.Number.Numeral
import LocalizedText.Number.Options
import LocalizedText.Number.OptionsRecord
import LocalizedText.Number.Ordinal
import LocalizedText.Number.Plan
import LocalizedText.Number.Power
import LocalizedText.Number.Reading
import LocalizedText.Number.Rounding
import LocalizedText.Number.Shortest
import LocalizedText.Number.Single
import LocalizedText.Number.Text
import LocalizedText.Number.Unit
import LocalizedText.Parameter.Basic
import LocalizedText.Parameter.Timestamp
import LocalizedText.Plural.Category
import LocalizedText.Plural.Forms
import LocalizedText.Plural.Rule
import LocalizedText.Proofs.Cache.InsertionQueue
import LocalizedText.Proofs.Cache.RecencyAccess
import LocalizedText.Proofs.Cache.RecencyInvariant
import LocalizedText.Proofs.Cache.RecencyLinks
import LocalizedText.Proofs.Cache.RecencyList
import LocalizedText.Proofs.Cache.Remembering
import LocalizedText.Proofs.Cache.Retention
import LocalizedText.Proofs.Dictionary.Completeness
import LocalizedText.Proofs.Dictionary.Coverage
import LocalizedText.Proofs.Dictionary.Descent
import LocalizedText.Proofs.Dictionary.Gaps
import LocalizedText.Proofs.Dictionary.LeafKeys
import LocalizedText.Proofs.Dictionary.LeafOrder
import LocalizedText.Proofs.Dictionary.Loading
import LocalizedText.Proofs.Dictionary.Merging
import LocalizedText.Proofs.Dictionary.Overlay
import LocalizedText.Proofs.Dictionary.Refusal
import LocalizedText.Proofs.Dictionary.Reloading
import LocalizedText.Proofs.Dictionary.Resolution
import LocalizedText.Proofs.Dictionary.WellNamed
import LocalizedText.Proofs.Json.Ordered
import LocalizedText.Proofs.Json.Text
import LocalizedText.Proofs.Keyed
import LocalizedText.Proofs.Localizer.CleanLoading
import LocalizedText.Proofs.Localizer.Coverage
import LocalizedText.Proofs.Localizer.Fallback
import LocalizedText.Proofs.Localizer.Interleaving
import LocalizedText.Proofs.Localizer.Reporting
import LocalizedText.Proofs.Localizer.Transparency
import LocalizedText.Proofs.Message.Branches
import LocalizedText.Proofs.Message.Clause
import LocalizedText.Proofs.Message.ClauseEnd
import LocalizedText.Proofs.Message.Composition
import LocalizedText.Proofs.Message.CountBranch
import LocalizedText.Proofs.Message.Extent
import LocalizedText.Proofs.Message.Faithful
import LocalizedText.Proofs.Message.Grammar
import LocalizedText.Proofs.Message.NumberSign
import LocalizedText.Proofs.Message.Placeholders
import LocalizedText.Proofs.Message.Reading
import LocalizedText.Proofs.Message.Recovery
import LocalizedText.Proofs.Message.Rendering
import LocalizedText.Proofs.Message.ScanAgreement
import LocalizedText.Proofs.Message.Scanning
import LocalizedText.Proofs.Message.Shape
import LocalizedText.Proofs.Message.Slices
import LocalizedText.Proofs.Message.Transparency
import LocalizedText.Proofs.Number.Acceptance
import LocalizedText.Proofs.Number.CanonicalText
import LocalizedText.Proofs.Number.CompactTier
import LocalizedText.Proofs.Number.DecimalExponent
import LocalizedText.Proofs.Number.DecimalText
import LocalizedText.Proofs.Number.Digits
import LocalizedText.Proofs.Number.Faithful
import LocalizedText.Proofs.Number.FixedPoint
import LocalizedText.Proofs.Number.Grouping
import LocalizedText.Proofs.Number.IntegerPart
import LocalizedText.Proofs.Number.IntegerText
import LocalizedText.Proofs.Number.Mantissa
import LocalizedText.Proofs.Number.NumberText
import LocalizedText.Proofs.Number.OrdinalSuffix
import LocalizedText.Proofs.Number.PlainDecimal
import LocalizedText.Proofs.Number.Plan
import LocalizedText.Proofs.Number.PlanHistory
import LocalizedText.Proofs.Number.PowerOfTen
import LocalizedText.Proofs.Number.RoundingError
import LocalizedText.Proofs.Number.ShortestDecimal
import LocalizedText.Proofs.Number.ShownDigits
import LocalizedText.Proofs.Number.Sign
import LocalizedText.Proofs.Number.SignificantDigits
import LocalizedText.Proofs.Number.SignificantRounding
import LocalizedText.Proofs.Number.StandardForm
import LocalizedText.Proofs.Number.Totality
import LocalizedText.Proofs.Number.UnitNoun
import LocalizedText.Proofs.Number.WholeText
import LocalizedText.Proofs.Parameter.Fingerprint
import LocalizedText.Proofs.Parameter.Observation
import LocalizedText.Proofs.Plural.Table
import LocalizedText.Proofs.Template
import LocalizedText.Proofs.Text.Bytes
import LocalizedText.Proofs.Text.Span
import LocalizedText.Settings
import LocalizedText.Template
import LocalizedText.Text.Blank
import LocalizedText.Text.Quoted
import LocalizedText.Text.Unprintable
