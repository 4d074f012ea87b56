import CommentSearch.Number.Literal
import CommentSearch.Calendar
import CommentSearch.DateText.Reader
import CommentSearch.Parameter
import CommentSearch.Compile
import CommentSearch.Text.Fold
import CommentSearch.Document
import CommentSearch.Schema
import CommentSearch.Settings.Layers
import CommentSearch.Channel
import CommentSearch.Yaml.Content
import CommentSearch.Json.Reader
import CommentSearch.Json.Writer
import CommentSearch.Mapping.Version
import CommentSearch.Mapping.Body
import CommentSearch.Mapping.File
import CommentSearch.Shipped
import CommentSearch.Backend
import CommentSearch.Url
import CommentSearch.Client
import CommentSearch.Session
import CommentSearch.Provision
import CommentSearch.Tool.Parameters
import CommentSearch.Tool.Run
import CommentSearch.Proofs.Fields
import CommentSearch.Proofs.MetaGrammar
import CommentSearch.Proofs.Schema
import CommentSearch.Proofs.AcceptedRequest
import CommentSearch.Proofs.Decomposition
import CommentSearch.Proofs.Filters
import CommentSearch.Proofs.SearchFields
import CommentSearch.Proofs.RequestParts
import CommentSearch.Proofs.MetaMeaning
import CommentSearch.Proofs.MetaTree
import CommentSearch.Proofs.DocumentGrammar
import CommentSearch.Proofs.WellFormed
import CommentSearch.Proofs.Calendar
import CommentSearch.Proofs.Digits
import CommentSearch.Proofs.ExactNumbers
import CommentSearch.Proofs.StoredDates
import CommentSearch.Proofs.DateSpans
import CommentSearch.Proofs.PeriodBounds
import CommentSearch.Proofs.Readable
import CommentSearch.Proofs.Compilable
import CommentSearch.Proofs.Stripping
import CommentSearch.Proofs.Validation
import CommentSearch.Proofs.IndexedMeta
import CommentSearch.Proofs.IndexFields
import CommentSearch.Proofs.NamedFields
import CommentSearch.Proofs.SettingLayers
import CommentSearch.Proofs.IndexingPolicy
import CommentSearch.Proofs.WidenedStatus
import CommentSearch.Proofs.Provisioning
import CommentSearch.Proofs.Consultation
import CommentSearch.Proofs.PeriodLimits
import CommentSearch.Proofs.ReportedIssues
import CommentSearch.Proofs.SettingSnapshots
import CommentSearch.Proofs.PlainDates
import CommentSearch.Proofs.Instants
import CommentSearch.Proofs.Rounding
import CommentSearch.Proofs.MetaNumbers
import CommentSearch.Proofs.DateReadings
import CommentSearch.Proofs.DateRanges
import CommentSearch.Proofs.PeriodEdges
import CommentSearch.Proofs.RoundedIntegers
import CommentSearch.Proofs.ResultWindows
import CommentSearch.Proofs.Pages
import CommentSearch.Proofs.Complements
import CommentSearch.Proofs.ListForms
import CommentSearch.Proofs.SpelledIntegers
import CommentSearch.Proofs.RespelledRequests
import CommentSearch.Proofs.Identifiers
import CommentSearch.Proofs.EmptyIdentifiers
import CommentSearch.Proofs.Versions
import CommentSearch.Proofs.SearchTiers
import CommentSearch.Proofs.MetaSorts
import CommentSearch.Proofs.KeywordCase
import CommentSearch.Proofs.KeptKeywords
import CommentSearch.Proofs.RecasedRequests
import CommentSearch.Proofs.PrintedNumbers
import CommentSearch.Proofs.TypedValues
import CommentSearch.Proofs.Numerals
import CommentSearch.Proofs.SecondNames
import CommentSearch.Proofs.ClientPeriods
