import Switchboard.Calendar
import Switchboard.Catalog.Basic
import Switchboard.Catalog.Template
import Switchboard.Check
import Switchboard.Control.Reply
import Switchboard.Control.Request
import Switchboard.Control.Route
import Switchboard.Control.Server
import Switchboard.Fault
import Switchboard.Json.Reader
import Switchboard.Json.Writer
import Switchboard.Log
import Switchboard.Message.Amount
import Switchboard.Message.Basic
import Switchboard.Message.Bilibili
import Switchboard.Message.Color
import Switchboard.Message.Drawn
import Switchboard.Message.Markup
import Switchboard.Message.Niconico
import Switchboard.Message.Twitch
import Switchboard.Message.Variant
import Switchboard.Message.Youtube
import Switchboard.Number.Double
import Switchboard.Number.Literal
import Switchboard.Number.Shortest
import Switchboard.Osc.Argument
import Switchboard.Osc.Datagram
import Switchboard.Osc.Sender
import Switchboard.Path
import Switchboard.Pattern.Dialect
import Switchboard.Pattern.Item
import Switchboard.Pattern.Reader
import Switchboard.Pattern.Search
import Switchboard.Platform
import Switchboard.Projection
import Switchboard.Proofs.AcceptedNumbers
import Switchboard.Proofs.Arrivals
import Switchboard.Proofs.Batches
import Switchboard.Proofs.BrowserNumbers
import Switchboard.Proofs.BrowserTokens
import Switchboard.Proofs.CalendarDays
import Switchboard.Proofs.CheckFaults
import Switchboard.Proofs.DecimalGrids
import Switchboard.Proofs.Dispatch
import Switchboard.Proofs.Documents
import Switchboard.Proofs.DrawnFields
import Switchboard.Proofs.EmojiNames
import Switchboard.Proofs.Entities
import Switchboard.Proofs.EvaluationFaults
import Switchboard.Proofs.ExactProjections
import Switchboard.Proofs.FailedSaves
import Switchboard.Proofs.FewestDigits
import Switchboard.Proofs.FollowedSettings
import Switchboard.Proofs.Forms
import Switchboard.Proofs.FurtherKeys
import Switchboard.Proofs.GiftMessages
import Switchboard.Proofs.GivenLogs
import Switchboard.Proofs.ImageSizes
import Switchboard.Proofs.InstantNumbers
import Switchboard.Proofs.InstantTexts
import Switchboard.Proofs.Intrusions
import Switchboard.Proofs.JsonReading
import Switchboard.Proofs.JsonTexts
import Switchboard.Proofs.Levels
import Switchboard.Proofs.LogContents
import Switchboard.Proofs.LogTotals
import Switchboard.Proofs.LoggedTraffic
import Switchboard.Proofs.LongestLiterals
import Switchboard.Proofs.MessageSources
import Switchboard.Proofs.NearestMagnitudes
import Switchboard.Proofs.NumberConditions
import Switchboard.Proofs.NumberTexts
import Switchboard.Proofs.Numerals
import Switchboard.Proofs.Octets
import Switchboard.Proofs.PathReading
import Switchboard.Proofs.PathWriting
import Switchboard.Proofs.PayloadTexts
import Switchboard.Proofs.Payloads
import Switchboard.Proofs.Projections
import Switchboard.Proofs.ReadingBack
import Switchboard.Proofs.RecentTraffic
import Switchboard.Proofs.RecordingFaults
import Switchboard.Proofs.RefusedRequests
import Switchboard.Proofs.Relabelling
import Switchboard.Proofs.RespelledPatterns
import Switchboard.Proofs.RespelledUpdates
import Switchboard.Proofs.Rounding
import Switchboard.Proofs.RouterInvariants
import Switchboard.Proofs.Routing
import Switchboard.Proofs.RuleChanges
import Switchboard.Proofs.RuleComposition
import Switchboard.Proofs.RuleFaults
import Switchboard.Proofs.RuleForms
import Switchboard.Proofs.RuleIdentity
import Switchboard.Proofs.RuleLoading
import Switchboard.Proofs.RuleRoundTrip
import Switchboard.Proofs.RuleShapes
import Switchboard.Proofs.RuleTexts
import Switchboard.Proofs.SelectedParts
import Switchboard.Proofs.SenderAccounting
import Switchboard.Proofs.SenderTargets
import Switchboard.Proofs.ServedRouters
import Switchboard.Proofs.SettingsChanges
import Switchboard.Proofs.SettingsRange
import Switchboard.Proofs.SharedRecords
import Switchboard.Proofs.ShortestDecimals
import Switchboard.Proofs.Spellings
import Switchboard.Proofs.StoredRules
import Switchboard.Proofs.StrictEquality
import Switchboard.Proofs.Summaries
import Switchboard.Proofs.Texts
import Switchboard.Proofs.TrafficCounters
import Switchboard.Proofs.TypedTexts
import Switchboard.Proofs.UnreadableComments
import Switchboard.Proofs.Ways
import Switchboard.Proofs.WrittenColors
import Switchboard.Proofs.WrittenNumbers
import Switchboard.Record
import Switchboard.Router
import Switchboard.Rule.Action
import Switchboard.Rule.Basic
import Switchboard.Rule.Book
import Switchboard.Rule.Comparison
import Switchboard.Rule.Condition
import Switchboard.Rule.Evaluation
import Switchboard.Rule.File
import Switchboard.Settings
import Switchboard.Shared
import Switchboard.Source
import Switchboard.Storage
import Switchboard.Text.Blank
import Switchboard.Text.CharSet
import Switchboard.Text.Digit
import Switchboard.Text.Fold
import Switchboard.Text.Identifier
import Switchboard.Text.Lower
import Switchboard.Text.Printable
import Switchboard.Text.Quoted
import Switchboard.Text.Word
import Switchboard.Timestamp
import Switchboard.Value.Basic
import Switchboard.Value.Key
import Switchboard.Value.Nesting
import Switchboard.Value.Number
import Switchboard.Value.Text
import Switchboard.Yaml.Cursor
import Switchboard.Yaml.Document
import Switchboard.Yaml.Lexer
import Switchboard.Yaml.Node
import Switchboard.Yaml.Numeral
import Switchboard.Yaml.ReadBack
import Switchboard.Yaml.Scalar
import Switchboard.Yaml.Stamp
import Switchboard.Yaml.Token
import Switchboard.Yaml.Tree
