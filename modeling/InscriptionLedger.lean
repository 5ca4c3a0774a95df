import InscriptionLedger.Address.Base58
import InscriptionLedger.Address.Bech32
import InscriptionLedger.Address.Network
import InscriptionLedger.Address.Regroup
import InscriptionLedger.Address.Template
import InscriptionLedger.Amount
import InscriptionLedger.CommandLine.Arguments
import InscriptionLedger.CommandLine.Invocation
import InscriptionLedger.CommandLine.Run
import InscriptionLedger.Decimal.Binary64
import InscriptionLedger.Decimal.Literal
import InscriptionLedger.Decimal.Precision
import InscriptionLedger.Decimal.Rounding
import InscriptionLedger.Decimal.Shortest
import InscriptionLedger.Decimal.Written
import InscriptionLedger.Digest.Sha256
import InscriptionLedger.Extraction
import InscriptionLedger.Failure
import InscriptionLedger.Identifier.Basic
import InscriptionLedger.Identifier.Reader
import InscriptionLedger.Index.Basic
import InscriptionLedger.Index.Cell
import InscriptionLedger.Index.Journal
import InscriptionLedger.Index.Numbering
import InscriptionLedger.Index.Tables
import InscriptionLedger.Index.Write
import InscriptionLedger.Inscription
import InscriptionLedger.Json.Basic
import InscriptionLedger.Json.Canonical
import InscriptionLedger.Json.Order
import InscriptionLedger.Json.Reader
import InscriptionLedger.Json.Typed
import InscriptionLedger.Json.Writer
import InscriptionLedger.Keyed
import InscriptionLedger.Main
import InscriptionLedger.Mempool
import InscriptionLedger.Node.Basic
import InscriptionLedger.Node.Body
import InscriptionLedger.Ownership
import InscriptionLedger.Sat.Basic
import InscriptionLedger.Sat.Name
import InscriptionLedger.Sat.Rarity
import InscriptionLedger.Script.Envelope
import InscriptionLedger.Script.Token
import InscriptionLedger.Script.Witness
import InscriptionLedger.Settings.Endpoint
import InscriptionLedger.Settings.HostAddress
import InscriptionLedger.Settings.NodeSettings
import InscriptionLedger.Settings.PathName
import InscriptionLedger.Settings.Sources
import InscriptionLedger.Settings.ViewSettings
import InscriptionLedger.Sorting
import InscriptionLedger.Text.Blank
import InscriptionLedger.Text.Digit
import InscriptionLedger.Text.Hex
import InscriptionLedger.Text.Lower
import InscriptionLedger.Text.Numeral
import InscriptionLedger.Text.Printable
import InscriptionLedger.Text.Ranges
import InscriptionLedger.Text.Split
import InscriptionLedger.Text.Utf8
import InscriptionLedger.Text.WordCase
import InscriptionLedger.Transaction.Basic
import InscriptionLedger.Transaction.FromNode
import InscriptionLedger.Transaction.Stored
import InscriptionLedger.View.Basic
import InscriptionLedger.View.Listing
import InscriptionLedger.Proofs.NumeralText
import InscriptionLedger.Proofs.Outcome
import InscriptionLedger.Proofs.StoredForm
import InscriptionLedger.Proofs.Rows
import InscriptionLedger.Proofs.Runs
import InscriptionLedger.Proofs.Reads
import InscriptionLedger.Proofs.StoredBlocks
import InscriptionLedger.Proofs.BlockEffect
import InscriptionLedger.Proofs.BlockListing
import InscriptionLedger.Proofs.TokenForms
import InscriptionLedger.Proofs.EnvelopeScan
import InscriptionLedger.Proofs.WitnessTexts
import InscriptionLedger.Proofs.WrittenEnvelopes
import InscriptionLedger.Proofs.InscriptionViews
import InscriptionLedger.Proofs.BlockViews
import InscriptionLedger.Proofs.NumberedEnvelopes
import InscriptionLedger.Proofs.InscriptionEffect
import InscriptionLedger.Proofs.KeyedLists
import InscriptionLedger.Proofs.Snapshots
import InscriptionLedger.Proofs.NodeAnswers
import InscriptionLedger.Proofs.Publications
import InscriptionLedger.Proofs.NodeFallback
import InscriptionLedger.Proofs.PendingViews
import InscriptionLedger.Proofs.ViewFailures
import InscriptionLedger.Proofs.Neighbours
import InscriptionLedger.Proofs.SatPlaces
import InscriptionLedger.Proofs.BitStream
import InscriptionLedger.Proofs.Base58Reading
import InscriptionLedger.Proofs.Addresses
import InscriptionLedger.Proofs.RarityGrades
import InscriptionLedger.Proofs.Remainders
import InscriptionLedger.Proofs.FailedWrites
import InscriptionLedger.Proofs.BlockReferences
import InscriptionLedger.Proofs.LowerCase
import InscriptionLedger.Proofs.EndpointUrls
import InscriptionLedger.Proofs.NumberRanges
import InscriptionLedger.Proofs.BlockPages
import InscriptionLedger.Proofs.Binary64Range
import InscriptionLedger.Proofs.SettingsPrecedence
import InscriptionLedger.Proofs.SettingsFailures
import InscriptionLedger.Proofs.LatestPages
import InscriptionLedger.Proofs.IdentifierTexts
import InscriptionLedger.Proofs.InscriptionNames
import InscriptionLedger.Proofs.JsonText
import InscriptionLedger.Proofs.StoredText
import InscriptionLedger.Proofs.NearestIntegers
import InscriptionLedger.Proofs.DecimalTexts
import InscriptionLedger.Proofs.Amounts
import InscriptionLedger.Proofs.SortedLists
import InscriptionLedger.Proofs.NodeForm
import InscriptionLedger.Proofs.CheckedTexts
import InscriptionLedger.Proofs.SatNames
import InscriptionLedger.Proofs.CallResults
import InscriptionLedger.Proofs.BlockNames
import InscriptionLedger.Proofs.TransactionGroups
import InscriptionLedger.Proofs.Regrouping
import InscriptionLedger.Proofs.PlainTexts
