import DoubleEntry.Document.Json
import DoubleEntry.Document.Selection
import DoubleEntry.Entry.Cancelling
import DoubleEntry.Entry.Codec
import DoubleEntry.Pricing
import DoubleEntry.Proofs.Decimal.Closeness
import DoubleEntry.Proofs.Entry.BuiltEntries
import DoubleEntry.Proofs.Entry.CancelledPairs
import DoubleEntry.Proofs.Entry.CancelledScans
import DoubleEntry.Proofs.Entry.Contests
import DoubleEntry.Proofs.Entry.CrossCurrency
import DoubleEntry.Proofs.Entry.EndingChecks
import DoubleEntry.Proofs.Entry.MirroredTwins
import DoubleEntry.Proofs.Entry.Provenance
import DoubleEntry.Proofs.Entry.RoundTrip
import DoubleEntry.Proofs.Entry.SavedOnce
import DoubleEntry.Proofs.Entry.Tallies
import DoubleEntry.Proofs.Pricing.ConversionRange
import DoubleEntry.Proofs.Pricing.HeldQuotes
import DoubleEntry.Proofs.Pricing.OppositeAmounts
import DoubleEntry.Proofs.Query.Pushdown
import DoubleEntry.Proofs.Report.AccountScans
import DoubleEntry.Proofs.Report.Confinement
import DoubleEntry.Proofs.Report.Conservation
import DoubleEntry.Proofs.Report.ContraFlags
import DoubleEntry.Proofs.Report.GroupedSums
import DoubleEntry.Proofs.Report.IncomeHeadings
import DoubleEntry.Proofs.Report.LimitWindows
import DoubleEntry.Proofs.Report.NetIncome
import DoubleEntry.Proofs.Report.PrintedFigures
import DoubleEntry.Proofs.Report.ReversedPairs
import DoubleEntry.Proofs.Report.SheetIdentity
import DoubleEntry.Proofs.Report.SpotRateSource
import DoubleEntry.Proofs.Report.Statements
import DoubleEntry.Proofs.Settings.Ages
import DoubleEntry.Proofs.Text.WrittenAmounts
import DoubleEntry.Report.Generation
import DoubleEntry.Report.Limits
import DoubleEntry.Report.Printout
import DoubleEntry.Settings
import DoubleEntry.UserText
