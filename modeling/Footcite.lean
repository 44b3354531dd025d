import Footcite.Main
import Footcite.Proofs.Table
import Footcite.Proofs.Occurrence
import Footcite.Proofs.Walk
import Footcite.Proofs.Ledger.Choice
import Footcite.Proofs.Ledger.History
import Footcite.Proofs.Document.Notes
import Footcite.Proofs.Resolution.Citation
import Footcite.Proofs.Resolution.Idem
import Footcite.Proofs.Resolution.FullThenShort
import Footcite.Proofs.Resolution.CaseWindow
import Footcite.Proofs.Citation.Steady
import Footcite.Proofs.Ledger.Authors
import Footcite.Proofs.Resolution.Hereinafter
import Footcite.Proofs.Pincite.Clause
import Footcite.Proofs.Note.Printed
import Footcite.Proofs.Note.Parts
import Footcite.Proofs.Resolution.Pieces
import Footcite.Proofs.Resolution.Brackets
import Footcite.Proofs.Document.Layout
import Footcite.Proofs.Document.Output
import Footcite.Proofs.Note.Anchors
import Footcite.Proofs.Resolution.Crossrefs
import Footcite.Proofs.Citation.Failures
import Footcite.Proofs.Numbering.Alike
import Footcite.Proofs.Numbering.Citation
import Footcite.Proofs.Numbering.Ledger
import Footcite.Proofs.Numbering.Document
import Footcite.Proofs.Numbering.Process
import Footcite.Proofs.Journal.Notices
import Footcite.Proofs.Resolution.Steady
import Footcite.Proofs.Journal.Shared
import Footcite.Proofs.Journal.Named
import Footcite.Proofs.Journal.Passes
import Footcite.Proofs.Ledger.Growth
import Footcite.Proofs.Resolution.Appended
import Footcite.Proofs.Citation.Required
import Footcite.Proofs.Citation.Citable
import Footcite.Proofs.Resolution.Settling
import Footcite.Proofs.Resolution.FirstMention
import Footcite.Proofs.Csl.Items
import Footcite.Proofs.Csl.Checked
import Footcite.Proofs.Csl.Writable
import Footcite.Proofs.Pincite.Place
import Footcite.Proofs.Note.Breaks
import Footcite.Proofs.Resolution.Faults
import Footcite.Proofs.Resolution.FirstWalk
import Footcite.Proofs.Resolution.Pincites
import Footcite.Proofs.Resolution.SecondWalk
import Footcite.Proofs.Document.FirstFault
import Footcite.Proofs.Document.Spans
import Footcite.Proofs.Resolution.InPlace
import Footcite.Proofs.Document.Again
import Footcite.Proofs.Document.Reasons
import Footcite.Proofs.Json.Written
import Footcite.Proofs.Report.Numbers
import Footcite.Proofs.Cli.Logged
import Footcite.Proofs.Cli.Escapes
import Footcite.Proofs.Cli.Reported
import Footcite.Proofs.Text.Letters
import Footcite.Proofs.Text.Phrases
import Footcite.Proofs.Text.LongestMatch
import Footcite.Proofs.Pincite.Phrases
import Footcite.Proofs.Pincite.Longest
import Footcite.Proofs.Pincite.Listed
import Footcite.Proofs.Note.Locations
import Footcite.Proofs.Note.Orderly
import Footcite.Proofs.Document.Joined
import Footcite.Proofs.Text.Words
import Footcite.Proofs.Text.Folding
import Footcite.Proofs.Journal.Listed
import Footcite.Proofs.Text.Replaced
import Footcite.Proofs.Journal.WholeWords
import Footcite.Proofs.Citation.Italics
import Footcite.Proofs.Citation.Asterisks
import Footcite.Proofs.Citation.SmallCaps
import Footcite.Proofs.Citation.Texts
import Footcite.Proofs.Citation.Signals
import Footcite.Proofs.Journal.Shapes
import Footcite.Proofs.Csl.Accounted
import Footcite.Proofs.Report.Agrees
import Footcite.Proofs.Citation.Restyled
import Footcite.Proofs.Resolution.Midway
import Footcite.Proofs.Files.Places
import Footcite.Proofs.Files.Tree
import Footcite.Proofs.Cli.Untouched
