import Dialogue.Playback.Rehearsal
import Dialogue.Main
import Dialogue.Proofs.Playback.Tickets
import Dialogue.Proofs.Playback.Fresh
import Dialogue.Proofs.Playback.Refresh
import Dialogue.Proofs.Playback.Runs
import Dialogue.Proofs.Playback.Timing
import Dialogue.Proofs.Sheet.Writing
import Dialogue.Proofs.Sheet.WellFormed
import Dialogue.Proofs.Playback.Passing
import Dialogue.Proofs.Script.Lookup
import Dialogue.Proofs.Playback.Supplied
import Dialogue.Proofs.Sheet.Columns
import Dialogue.Proofs.Sheet.RoundTrip
import Dialogue.Proofs.Json.Tokens
import Dialogue.Proofs.Text.Utf8
import Dialogue.Proofs.Json.RoundTrip
import Dialogue.Proofs.Script.Stored
import Dialogue.Proofs.Script.Grouping
import Dialogue.Proofs.Sheet.Naming
import Dialogue.Proofs.Sheet.Entries
import Dialogue.Proofs.Sheet.Rearranged
import Dialogue.Proofs.Files.ReadWrite
import Dialogue.Proofs.Source.Caching
import Dialogue.Proofs.Playback.HandOver
import Dialogue.Proofs.Playback.Pumping
import Dialogue.Proofs.Terminal.Playing
import Dialogue.Proofs.Sheet.Packing
import Dialogue.Proofs.Sheet.PackedGrammar
import Dialogue.Proofs.Sheet.Numbering
import Dialogue.Proofs.Sheet.Lines
import Dialogue.Proofs.Sheet.Spacing
import Dialogue.Proofs.Sheet.Locality
import Dialogue.Proofs.Playback.Rejected
import Dialogue.Proofs.Script.Listing
import Dialogue.Proofs.Script.Staging
import Dialogue.Proofs.Text.Pieces
import Dialogue.Proofs.Script.Address
import Dialogue.Proofs.Files.Walk
import Dialogue.Proofs.Source.Sheets
import Dialogue.Proofs.Json.Layout
import Dialogue.Proofs.Json.Fields
import Dialogue.Proofs.Script.Given
import Dialogue.Proofs.Settings.Sections
import Dialogue.Proofs.Settings.Runs
