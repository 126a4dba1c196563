import CoreTiming.Catalogue
import CoreTiming.Diagnostic.Detail
import CoreTiming.Disassembler.Extraction
import CoreTiming.Log.Console
import CoreTiming.Machine.Architecture
import CoreTiming.Pricing.Cost
import CoreTiming.Trace.Reader
import CoreTiming.Proofs.Alignment.Visible
import CoreTiming.Proofs.Alignment.Run
import CoreTiming.Proofs.Alignment.Segment
import CoreTiming.Proofs.Alignment.Matching
import CoreTiming.Proofs.Alignment.Sanity
import CoreTiming.Proofs.OrderedMap
import CoreTiming.Proofs.Program.WriteBack
import CoreTiming.Proofs.Program.Effect
import CoreTiming.Proofs.Alignment.Recovery
import CoreTiming.Proofs.Listing.Written
import CoreTiming.Proofs.Alignment.Layout
import CoreTiming.Proofs.Alignment.Relocation
import CoreTiming.Proofs.Alignment.Separation
import CoreTiming.Proofs.Listing.Language
import CoreTiming.Proofs.Trace.Numbering
import CoreTiming.Proofs.Trace.History
import CoreTiming.Proofs.Trace.Stream
import CoreTiming.Proofs.Trace.Count
import CoreTiming.Proofs.Trace.Overlap
import CoreTiming.Proofs.Pricing.Path
import CoreTiming.Proofs.Disassembler.LifeCycle
import CoreTiming.Proofs.Alignment.Congruence
import CoreTiming.Proofs.Program.Interchange
import CoreTiming.Proofs.Alignment.Members
import CoreTiming.Proofs.Numeral.Language
import CoreTiming.Proofs.Text.Encoding
import CoreTiming.Proofs.Numeral.Spelling
import CoreTiming.Proofs.Text.Trim
import CoreTiming.Proofs.Trace.Fields
import CoreTiming.Proofs.Text.Endings
import CoreTiming.Proofs.Numeral.Strict
import CoreTiming.Proofs.Trace.Written
import CoreTiming.Proofs.Trace.Strictness
import CoreTiming.Proofs.Text.Ascii
import CoreTiming.Proofs.Alignment.Silence
import CoreTiming.Proofs.Alignment.Account
import CoreTiming.Proofs.Alignment.Repetition
import CoreTiming.Proofs.CommandLine.Written
import CoreTiming.Proofs.Disassembler.Command
import CoreTiming.Proofs.Pricing.Table
import CoreTiming.Proofs.Program.Growth
import CoreTiming.Proofs.Log.Verbosity
import CoreTiming.Proofs.Trace.Separators
