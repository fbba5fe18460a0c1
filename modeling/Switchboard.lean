import Switchboard.Main
import Switchboard.Proofs.Dispatcher.Run
import Switchboard.Proofs.Generated.Lookup
import Switchboard.Proofs.Generation.AllOrNothing
import Switchboard.Proofs.Mapping.Grammar
import Switchboard.Proofs.Mapping.Phases
import Switchboard.Proofs.Command.Resolve
import Switchboard.Proofs.Disk.Places
import Switchboard.Proofs.Disk.Changes
import Switchboard.Proofs.Disk.Runs
import Switchboard.Proofs.Output.Units
import Switchboard.Proofs.Output.Atomic
import Switchboard.Proofs.Generation.Provenance
import Switchboard.Proofs.Output.Removal
import Switchboard.Proofs.Generation.Session
import Switchboard.Proofs.Disk.Results
import Switchboard.Proofs.Generation.ClassNames
import Switchboard.Proofs.Generation.Directory
import Switchboard.Proofs.Generated.Declarations
import Switchboard.Proofs.Generated.Members
import Switchboard.Proofs.Disk.Room
import Switchboard.Proofs.Mapping.Printing
import Switchboard.Proofs.Mapping.Spelling
import Switchboard.Proofs.Path.Ascent
import Switchboard.Proofs.Disk.Ways
import Switchboard.Proofs.Output.Directories
import Switchboard.Proofs.Output.Rewriting
import Switchboard.Proofs.Output.Sparing
import Switchboard.Proofs.Generation.Repeat
import Switchboard.Proofs.Generation.RepeatDirectory
import Switchboard.Proofs.Plan.Layout
import Switchboard.Proofs.Command.Agreement
import Switchboard.Proofs.Generated.DumpOrder
import Switchboard.Proofs.Command.RoundTrip
import Switchboard.Proofs.Command.IdleFlags
import Switchboard.Proofs.Mapping.Collisions
import Switchboard.Proofs.Output.Recognition
import Switchboard.Proofs.Generated.References
import Switchboard.Proofs.Generated.Recovery
import Switchboard.Proofs.Mapping.LineEnds
import Switchboard.Proofs.Code.Rendering
import Switchboard.Proofs.Generated.Indentation
import Switchboard.Proofs.Disk.Links
import Switchboard.Proofs.Output.Cleaning
import Switchboard.Proofs.Disk.Orders
import Switchboard.Proofs.Generation.ListingOrder
import Switchboard.Proofs.Identifier.Grammar
import Switchboard.Proofs.Mapping.Positions
import Switchboard.Proofs.Dispatcher.Dumps
