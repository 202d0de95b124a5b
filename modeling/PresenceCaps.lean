import PresenceCaps.Bench.Listening
import PresenceCaps.Bench.Scheduling
import PresenceCaps.Bench.Serving
import PresenceCaps.Log.Filter
import PresenceCaps.Proofs.Datum.Merging
import PresenceCaps.Proofs.Disco.Arrangement
import PresenceCaps.Proofs.Disco.Rearranging
import PresenceCaps.Proofs.Disco.Software
import PresenceCaps.Proofs.Discovery.Outcomes
import PresenceCaps.Proofs.Handles.Numbering
import PresenceCaps.Proofs.Notifier.Callbacks
import PresenceCaps.Proofs.Notifier.Stream
import PresenceCaps.Proofs.Roster.Changes
import PresenceCaps.Proofs.Roster.Choice
import PresenceCaps.Proofs.Roster.Reordering
import PresenceCaps.Proofs.Roster.Replay
import PresenceCaps.Proofs.Roster.Stale
import PresenceCaps.Proofs.Service.Attended
import PresenceCaps.Proofs.Service.Failure
import PresenceCaps.Proofs.Service.Listeners
import PresenceCaps.Proofs.Service.Origins
import PresenceCaps.Proofs.Service.Provenance
import PresenceCaps.Proofs.Service.Publishing
import PresenceCaps.Proofs.Service.Scheduling
import PresenceCaps.Proofs.Service.Shutdown
import PresenceCaps.Proofs.Service.Superseded
import PresenceCaps.Proofs.Settings.Precedence
import PresenceCaps.Proofs.Settings.Undisturbed
import PresenceCaps.Proofs.Trust.Digests
import PresenceCaps.Proofs.Wire.RoundTrip
import PresenceCaps.Roster.Trace
import PresenceCaps.Samples
import PresenceCaps.Settings.Load
import PresenceCaps.Wire.Event
import PresenceCaps.Wire.Presence
