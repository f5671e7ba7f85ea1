import NetHop.SourceUpdate.Numbering
import NetHop.Subscription.Frame
import NetHop.RuleSet.Failure
import NetHop.Worker.Drift
import NetHop.Worker.Reload
import NetHop.Capture.Verified
import NetHop.Benchmark.Punctual
import NetHop.Events.Resync
import NetHop.Wire.RoundTrip
import NetHop.Config.Alignment
import NetHop.Config.Digest
import NetHop.Config.Redacted
import NetHop.Subscription.Decision
import NetHop.Node.Settings
import NetHop.Build.Attribution
import NetHop.SourceUpdate.Body
import NetHop.SourceUpdate.Capacity
import NetHop.Capture.Admission
import NetHop.Supervisor.Pacing
import NetHop.Capture.Resume
import NetHop.Benchmark.Choice
import NetHop.Scheduler
import NetHop.Events.Redact
import NetHop.WebUi.EventState
import NetHop.Node.Surfboard
