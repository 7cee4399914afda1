import ActingCommand.RuntimeFacts.Forensics
import ActingCommand.CanonicalRead
import ActingCommand.Entry.Switch
import ActingCommand.Scheduler.Replay
import ActingCommand.RuntimeFacts.PackRegistry
import ActingCommand.Display.RoundTrip
import ActingCommand.Display.Regions
import ActingCommand.Scan.Anchors
import ActingCommand.Scan.Batches
import ActingCommand.Scan.Coverage
import ActingCommand.Scan.Return
import ActingCommand.Selection.CollectEnough
import ActingCommand.Policy.Slots
import ActingCommand.Policy.Activity
import ActingCommand.Policy.BlackoutRuns
import ActingCommand.Policy.Deadline
import ActingCommand.Policy.Benefit
import ActingCommand.Policy.Handover
import ActingCommand.Policy.NoProgress
import ActingCommand.Retention.LocalTime
import ActingCommand.Performance.Tracker
import ActingCommand.ContainedTask.Loading
import ActingCommand.Retention.ProofLevels
import ActingCommand.ArtifactStore.Watermark
import ActingCommand.Device.FrameMemory
import ActingCommand.Device.LinkWatch
