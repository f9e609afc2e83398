import SoftwareUpdate.MaintenanceManager.Properties.OneCycle
import SoftwareUpdate.MaintenanceManager.Properties.CircularWait
import SoftwareUpdate.MaintenanceManager.Properties.Progress
import SoftwareUpdate.MaintenanceManager.Properties.TaskOrder
import SoftwareUpdate.MaintenanceManager.Properties.LostWakeUp
import SoftwareUpdate.MaintenanceManager.Properties.FinishedCycle
import SoftwareUpdate.MaintenanceManager.Properties.Verdict
import SoftwareUpdate.MaintenanceManager.Properties.FirstOutcome
import SoftwareUpdate.MaintenanceManager.Properties.PostedStatus
import SoftwareUpdate.MaintenanceManager.Properties.TimerSignals
import SoftwareUpdate.MaintenanceManager.Properties.Inquiries
import SoftwareUpdate.MaintenanceManager.Properties.Subscriptions
import SoftwareUpdate.MaintenanceManager.Properties.Isolation
import SoftwareUpdate.MaintenanceManager.Properties.StopSignal
import SoftwareUpdate.MaintenanceManager.Properties.AbortedProcess
import SoftwareUpdate.MaintenanceManager.Properties.Teardown
import SoftwareUpdate.MaintenanceManager.Properties.StaysStopped
import SoftwareUpdate.MaintenanceManager.Properties.ContextUpdate
import SoftwareUpdate.MaintenanceManager.Properties.ContextWritten
import SoftwareUpdate.MaintenanceManager.Properties.FailedStart
import SoftwareUpdate.MaintenanceManager.Properties.LaunchLoop
import SoftwareUpdate.MaintenanceManager.Properties.Reconnect
import SoftwareUpdate.MaintenanceManager.Properties.AllOrNothing
import SoftwareUpdate.MaintenanceManager.Properties.BackgroundFlag
import SoftwareUpdate.MaintenanceManager.Properties.Readers
import SoftwareUpdate.MaintenanceManager.Properties.ActivityStatus
import SoftwareUpdate.MaintenanceManager.Properties.CompletionTime
import SoftwareUpdate.MaintenanceManager.Properties.Preferences
import SoftwareUpdate.MaintenanceManager.Properties.ZoneFiles
import SoftwareUpdate.MaintenanceManager.Properties.ShellCommands
import SoftwareUpdate.MaintenanceManager.Properties.UtcStart
import SoftwareUpdate.MaintenanceManager.Properties.LocalStart
import SoftwareUpdate.MaintenanceManager.Properties.Narrowing
import SoftwareUpdate.Helpers.RoundTrip
import SoftwareUpdate.Helpers.KeptLines
import SoftwareUpdate.Helpers.Assignments
import SoftwareUpdate.Helpers.MoveFile
import SoftwareUpdate.Helpers.Expansion
import SoftwareUpdate.Helpers.FoundPaths
import SoftwareUpdate.Helpers.ImageEncoder
import SoftwareUpdate.Packager.Properties.Terminal
import SoftwareUpdate.Packager.Properties.LostRequest
import SoftwareUpdate.Packager.Properties.Notification
import SoftwareUpdate.Packager.Properties.InstallSession
import SoftwareUpdate.Packager.Properties.RequestSlot
import SoftwareUpdate.WebSockets.ResponseMatching
import SoftwareUpdate.WebSockets.LastResponse
