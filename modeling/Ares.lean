import Ares.Agent.Ended
import Ares.Agent.Spent
import Ares.Storage.Geometry
import Ares.Audit.Faults
import Ares.Audit.Redaction
import Ares.Consent.Decisions
import Ares.Broker.Audit
import Ares.Broker.Gate
import Ares.Operations.Reshaping
import Ares.Operations.Revalidating
import Ares.Operations.Scripts
import Ares.Operations.LifecycleRuns
import Ares.Operations.AuthorityRuns
import Ares.Operations.UncertaintyRuns
import Ares.FilesystemBroker.Target
import Ares.BackupBroker.Binding
import Ares.Backups.Completed
import Ares.Filesystems.Completed
import Ares.Backups.Agreement
import Ares.Backups.Walking
import Ares.Backups.Mounts
import Ares.Backups.Physical
import Ares.Workflows.Cancelled
import Ares.Terminals.Closing
import Ares.Terminals.Targets
import Ares.FilesystemBroker.Remounting
import Ares.TerminalBroker.Cleaning
import Ares.Backups.Publishing
import Ares.StorageEvidence.MountTree
import Ares.Knowledge.Runs
import Ares.StorageEvidence.Ownership
import Ares.Planner.Disabled
import Ares.Mountinfo
import Ares.Diagnostics.Measurement
import Ares.Diagnostics.FalseAlarms
import Ares.Diagnostics.ServiceVerdicts
import Ares.Broker.Approval
import Ares.Stores.Surviving
import Ares.Sockets.Replies
