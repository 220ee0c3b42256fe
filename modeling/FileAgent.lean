import FileAgent.ActiveRecords
import FileAgent.Announcements
import FileAgent.BackgroundTasks
import FileAgent.Broadcast
import FileAgent.BrowserStatistics
import FileAgent.CompletionHistory
import FileAgent.ConflictFreePath
import FileAgent.CopyIntegrity
import FileAgent.CopyLoop
import FileAgent.CopySpeed
import FileAgent.CopyStrategy
import FileAgent.CopyTermination
import FileAgent.Coroutine
import FileAgent.CurrentRecord
import FileAgent.DeclaredBounds
import FileAgent.DestinationChecker
import FileAgent.DirectoryBrowser
import FileAgent.DirectoryTree
import FileAgent.ErrorClassification
import FileAgent.EventBus
import FileAgent.EventEcho
import FileAgent.ExecutorOutcome
import FileAgent.FileCopyExecutor
import FileAgent.FileOperations
import FileAgent.FilePanel
import FileAgent.FileRepository
import FileAgent.FileScanner
import FileAgent.FolderStructure
import FileAgent.GrowingFileDetector
import FileAgent.GrowthMonitor
import FileAgent.GrowthReadings
import FileAgent.JobClosing
import FileAgent.JobFilePreparation
import FileAgent.JobHistory
import FileAgent.JobQueue
import FileAgent.Library.Access
import FileAgent.Library.BestPerKey
import FileAgent.Library.Cursor
import FileAgent.Library.FallibleSort
import FileAgent.Library.FreshNames
import FileAgent.Library.JsonOrder
import FileAgent.Library.LastWrite
import FileAgent.Library.OneEntry
import FileAgent.Library.Outline
import FileAgent.Library.ParentForest
import FileAgent.Library.PastTime
import FileAgent.Library.PosixPath
import FileAgent.Library.PrefixCopy
import FileAgent.Library.QuietStretch
import FileAgent.Library.Run
import FileAgent.Library.TimedLog
import FileAgent.Library.Watchdog
import FileAgent.LogFiles
import FileAgent.LogPaging
import FileAgent.LogViewer
import FileAgent.Models
import FileAgent.NetworkErrorDetector
import FileAgent.NetworkRecovery
import FileAgent.OutputFolderTemplate
import FileAgent.OutstandingJobs
import FileAgent.ProgressReports
import FileAgent.ReadyFiles
import FileAgent.RecordHistory
import FileAgent.RepositoryCleanup
import FileAgent.RetryBookkeeping
import FileAgent.RetryTimers
import FileAgent.SafetyMargin
import FileAgent.ScannerFeed
import FileAgent.ScannerLifecycle
import FileAgent.ShortageArithmetic
import FileAgent.SimpleRules
import FileAgent.SourceDelivery
import FileAgent.SpaceAdmission
import FileAgent.SpaceChecker
import FileAgent.SpaceRetryCount
import FileAgent.SpaceRetryDelay
import FileAgent.SpaceShortage
import FileAgent.StabilitySoundness
import FileAgent.StateManager
import FileAgent.Statistics
import FileAgent.StatusOwnership
import FileAgent.StatusProvenance
import FileAgent.StatusTimestamps
import FileAgent.StorageChecks
import FileAgent.StorageMonitor
import FileAgent.StoragePanel
import FileAgent.StorageTestFiles
import FileAgent.StrategyDestination
import FileAgent.System
import FileAgent.TemplateRules
import FileAgent.VerifiedCompletion
import FileAgent.Worker
import FileAgent.WorkerPool
