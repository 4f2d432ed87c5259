import TimeTracker.Activation
import TimeTracker.AliasQueries
import TimeTracker.AppsUpdates
import TimeTracker.CheckpointBounds
import TimeTracker.CheckpointCounters
import TimeTracker.CheckpointCreation
import TimeTracker.CheckpointDecoding
import TimeTracker.CheckpointTimeline
import TimeTracker.ClientIds
import TimeTracker.ClientRegistry
import TimeTracker.ConcurrentAdds
import TimeTracker.Cpp.Deletions
import TimeTracker.Cpp.Recording
import TimeTracker.Cpp.StartTimes
import TimeTracker.EventIsolation
import TimeTracker.FailedActivation
import TimeTracker.LinkedTables
import TimeTracker.LongestSession
import TimeTracker.PauseToggles
import TimeTracker.Progress
import TimeTracker.Restarts
import TimeTracker.Scans
import TimeTracker.SessionAverage
import TimeTracker.SessionStory
import TimeTracker.StatisticsSnapshot
import TimeTracker.StatusStream
import TimeTracker.SubscriptionDelivery
import TimeTracker.TimelineDays
import TimeTracker.TwoBackends
import TimeTracker.TwoLedgers
import TimeTracker.WellFormedResponses
