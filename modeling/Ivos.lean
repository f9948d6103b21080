import Ivos.Library.PartialMachine
import Ivos.Scheduler.QueueAgreement
import Ivos.Scheduler.Preemption
import Ivos.Scheduler.MutualExclusion
import Ivos.Fat.Image
import Ivos.Fat.Layout
import Ivos.Fat.Directory
import Ivos.Fat.TreeListing
import Ivos.Fat.Navigation
import Ivos.Http.Dispatch
import Ivos.Http.Request
import Ivos.Http.Upload
import Ivos.Http.RequestText
import Ivos.Http.Connection
import Ivos.Fat.PromptPath
import Ivos.Http.AcceptLoop
import Ivos.Scheduler.InitialThread
import Ivos.Library.Allotment
import Ivos.Scheduler.Tickets
import Ivos.Scheduler.ConcurrentCreation
import Ivos.Http.ServedPaths
import Ivos.Http.Shutdown
import Ivos.Library.LinkedList
import Ivos.Scheduler.WaitQueue
import Ivos.Scheduler.PermitAccounting
import Ivos.Library.Timeline
import Ivos.Scheduler.Counters
import Ivos.Scheduler.TimeAccounting
import Ivos.Fat.Extraction
import Ivos.Fat.Listing
import Ivos.Fat.Reading
import Ivos.Fat.EndMarks
import Ivos.Fat.CorruptChains
import Ivos.Fat.Offsets
import Ivos.Http.HeaderSafety
import Ivos.Http.HeaderFields
import Ivos.Http.Boundary
import Ivos.Http.UploadBounds
import Ivos.Library.BoundedResponse
import Ivos.Scheduler.BoundedWaiting
import Ivos.Scheduler.LotteryShares
import Ivos.Library.RunningMoments
import Ivos.Scheduler.SliceStatistics
import Ivos.Scheduler.SemaphoreDestroy
import Ivos.Scheduler.StackRelease
import Ivos.Fat.RoundTrip
import Ivos.Fat.UnsetLinks
import Ivos.Fat.LoopAgreement
import Ivos.Fat.SameDirectory
import Ivos.Library.DataRefinement
import Ivos.Scheduler.FifoQueue
import Ivos.Http.LosslessSplit
import Ivos.Http.StalePids
import Ivos.Http.PartialStart
import Ivos.Http.ResponseText
import Ivos.Http.WorkerDescriptors
import Ivos.Http.ConnectionTurns
import Ivos.Http.PidTokens
import Ivos.Library.WordMachine
import Ivos.Scheduler.ContextSwitch
import Ivos.Http.ConnectionDelivery
import Ivos.Http.DescriptorPassing
import Ivos.Http.LogQueue
import Ivos.Http.ResponseStream
import Ivos.Fat.Shell
import Ivos.Fat.TreeBrowser
import Ivos.Scheduler.PreemptionMasks
import Ivos.Scheduler.OperationRefinement
import Ivos.Scheduler.ThreadIdentity
