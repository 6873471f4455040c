import UmapTracker.Result
import UmapTracker.AutoTable
import UmapTracker.Machine
import UmapTracker.Mutex
import UmapTracker.Weights
import UmapTracker.ResultStorage
import UmapTracker.Outbox
import UmapTracker.Text
import UmapTracker.MessageQueue
import UmapTracker.QueueView
import UmapTracker.QueueRuns
import UmapTracker.QueueLaw
import UmapTracker.QueueLeases
import UmapTracker.Config
import UmapTracker.QueueOrder
import UmapTracker.QueueLimit
import UmapTracker.SharedQueue
import UmapTracker.Fields
import UmapTracker.Double
import UmapTracker.GeoTypes
import UmapTracker.KalmanFilter
import UmapTracker.GpsPipeline
import UmapTracker.HttpClient
import UmapTracker.TraccarClient
import UmapTracker.UploadWorker
import UmapTracker.RequestContent
import UmapTracker.AndroidBridge
import UmapTracker.JniBridge
import UmapTracker.LocationTime
import UmapTracker.SessionStorage
import UmapTracker.MessageAge
import UmapTracker.RingBuffer
import UmapTracker.ConcurrentQueue
import UmapTracker.QueueThreads
import UmapTracker.QueueWakeups
import UmapTracker.CallbackThreads
import UmapTracker.ConfigLoading
import UmapTracker.GpsTimeout
import UmapTracker.StateMachine
import UmapTracker.StateObserver
import UmapTracker.TrackerService
import UmapTracker.ServiceRuns
import UmapTracker.PipelineRuns
import UmapTracker.FilterHull
import UmapTracker.FirstFix
import UmapTracker.EngineSessions
import UmapTracker.FailureReports
import UmapTracker.Backoff
import UmapTracker.UploadPass
import UmapTracker.UploadBatch
import UmapTracker.Draining
import UmapTracker.RetryPacing
import UmapTracker.ServiceDeliveries
import UmapTracker.SharedWorkers
import UmapTracker.SharedDeliveries
import UmapTracker.SharedLeases
import UmapTracker.RepeatedSends
import UmapTracker.Confirmations
import UmapTracker.Circle
import UmapTracker.FilterRuns
import UmapTracker.ElapsedTime
import UmapTracker.NotANumber
import UmapTracker.Parallel
import UmapTracker.FilterErrors
import UmapTracker.FilterMemory
import UmapTracker.Settling
import UmapTracker.ErrorBand
import UmapTracker.LeastSquares
import UmapTracker.BestTrack
import UmapTracker.TrackShift
import UmapTracker.ConfigOverrides
import UmapTracker.ConfigSharing
import UmapTracker.Numerals
import UmapTracker.Utf8
import UmapTracker.Json
import UmapTracker.FormQuery
import UmapTracker.PrintedValues
import UmapTracker.HalfEven
import UmapTracker.PayloadText
import UmapTracker.ClientTexts
import UmapTracker.Encodings
import UmapTracker.AcceptablePayloads
import UmapTracker.PayloadOrder
import UmapTracker.DeadReckoning
import UmapTracker.GainDivisor
import UmapTracker.RealArithmetic
import UmapTracker.DerivedSpeed
import UmapTracker.Bearing
import UmapTracker.GreatCircle
import UmapTracker.Distance
