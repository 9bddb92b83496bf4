import EconRos2Driver.Library.Decimal
import EconRos2Driver.Library.GapCount
import EconRos2Driver.Library.Ledger
import EconRos2Driver.Library.LossyChannel
import EconRos2Driver.Library.Stores
import EconRos2Driver.LidarWriter
import EconRos2Driver.OpencvBackend
import EconRos2Driver.Process
import EconRos2Driver.PublishLog
import EconRos2Driver.Subscribers
import EconRos2Driver.Proof.Delivery
import EconRos2Driver.Proof.Lineage
import EconRos2Driver.Proof.TriggerStamp
import EconRos2Driver.Proof.ClockDomain
import EconRos2Driver.Proof.GstPipeline
import EconRos2Driver.Proof.DropAccounting
import EconRos2Driver.Proof.CaptureTime
import EconRos2Driver.Proof.V4l2Queue
import EconRos2Driver.Proof.BufferOwnership
import EconRos2Driver.Proof.Requeue
import EconRos2Driver.Proof.RawFrames
import EconRos2Driver.Proof.DropTotals
import EconRos2Driver.Proof.BackendDrops
import EconRos2Driver.Proof.GstReferences
import EconRos2Driver.Proof.V4l2Session
import EconRos2Driver.Proof.NegotiatedFormat
import EconRos2Driver.Proof.MappedFile
import EconRos2Driver.Proof.PublishLog
import EconRos2Driver.Proof.ConcurrentLog
import EconRos2Driver.Proof.Durability
import EconRos2Driver.Proof.Session
import EconRos2Driver.Proof.Teardown
import EconRos2Driver.Proof.Termination
import EconRos2Driver.Proof.HidHandshake
import EconRos2Driver.Proof.HidTraffic
import EconRos2Driver.Proof.MessageBounds
import EconRos2Driver.Proof.SavedPaths
import EconRos2Driver.Proof.Shutdown
import EconRos2Driver.Proof.Host
import EconRos2Driver.Proof.GstStart
import EconRos2Driver.Proof.Messages
import EconRos2Driver.Proof.OwnCapture
import EconRos2Driver.Proof.Lifting
import EconRos2Driver.Proof.Monitor
