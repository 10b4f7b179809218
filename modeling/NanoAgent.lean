import NanoAgent.Foundations.Program
import NanoAgent.DdsAgent.Data
import NanoAgent.Foundations.Run
import NanoAgent.DdsAgent.Agent
import NanoAgent.DdsAgent.Reader
import NanoAgent.DdsAgent.ClientSession
import NanoAgent.DdsAgent.Read
import NanoAgent.DdsAgent.Native
import NanoAgent.DdsAgent.Attachment
import NanoAgent.DdsAgent.Creation
import NanoAgent.DdsAgent.Session
import NanoAgent.Foundations.Table
import NanoAgent.DdsAgent.Operation
import NanoAgent.DdsAgent.ReadFrame
import NanoAgent.DdsAgent.AttachmentCount
import NanoAgent.DdsAgent.NativeFrame
import NanoAgent.DdsAgent.AttachmentRun
import NanoAgent.DdsAgent.DeadEntities
import NanoAgent.DdsAgent.DeadEntitiesRun
import NanoAgent.DdsAgent.ReadLifecycle
import NanoAgent.DdsAgent.ReadLifecycleRun
import NanoAgent.DdsAgent.ReadCreation
import NanoAgent.Service.Data
import NanoAgent.Service.Service
import NanoAgent.Service.ProxyClient
import NanoAgent.Service.Submessage
import NanoAgent.Service.Connection
import NanoAgent.Service.ClientWork
import NanoAgent.Service.MappingMutex
import NanoAgent.Service.Binding
import NanoAgent.Foundations.Directory
import NanoAgent.Service.LocatorMapping
import NanoAgent.Service.Disposal
import NanoAgent.Service.SendQueueRun
import NanoAgent.Service.Supersede
import NanoAgent.Service.SessionTable
import NanoAgent.Service.SessionTimer
import NanoAgent.DdsAgent.IdleReads
import NanoAgent.DdsAgent.BoundedReads
import NanoAgent.Service.Heartbeat
import NanoAgent.Service.ClientAccounts
import NanoAgent.Service.ClientAccountsRun
import NanoAgent.DdsAgent.EntityName
import NanoAgent.DdsAgent.EntityNameRef
import NanoAgent.Service.CreateClientBounds
import NanoAgent.Service.ReadRequests
import NanoAgent.DdsAgent.RecordChange
import NanoAgent.DdsAgent.DyingResource
import NanoAgent.DdsAgent.ResourceIds
import NanoAgent.DdsAgent.AutoAttach
import NanoAgent.Foundations.Forest
import NanoAgent.DdsAgent.NativeDeletion
import NanoAgent.DdsAgent.ReflectedDeletion
import NanoAgent.DdsAgent.RecordIdentity
import NanoAgent.DdsAgent.ReadNotices
import NanoAgent.DdsAgent.ReadEnds
import NanoAgent.DdsAgent.ReadNoticesRun
import NanoAgent.DdsAgent.DismissedSamples
import NanoAgent.DdsAgent.ReopenedSession
import NanoAgent.DdsAgent.RequestSet
import NanoAgent.DdsAgent.ResumePosition
import NanoAgent.Service.ForwardDismissal
import NanoAgent.DdsAgent.CopyCompare
import NanoAgent.DdsAgent.XmlResource
import NanoAgent.DdsAgent.XmlElements
import NanoAgent.DdsAgent.NativeCreation
import NanoAgent.DdsAgent.NativeCreationResult
import NanoAgent.DdsAgent.DatabaseShutdown
import NanoAgent.DdsAgent.DatabaseShutdownResult
import NanoAgent.Foundations.StartStop
import NanoAgent.Service.Transports
import NanoAgent.Foundations.Comparator
import NanoAgent.DdsAgent.Comparators
import NanoAgent.DdsAgent.ReceivedBuffers
import NanoAgent.DdsAgent.SamplePacing
import NanoAgent.DdsAgent.Encapsulation
import NanoAgent.Service.Forwarding
import NanoAgent.Service.ReadAnswers
import NanoAgent.Service.SampleLoss
import NanoAgent.DdsAgent.SampleOwners
import NanoAgent.DdsAgent.SampleOwnersRun
import NanoAgent.DdsAgent.XmlLoading
import NanoAgent.DdsAgent.XmlLoaded
import NanoAgent.DdsAgent.StillSteps
import NanoAgent.Foundations.SortedLog
import NanoAgent.DdsAgent.OfferedSamples
import NanoAgent.DdsAgent.OrderedDelivery
import NanoAgent.DdsAgent.WholeDelivery
import NanoAgent.DdsAgent.SessionView
import NanoAgent.DdsAgent.CleanupHandler
import NanoAgent.DdsAgent.SessionTurns
import NanoAgent.DdsAgent.SessionTeardown
import NanoAgent.DdsAgent.CleanReuse
import NanoAgent.DdsAgent.FailedCreation
import NanoAgent.Foundations.Lockstep
import NanoAgent.Service.SessionCalls
import NanoAgent.Service.LayeredAgent
