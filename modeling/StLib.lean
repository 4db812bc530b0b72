import StLib.Base.ActiveTime
import StLib.Base.AlignedLayout
import StLib.Base.BoundedText
import StLib.Base.Bytes
import StLib.Base.Chunks
import StLib.Base.DecimalText
import StLib.Base.ExchangeSort
import StLib.Base.FinLiterals
import StLib.Base.FixedLayout
import StLib.Base.FramedStreams
import StLib.Base.Interrupts
import StLib.Base.LinkedCopies
import StLib.Base.NibbleWord
import StLib.Base.OwnedHeap
import StLib.Base.PackedRegions
import StLib.Base.RegisterBits
import StLib.Base.RingBuffer
import StLib.Base.Runs
import StLib.Base.SerialTime
import StLib.Base.SortedQueue
import StLib.Base.Throttle
import StLib.Base.Tokens
import StLib.Base.UnorderedRemove
import StLib.Board.DmaContributions
import StLib.Board.BufferLayout
import StLib.Board.Domains
import StLib.Board.Inscription
import StLib.Board.Lookup
import StLib.Board.Model
import StLib.Communication.ChunkInvariance
import StLib.Communication.Datagrams
import StLib.Communication.OrderStream
import StLib.Communication.OrderTable
import StLib.Communication.PacketOrders
import StLib.Communication.PacketRoundTrip
import StLib.Communication.StringFields
import StLib.Communication.Packets
import StLib.Communication.StreamBounds
import StLib.Dfsdm.BufferSlices
import StLib.Dfsdm.Build
import StLib.Dfsdm.FilterGroups
import StLib.Dfsdm.Samples
import StLib.Diagnostics.Description
import StLib.Diagnostics.EchoFree
import StLib.Diagnostics.Formatter
import StLib.Diagnostics.Forwarding
import StLib.Diagnostics.HistoryReplay
import StLib.Diagnostics.Hub
import StLib.Diagnostics.HubDelivery
import StLib.Diagnostics.HubPriority
import StLib.Diagnostics.HubUrgency
import StLib.Diagnostics.Republication
import StLib.Diagnostics.Reports
import StLib.Diagnostics.TransportOrder
import StLib.Diagnostics.TransportRoundTrip
import StLib.Ethernet.Calls
import StLib.Ethernet.Client
import StLib.Ethernet.Sessions
import StLib.Ethernet.ClientRuns
import StLib.Ethernet.Delivery
import StLib.Ethernet.Endpoint
import StLib.Ethernet.Ipv4
import StLib.Ethernet.Lwip
import StLib.Ethernet.ServerSocket
import StLib.Ethernet.Socket
import StLib.Ethernet.Transmit
import StLib.Fdcan.Reads
import StLib.Mdma.Channels
import StLib.Mdma.Model
import StLib.Mdma.Packets
import StLib.Mdma.RequestOrder
import StLib.Protections.ControllerRules
import StLib.Protections.EdgeReports
import StLib.Protections.EngineFaults
import StLib.Protections.EvaluationFold
import StLib.Protections.FaultController
import StLib.Protections.FaultLatch
import StLib.Protections.FaultQuiet
import StLib.Protections.FaultRequest
import StLib.Protections.FaultSpread
import StLib.Protections.Model
import StLib.Protections.Propagation
import StLib.Protections.ProtectionEngine
import StLib.Protections.RuleFactories
import StLib.Protections.RuleSeverity
import StLib.Protections.Throttling
import StLib.Protections.TimeAccumulation
import StLib.Scheduler.Deadlines
import StLib.Scheduler.Dispatching
import StLib.Scheduler.Interleaving
import StLib.Scheduler.Invariant
import StLib.Scheduler.Model
import StLib.Scheduler.Periodic
import StLib.Scheduler.Queue
import StLib.Scheduler.QueueInvariant
import StLib.Scheduler.QueueRefinement
import StLib.Scheduler.Reentrancy
import StLib.Scheduler.Serializability
import StLib.Scheduler.StaleIds
import StLib.Scheduler.Steps
import StLib.Scheduler.TimeConservation
import StLib.Scheduler.TrueTime
import StLib.Scheduler.Unregistering
import StLib.Sd.Transfers
import StLib.Serial.ReadyFlags
import StLib.Sntp.Timers
import StLib.Spi.Flags
import StLib.StateMachine.ActivePath
import StLib.StateMachine.Activity
import StLib.StateMachine.ActivityInvariant
import StLib.StateMachine.Construction
import StLib.StateMachine.Model
import StLib.StateMachine.NestedPanics
import StLib.StateMachine.NestedStart
import StLib.StateMachine.Periods
import StLib.StateMachine.Rollback
import StLib.StateMachine.Rules
import StLib.StateMachine.StateOrders
import StLib.StateMachine.TimedActions
import StLib.Timers.Allocation
import StLib.Timers.AllocationSafety
import StLib.Timers.Clocks
import StLib.Timers.Correspondence
import StLib.Timers.Completeness
import StLib.Timers.Model
import StLib.Timers.OutputBookkeeping
import StLib.Timers.Outputs
import StLib.Timers.PwmDuty
import StLib.Ethernet.Callbacks
import StLib.Ethernet.ClientCallbacks
import StLib.Ethernet.Server
import StLib.Ethernet.ServerRuns
import StLib.Ethernet.Integrity
import StLib.Ethernet.AbortContract
import StLib.Utilities.RingBuffer
import StLib.Board.DmaStreams
import StLib.Mpu.Regions
import StLib.Mpu.Manager
import StLib.Flash.Model
import StLib.Flash.Writes
import StLib.Flash.Rejection
import StLib.Flash.Storer
import StLib.Flash.StorerSlots
import StLib.Flash.Persistence
import StLib.Base.LowestBit
import StLib.Mdma.Nodes
import StLib.Base.BoundedCopies
import StLib.Spi.Orders
import StLib.Mdma.SetPointer
import StLib.Base.OccurrenceRank
import StLib.Adc.Build
import StLib.Adc.Init
import StLib.Adc.Ranks
import StLib.Adc.Slots
import StLib.Control.MovingAverage
import StLib.Base.BackwardDifference
import StLib.Sensors.EncoderSensor
import StLib.Protections.FaultText
import StLib.Control.Pid
import StLib.Timers.PwmFrequency
import StLib.Timers.DeadTime
import StLib.Timers.InputCapture
import StLib.Base.RegisterEdits
import StLib.Timers.ChannelRegisters
import StLib.Base.BitSlots
import StLib.Dfsdm.Registers
import StLib.Dfsdm.Modification
import StLib.Base.EventOrder
import StLib.Dfsdm.Interrupts
import StLib.Base.TableWrites
import StLib.Base.Views
import StLib.Gpio.Pins
import StLib.Gpio.Configuration
import StLib.Exti.Lines
import StLib.Exti.Service
import StLib.Base.Mealy
import StLib.Control.Systems
import StLib.Control.Loops
import StLib.Base.Searches
import StLib.Math.FixedPoint
import StLib.Timers.Prescalers
