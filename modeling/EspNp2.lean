import EspNp2.Library.LittleEndian
import EspNp2.Library.ByteStuffing
import EspNp2.Library.LabelledRun
import EspNp2.Library.Transducer
import EspNp2.Library.CallProgram
import EspNp2.BinaryDataPlane.Cobs
import EspNp2.BinaryDataPlane.BinaryCodec
import EspNp2.BinaryDataPlane.FrameRoundTrip
import EspNp2.BinaryDataPlane.Transfer
import EspNp2.BinaryDataPlane.TransferContract
import EspNp2.BinaryDataPlane.TransferTrace
import EspNp2.BinaryDataPlane.ReceiveLifecycle
import EspNp2.BinaryDataPlane.TransmitLifecycle
import EspNp2.BinaryDataPlane.TransmitProgress
import EspNp2.HostUpload.HostWire
import EspNp2.HostUpload.UploadClient
import EspNp2.HostUpload.UploadNetwork
import EspNp2.HostUpload.UploadReceiver
import EspNp2.HostUpload.UploadSender
import EspNp2.HostUpload.UploadAgreement
import EspNp2.HostUpload.UploadProtocolErrors
import EspNp2.ControlPlane.ControlFraming
import EspNp2.SerialStream.Multiplexer
import EspNp2.SerialStream.Demultiplexing
import EspNp2.SerialStream.Resynchronization
import EspNp2.FileTransfer.ZeroRleFormat
import EspNp2.FileTransfer.ZeroRleDecoder
import EspNp2.HostUpload.ZeroRleProducer
import EspNp2.HostUpload.ZeroRleWire
import EspNp2.HostUpload.CompressedUpload
import EspNp2.StorageBackend.StorageInterface
import EspNp2.StorageBackend.BlockAllocator
import EspNp2.StorageBackend.RamStorage
import EspNp2.StorageBackend.RamVisibility
import EspNp2.StorageBackend.BlockTiling
import EspNp2.StorageBackend.RamInvariant
import EspNp2.FileTransfer.PathValidation
import EspNp2.FileTransfer.Service
import EspNp2.FileTransfer.StorageHistory
import EspNp2.FileTransfer.EndpointPhases
import EspNp2.FileTransfer.EndpointContract
import EspNp2.FileTransfer.ServiceAtomicity
import EspNp2.StorageBackend.FileSystem
import EspNp2.StorageBackend.FatfsStorage
import EspNp2.StorageBackend.FatfsReplacement
import EspNp2.StorageBackend.FatfsPowerLoss
import EspNp2.Library.CallMonitor
import EspNp2.GuestAdapter.AdapterState
import EspNp2.GuestAdapter.AdapterOperations
import EspNp2.GuestAdapter.AdapterFrame
import EspNp2.GuestAdapter.CommitStream
import EspNp2.GuestAdapter.RejectionAtomicity
import EspNp2.Library.Concurrent
import EspNp2.LiveService.ServiceMemory
import EspNp2.LiveService.Transport
import EspNp2.LiveService.PcmOutput
import EspNp2.LiveService.WorkerThread
import EspNp2.LiveService.OwnerThread
import EspNp2.LiveService.LiveSystem
import EspNp2.LiveService.LifecycleMonitor
import EspNp2.LiveService.Lifecycle
import EspNp2.LiveService.FailureCause
import EspNp2.LiveService.Quiescence
import EspNp2.LiveService.OpenRunStop
import EspNp2.KeyboardInput.KeyMapping
import EspNp2.KeyboardInput.Ownership
import EspNp2.KeyboardInput.OwnershipInvariant
import EspNp2.KeyboardInput.OwnershipRuns
import EspNp2.KeyboardInput.SoleSource
import EspNp2.KeyboardInput.UsbEdges
import EspNp2.KeyboardInput.UsbFidelity
import EspNp2.AudioTransport.HorizonContract
import EspNp2.AudioTransport.RingContract
import EspNp2.FileTransfer.ZeroRleChunking
import EspNp2.SerialStream.TransportSync
import EspNp2.NpRuntime.CoreRuntime
import EspNp2.NpRuntime.LifecycleCalls
import EspNp2.NpRuntime.LifecycleContract
import EspNp2.NpRuntime.RuntimeCalls
import EspNp2.NpRuntime.RuntimeContract
import EspNp2.HostUpload.SerialParser
import EspNp2.CodecLease.CodecClients
import EspNp2.CodecLease.LeaseLifetime
import EspNp2.KeyboardInput.KeyboardBridge
import EspNp2.KeyboardInput.UsbProducer
import EspNp2.KeyboardInput.UsbProducerCalls
import EspNp2.KeyboardInput.UsbProducerFaults
import EspNp2.FileTransfer.PathGrammar
import EspNp2.KeyboardInput.BootReports
import EspNp2.Library.ThreadTraces
import EspNp2.NpRuntime.CallTraces
import EspNp2.NpRuntime.RejectionErasure
import EspNp2.GuestAdapter.ClockPaths
import EspNp2.GuestAdapter.InterruptLines
import EspNp2.Digest.Sha256
import EspNp2.Digest.Sha256Digest
import EspNp2.GuestAdapter.ClockRuns
import EspNp2.Library.WrappingWords
import EspNp2.S98Parser.MulDivFloor
import EspNp2.CodecLease.LedgerExactness
import EspNp2.DiskImage.Dosio
import EspNp2.DiskImage.Interchange
import EspNp2.PcmStream.Quanta
import EspNp2.PcmStream.RingSlots
import EspNp2.PcmStream.PcmDelivery
import EspNp2.Library.Overwriting
import EspNp2.Presentation.FrameSource
import EspNp2.Presentation.Publisher
import EspNp2.Presentation.PublisherWatch
import EspNp2.Presentation.PublisherInvariant
import EspNp2.Presentation.PublisherContract
import EspNp2.Presentation.Freshness
import EspNp2.GuestAdapter.SteadyClock
import EspNp2.GuestAdapter.ClockJourneys
import EspNp2.Library.ByteReader
import EspNp2.S98Parser.DumpFormat
import EspNp2.S98Parser.DumpReading
import EspNp2.S98Parser.ParserContract
import EspNp2.GuestAdapter.SinkBinding
import EspNp2.LiveService.OwnerSession
import EspNp2.LiveService.SinkSession
import EspNp2.LiveService.CheckpointSession
import EspNp2.LiveService.ForeignThreads
import EspNp2.LiveService.OwnerInvariant
import EspNp2.LiveService.CommittedStop
import EspNp2.FileTransfer.HistoryErasure
