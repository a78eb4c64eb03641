import NoCapKVM.Discovery.SessionLoop
import NoCapKVM.App.ClipboardEcho
import NoCapKVM.App.ClipboardConvergence
import NoCapKVM.App.StreamOwner
import NoCapKVM.App.SentRecords
import NoCapKVM.App.ControlRequests
import NoCapKVM.App.Station
import NoCapKVM.App.ClipboardPump
import NoCapKVM.Clipboard.OsClipboard
import NoCapKVM.App.AudioPlayback
import NoCapKVM.Discovery.Shared
import NoCapKVM.Thread.Program
import NoCapKVM.Thread.Safety
import NoCapKVM.Thread.Exchange
import NoCapKVM.Discovery.Sodium
import NoCapKVM.Discovery.NoisePrimitives
import NoCapKVM.Discovery.NoiseIk
import NoCapKVM.Discovery.NoiseIkAgreement
import NoCapKVM.Discovery.TermSodium
import NoCapKVM.Codec.BigEndian
import NoCapKVM.Discovery.Messages
import NoCapKVM.Input.Protocol
import NoCapKVM.Discovery.ConnectionInfo
import NoCapKVM.Discovery.Operations
import NoCapKVM.Discovery.TcpClient
import NoCapKVM.Discovery.TcpServer
import NoCapKVM.Discovery.World
import NoCapKVM.Discovery.TrustPinning
import NoCapKVM.Discovery.Admission
import NoCapKVM.Discovery.HandshakeAgreement
import NoCapKVM.Thread.Termination
import NoCapKVM.Discovery.SecureChannel
import NoCapKVM.Clipboard.JpegCodec
import NoCapKVM.Discovery.FrameSize
import NoCapKVM.Discovery.ChannelDelivery
import NoCapKVM.Discovery.Playback
import NoCapKVM.Discovery.SocketPlayback
import NoCapKVM.Discovery.TrustChanges
import NoCapKVM.Discovery.Console
import NoCapKVM.Discovery.StaleApproval
import NoCapKVM.Discovery.CommandTiming
import NoCapKVM.Topology.Crossing
import NoCapKVM.Input.Hook
import NoCapKVM.App.InputPump
import NoCapKVM.App.PointerContinuity
import NoCapKVM.App.FrameLoop
import NoCapKVM.App.Deliveries
import NoCapKVM.App.KeyRelease
import NoCapKVM.App.ButtonRelease
import NoCapKVM.App.EventOrder
import NoCapKVM.Discovery.AttemptPhases
import NoCapKVM.Discovery.GoAway
import NoCapKVM.Discovery.Rejection
import NoCapKVM.App.AutoConnect
import NoCapKVM.App.LiveAttempts
import NoCapKVM.App.RejectedDevices
import NoCapKVM.App.SentAwayDevices
import NoCapKVM.Discovery.Wire
import NoCapKVM.Discovery.ConnectedAgreement
import NoCapKVM.Discovery.Acceptance
import NoCapKVM.App.AudioNonces
import NoCapKVM.Audio.JitterBuffer
import NoCapKVM.Audio.JitterOrder
import NoCapKVM.Audio.JitterLedger
import NoCapKVM.Input.Inject
import NoCapKVM.Discovery.LostLink
import NoCapKVM.App.WheelScrolling
import NoCapKVM.Audio.JitterRecovery
import NoCapKVM.App.ClipboardCopies
import NoCapKVM.Topology.BoundingBox
import NoCapKVM.App.FacingEdge
import NoCapKVM.Topology.Overflow
import NoCapKVM.App.OnScreen
import NoCapKVM.App.FreshInput
import NoCapKVM.App.RestingPointer
import NoCapKVM.Audio.CapEpisodes
import NoCapKVM.Audio.Playback
import NoCapKVM.Audio.PlaybackPace
import NoCapKVM.EventLog.Throughout
import NoCapKVM.App.CaptureLifetime
import NoCapKVM.App.PacketDrain
import NoCapKVM.Text.IStream
import NoCapKVM.Discovery.UserSettings
import NoCapKVM.App.SavedOverride
import NoCapKVM.App.ClipboardRetries
import NoCapKVM.Clipboard.ExtractChannel
import NoCapKVM.Memory.Buffer
import NoCapKVM.Clipboard.Dib
import NoCapKVM.Discovery.InputDispatch
import NoCapKVM.Discovery.MonitorList
import NoCapKVM.Discovery.Announce
import NoCapKVM.EventLog.Samples
import NoCapKVM.App.SampleWindow
import NoCapKVM.App.BufferDepthWindow
import NoCapKVM.App.AudioLossWindow
import NoCapKVM.Codec.LittleEndian
import NoCapKVM.App.IcoDecode
import NoCapKVM.Files.Directory
import NoCapKVM.Telemetry.RotatingLogger
import NoCapKVM.Text.Hex
import NoCapKVM.Text.Lines
import NoCapKVM.Files.LineStore
import NoCapKVM.Discovery.HexKeys
import NoCapKVM.Discovery.PeerFile
import NoCapKVM.Topology.ArrangementFile
import NoCapKVM.Discovery.StoredKeys
import NoCapKVM.Text.WithinLine
import NoCapKVM.Discovery.DamagedSettings
import NoCapKVM.Container.KeyedList
import NoCapKVM.App.HeldKeyMap
import NoCapKVM.Audio.JitterEpisodes
import NoCapKVM.App.AudioStream
import NoCapKVM.App.RemoteInput
import NoCapKVM.Discovery.SymbolicSodium
import NoCapKVM.Discovery.NetworkAttacker
import NoCapKVM.Discovery.NoiseIkTranscript
import NoCapKVM.Discovery.RecordLayer
import NoCapKVM.Discovery.NoiseIkSessions
import NoCapKVM.Discovery.NoiseIkAuthentication
import NoCapKVM.Discovery.NoiseIkSecrecy
import NoCapKVM.Discovery.NoiseIkRecords
import NoCapKVM.Clipboard.X11Selection
import NoCapKVM.Clipboard.PasteRequests
import NoCapKVM.Container.ExpiringTable
import NoCapKVM.Discovery.PeerTable
import NoCapKVM.Discovery.HeardPeers
import NoCapKVM.App.PeerMonitors
import NoCapKVM.Discovery.ComparedKeys
import NoCapKVM.Discovery.RoundTripTime
import NoCapKVM.Discovery.Identity
import NoCapKVM.App.Screens
import NoCapKVM.App.TelemetryPump
import NoCapKVM.App.CapReports
