import ShairportSync.SerialNumber.Ring
import ShairportSync.Transition.Run
import ShairportSync.Player.Basic
import ShairportSync.Player.PutPacket
import ShairportSync.Player.GetFrame
import ShairportSync.Player.System
import ShairportSync.Player.Holds
import ShairportSync.Player.SlotInvariant
import ShairportSync.Player.Occupancy
import ShairportSync.Player.Handout
import ShairportSync.Player.Wrap
import ShairportSync.Player.FutureFlush
import ShairportSync.Rtp.AnchorContinuity
import ShairportSync.Rtp.FrameTime
import ShairportSync.Rtp.Decipher
import ShairportSync.Rtp.Datagrams
import ShairportSync.Rtp.SyncLatency
import ShairportSync.Rtp.OwnBytes
import ShairportSync.Activity.Monitor
import ShairportSync.BufferedAudio.FlushWindow
import ShairportSync.Rtsp.ExclusivePlayer
import ShairportSync.Rtsp.LockRelease
import ShairportSync.Rtsp.LockAnswer
import ShairportSync.Rtsp.Framing
import ShairportSync.Rtsp.Response
import ShairportSync.Rtsp.RequestBuffer
import ShairportSync.Rtsp.Announce
import ShairportSync.Metadata.Dmap
import ShairportSync.Metadata.Hub
import ShairportSync.Metadata.Queue
import ShairportSync.Metadata.Carriers
import ShairportSync.BufferedAudio.TcpRing
import ShairportSync.Scan.Runs
import ShairportSync.Player.ResendRanges
import ShairportSync.Player.Acceptance
import ShairportSync.Player.ScanStart
import ShairportSync.Player.OutputFlush
import ShairportSync.Player.FlushWithin
import ShairportSync.Metadata.Watchers
import ShairportSync.Metadata.ItemReads
import ShairportSync.BufferedAudio.BlockFraming
import ShairportSync.BufferedAudio.DeferredFlush
import ShairportSync.BufferedAudio.SizedBlock
import ShairportSync.BufferedAudio.PcmBuffer
import ShairportSync.BufferedAudio.Repacketiser
import ShairportSync.PulseAudio.Ring
import ShairportSync.Encoding.Base64
import ShairportSync.Metadata.Pipe
import ShairportSync.Metadata.Multicast
import ShairportSync.Rtsp.ControlChannel
import ShairportSync.Rtsp.FairPlay
import ShairportSync.Rtsp.Dumps
import ShairportSync.Numeric.Quantise
import ShairportSync.Player.ProcessSample
import ShairportSync.Player.StuffBuffer
import ShairportSync.Dacp.Tlv
import ShairportSync.Dacp.Replies
import ShairportSync.Dacp.SpeakerList
import ShairportSync.Rtsp.ConnsLock
import ShairportSync.Rtsp.Reaping
import ShairportSync.Player.ZeroFrames
import ShairportSync.Numeric.SignExtend
import ShairportSync.Player.SyncError
import ShairportSync.Numeric.Transfer
import ShairportSync.Player.Volume
import ShairportSync.Player.VolumeMaximum
import ShairportSync.Rtp.UdpPorts
import ShairportSync.Alsa.Backend
import ShairportSync.Alsa.HandleState
import ShairportSync.Alsa.FrameRate
import ShairportSync.Alsa.Stall
import ShairportSync.Fifo.Parts
import ShairportSync.Jack.Output
import ShairportSync.Jack.Stream
import ShairportSync.Sndio.Delay
import ShairportSync.Numeric.WordArithmetic
import ShairportSync.Numeric.ScaledMean
import ShairportSync.Fifo.Recent
import ShairportSync.Player.Statistics
import ShairportSync.Rtp.ClockEstimate
import ShairportSync.Encoding.Bits
import ShairportSync.Numeric.Signed
import ShairportSync.Alac.Reader
import ShairportSync.Alac.Rice
import ShairportSync.Alac.RiceStream
import ShairportSync.Alac.Predictor
import ShairportSync.Alac.Frame
import ShairportSync.Alac.FrameStream
import ShairportSync.Alac.OutputBound
import ShairportSync.Pairing.Tlv
import ShairportSync.Pairing.Registry
import ShairportSync.Rtsp.ControlWrite
import ShairportSync.Numeric.Rounding
import ShairportSync.Player.SyncControl
import ShairportSync.Http.Parser
import ShairportSync.Http.Header
import ShairportSync.Http.Reply
import ShairportSync.Dacp.Exchange
import ShairportSync.Pairing.Setup
import ShairportSync.Pairing.Verify
import ShairportSync.Pairing.Session
import ShairportSync.Rtsp.QuotedFields
import ShairportSync.Rtsp.Authorization
import ShairportSync.Numeric.RoundedQuotient
import ShairportSync.Dacp.SetVolume
