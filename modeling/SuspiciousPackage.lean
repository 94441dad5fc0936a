import SuspiciousPackage.Alert.CameraEvidence
import SuspiciousPackage.Alert.Coherence
import SuspiciousPackage.Alert.Evidence
import SuspiciousPackage.Alert.FrameRead
import SuspiciousPackage.Alert.Ov7670Camera
import SuspiciousPackage.Alert.Ov7670Top
import SuspiciousPackage.Alert.Picture
import SuspiciousPackage.Axi.Discipline
import SuspiciousPackage.Axi.Memory
import SuspiciousPackage.Axi.Program
import SuspiciousPackage.Axi.Slave
import SuspiciousPackage.Axi.Stages
import SuspiciousPackage.Broadcast.IoTClientFrame
import SuspiciousPackage.Broadcast.ReceiveLoop
import SuspiciousPackage.Broadcast.RecvCallback
import SuspiciousPackage.Broadcast.Send
import SuspiciousPackage.Broadcast.StartApplication
import SuspiciousPackage.Camera.Downsampler
import SuspiciousPackage.Camera.Ov7670Capture
import SuspiciousPackage.Camera.RateLimit
import SuspiciousPackage.Camera.S00Axi
import SuspiciousPackage.Config.Configuration
import SuspiciousPackage.Config.Configured
import SuspiciousPackage.Config.I2CAvConfig
import SuspiciousPackage.Config.I2CController
import SuspiciousPackage.Detect.Accesses
import SuspiciousPackage.Detect.AlarmLaw
import SuspiciousPackage.Detect.Alignment
import SuspiciousPackage.Detect.AxiTop
import SuspiciousPackage.Detect.BackToBack
import SuspiciousPackage.Detect.Capture
import SuspiciousPackage.Detect.ChangedPixels
import SuspiciousPackage.Detect.Consecutive
import SuspiciousPackage.Detect.Control
import SuspiciousPackage.Detect.Counters
import SuspiciousPackage.Detect.Datapath
import SuspiciousPackage.Detect.Drivers
import SuspiciousPackage.Detect.Frame
import SuspiciousPackage.Detect.IdleTime
import SuspiciousPackage.Detect.InStep
import SuspiciousPackage.Detect.NoFalseAlarm
import SuspiciousPackage.Detect.Phase
import SuspiciousPackage.Detect.PixelCounts
import SuspiciousPackage.Detect.RefOnce
import SuspiciousPackage.Detect.Refinement
import SuspiciousPackage.Detect.RegisterBank
import SuspiciousPackage.Detect.Reprogram
import SuspiciousPackage.Detect.StatusRead
import SuspiciousPackage.Detect.Steady
import SuspiciousPackage.Detect.Suspicion
import SuspiciousPackage.Detect.System
import SuspiciousPackage.Detect.ThresholdPorts
import SuspiciousPackage.Detect.Track
import SuspiciousPackage.Detect.Transfers
import SuspiciousPackage.Detect.Unit
import SuspiciousPackage.Detect.WholeFrame
import SuspiciousPackage.Display.DebugPicture
import SuspiciousPackage.Display.Vga444
import SuspiciousPackage.Loop.While
import SuspiciousPackage.Resource.Lists
import SuspiciousPackage.Resource.Pool
import SuspiciousPackage.Resource.Walk
import SuspiciousPackage.Serial.TwoWire
import SuspiciousPackage.Status.DemoRun
import SuspiciousPackage.Status.Sessions
import SuspiciousPackage.Status.SocketPool
import SuspiciousPackage.Stream.Pairing
import SuspiciousPackage.Sync.Counter
import SuspiciousPackage.Sync.Ram
import SuspiciousPackage.Sync.Run
import SuspiciousPackage.Sync.Slot
import SuspiciousPackage.Tcp.Alloc
import SuspiciousPackage.Tcp.Api
import SuspiciousPackage.Tcp.Frame
import SuspiciousPackage.Tcp.NewPort
import SuspiciousPackage.Tcp.Pcbs
import SuspiciousPackage.Tcp.Runs
import SuspiciousPackage.Tcp.Sane
import SuspiciousPackage.Tcp.Slowtmr
import SuspiciousPackage.Text.P3
