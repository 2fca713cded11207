import Spectator.Lib.Lts
import Spectator.Lib.CondVar
import Spectator.Lib.Potential
import Spectator.Lib.Chunk
import Spectator.Lib.Sums
import Spectator.Lib.UMap
import Spectator.Lib.Override
import Spectator.Lib.Getline
import Spectator.Lib.Pattern
import Spectator.Lib.Rounding
import Spectator.Lib.Binary64
import Spectator.Utils.Text
import Spectator.Utils.Convert
import Spectator.Utils.ToString
import Spectator.Utils.ProtocolLine
import Spectator.Utils.Grammar
import Spectator.Utils.Encode
import Spectator.Meter.MeterId
import Spectator.Meter.Hash
import Spectator.Meter.Describe
import Spectator.Meter.Meter
import Spectator.Meter.Tags
import Spectator.Meter.Wire
import Spectator.Meter.RoundTrip
import Spectator.Meter.WireKeys
import Spectator.Meter.Reencode
import Spectator.Meter.Operations
import Spectator.Config.Config
import Spectator.Config.WriterConfig
import Spectator.Writer.Writer
import Spectator.Writer.Threads
import Spectator.Writer.Frame
import Spectator.Writer.Lock
import Spectator.Writer.Progress
import Spectator.Writer.Delivery
import Spectator.Writer.Wakeup
import Spectator.Writer.Shutdown
import Spectator.Writer.Session
import Spectator.Writer.Failure
import Spectator.Writer.Termination
import Spectator.Writer.Refinement
import Spectator.Writer.Schedule
import Spectator.Writer.Quiescence
import Spectator.Writer.Calls
import Spectator.Writer.Socket
import Spectator.Writer.Recovery
import Spectator.Writer.NonBuffered
import Spectator.Writer.WaitFree
import Spectator.Writer.Datagrams
import Spectator.Writer.EndToEnd
import Spectator.Writer.Totals
import Spectator.Registry.Registry
import Spectator.Registry.WireId
import Spectator.Registry.Address
import Spectator.Registry.Construct
import Spectator.Registry.EndToEnd
