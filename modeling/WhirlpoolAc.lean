import WhirlpoolAc.ChunkedDelivery
import WhirlpoolAc.CommitClock
import WhirlpoolAc.EscapingExceptions
import WhirlpoolAc.PulseDecoder
import WhirlpoolAc.RecordRefinement
import WhirlpoolAc.StatusEcho
import WhirlpoolAc.StatusMirror
import WhirlpoolAc.IrLink
import WhirlpoolAc.ConfigRoundTrip
import WhirlpoolAc.PortalSaves
import WhirlpoolAc.Reconnection
import WhirlpoolAc.BootServices
import WhirlpoolAc.ReferenceDecoder
import WhirlpoolAc.DecoderResync
import WhirlpoolAc.NamespaceIsolation
import WhirlpoolAc.TemperatureCounter
import WhirlpoolAc.NotFoundPage
import WhirlpoolAc.CommandTables
import WhirlpoolAc.HumiditySensor
import WhirlpoolAc.PackedWrites
import WhirlpoolAc.SetterCalls
import WhirlpoolAc.SetterRanges
import WhirlpoolAc.ConstructedFrame
import WhirlpoolAc.TimerReport
import WhirlpoolAc.StreamDecoding
import WhirlpoolAc.MalformedNumbers
import WhirlpoolAc.MqttReconnect
import WhirlpoolAc.MqttSending
import WhirlpoolAc.MqttDevice
import WhirlpoolAc.MqttSegments
import WhirlpoolAc.MqttMessagesIn
import WhirlpoolAc.MqttQueue
import WhirlpoolAc.CommitsHeard
import WhirlpoolAc.PolledLine
import WhirlpoolAc.SensorWire
import WhirlpoolAc.SensorDriver
import WhirlpoolAc.Heartbeat
import WhirlpoolAc.AckAccounting
import WhirlpoolAc.TimedQueue
