import JuttaProto.AlertReferences
import JuttaProto.BrewOptions
import JuttaProto.FailedAttempts
import JuttaProto.Handshake
import JuttaProto.HeartbeatRace
import JuttaProto.LinkLoss
import JuttaProto.Observers
import JuttaProto.ReceivePath
import JuttaProto.StatisticsDecode
import JuttaProto.Streams
import JuttaProto.CipherPositions
import JuttaProto.HexCodec
import JuttaProto.Bitfield
import JuttaProto.ManufacturerData
import JuttaProto.MachineLoading
import JuttaProto.MaintenanceTables
import JuttaProto.Scanner
import JuttaProto.ScanCancel
import JuttaProto.ScanSignal
import JuttaProto.LoadedMachine
import JuttaProto.DisconnectEnds
import JuttaProto.ScanEnds
import JuttaProto.MachineWritten
import JuttaProto.TestReturns
import JuttaProto.KeepAlive
import JuttaProto.StatisticsCollected
import JuttaProto.TestTranscript
import JuttaProto.LifecycleSafety
