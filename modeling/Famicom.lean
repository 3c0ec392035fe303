import Famicom.Bench.RegisterPicture
import Famicom.Bench.ScriptedProcessor
import Famicom.Settings.Text
import Famicom.Console.Machine
import Famicom.Main
import Famicom.Storage.Disk
import Famicom.Board.WordSize
import Famicom.Inspector.Command
import Famicom.Proofs.Audio.Tick
import Famicom.Proofs.Audio.FrameTiming
import Famicom.Proofs.Audio.PeriodRange
import Famicom.Proofs.Audio.SamplePlayback
import Famicom.Proofs.Console.Bus
import Famicom.Proofs.Console.Run
import Famicom.Proofs.Console.SpriteTransfer
import Famicom.Proofs.Console.SweepTiming
import Famicom.Proofs.Cartridge.ImageFormat
import Famicom.Proofs.Cartridge.OffsetRange
import Famicom.Proofs.Cartridge.SerialPort
import Famicom.Proofs.Console.Calls
import Famicom.Proofs.Console.SlotAccounts
import Famicom.Proofs.Cartridge.PatternRam
import Famicom.Proofs.Cartridge.BatteryRam
import Famicom.Proofs.Cartridge.SaveFailure
import Famicom.Proofs.Cartridge.ImageFile
import Famicom.Proofs.Audio.FrameUnits
import Famicom.Proofs.Cartridge.PowerOn
import Famicom.Proofs.Audio.Listening
import Famicom.Proofs.Console.Trace
import Famicom.Proofs.Console.Listening
import Famicom.Proofs.Console.ControllerHistory
import Famicom.Proofs.Console.ControllerPorts
import Famicom.Proofs.Json.Grammar
import Famicom.Proofs.Json.Scanning
import Famicom.Proofs.Json.Skipping
import Famicom.Proofs.Json.Vocabulary
import Famicom.Proofs.Json.Reading
import Famicom.Proofs.Json.Scalars
import Famicom.Proofs.Json.Writing
import Famicom.Proofs.Settings.Spelling
import Famicom.Proofs.Settings.Reading
import Famicom.Proofs.Settings.RoundTrip
import Famicom.Proofs.Settings.PartialText
import Famicom.Proofs.Console.AccessPath
import Famicom.Proofs.Console.WorkRam
import Famicom.Proofs.Console.Peeks
import Famicom.Proofs.Cartridge.RomMemory
import Famicom.Proofs.Cartridge.SerialGate
import Famicom.Proofs.Console.EventLog
import Famicom.Proofs.Console.FrameGuard
import Famicom.Proofs.Audio.SampleInterrupt
import Famicom.Proofs.Audio.Registers
import Famicom.Proofs.Audio.SampleFetches
import Famicom.Proofs.Audio.SampleRange
import Famicom.Proofs.Audio.NoteLength
import Famicom.Proofs.Audio.SweepRun
import Famicom.Proofs.Audio.WaveformTaps
import Famicom.Proofs.Console.CartridgeRequest
import Famicom.Proofs.Console.Watching
import Famicom.Proofs.Console.Interrupts
import Famicom.Proofs.Cartridge.BankWindows
import Famicom.Proofs.Cartridge.Mmc3Events
import Famicom.Proofs.Cartridge.BankLayout
import Famicom.Proofs.Cartridge.ScanlineCounter
import Famicom.Proofs.Cartridge.FetchLatch
import Famicom.Proofs.Audio.Divider
import Famicom.Proofs.Audio.EnvelopeDecay
import Famicom.Proofs.Audio.PatternRotation
import Famicom.Proofs.Audio.SequencerRun
import Famicom.Proofs.Audio.LinearCounter
import Famicom.Proofs.Audio.NoiseShifts
