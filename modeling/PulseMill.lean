import PulseMill.Main
import PulseMill.Recorder
import PulseMill.Workbench
import PulseMill.Proofs.Conversation
import PulseMill.Proofs.Delivery
import PulseMill.Proofs.Questions
import PulseMill.Proofs.SimulatorAccess
import PulseMill.Proofs.SimulatedDelivery
import PulseMill.Proofs.Operation
import PulseMill.Proofs.ExactlyOnce
import PulseMill.Proofs.EmergencyStop
import PulseMill.Proofs.AssemblyStep
import PulseMill.Proofs.Pieces
import PulseMill.Proofs.Spelling
import PulseMill.Proofs.Sections
import PulseMill.Proofs.Meaning
import PulseMill.Proofs.Acceptance
import PulseMill.Proofs.ImageRoundTrip
import PulseMill.Proofs.AssemblyChange
import PulseMill.Proofs.BetweenLines
import PulseMill.Proofs.WrittenInPlace
import PulseMill.Proofs.FailStop
import PulseMill.Proofs.ListedProgram
import PulseMill.Proofs.SourceRoundTrip
import PulseMill.Proofs.SimulatorRun
import PulseMill.Proofs.Conservation
import PulseMill.Proofs.StatusHistory
import PulseMill.Proofs.Standstill
import PulseMill.Proofs.WholeRun
import PulseMill.Proofs.LogLevel
import PulseMill.Proofs.LetterCase
import PulseMill.Proofs.InStep
import PulseMill.Proofs.Isolation
import PulseMill.Proofs.Restyling
import PulseMill.Proofs.BlockSpelling
import PulseMill.Proofs.SelfTest
import PulseMill.Proofs.BlockByBlock
import PulseMill.Proofs.IdleWait
import PulseMill.Proofs.AddressFault
import PulseMill.Proofs.BlockListing
import PulseMill.Proofs.ImageBounds
import PulseMill.Proofs.NumeralForms
import PulseMill.Proofs.SpinWait
import PulseMill.Proofs.DrainingWait
import PulseMill.Proofs.Zeroing
import PulseMill.Proofs.ArrayCalls
import PulseMill.Proofs.ArrayGrowth
import PulseMill.Proofs.ArrayStream
import PulseMill.Proofs.PulseWidth
import PulseMill.Proofs.MappedAccess
