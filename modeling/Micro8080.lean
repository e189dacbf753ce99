import Micro8080.Console.Basic
import Micro8080.Control.Edit
import Micro8080.Debugger.Basic
import Micro8080.FrontPanel
import Micro8080.Host
import Micro8080.Instruction.Inspection
import Micro8080.Main
import Micro8080.Program
import Micro8080.Proofs.Computer.Boundary
import Micro8080.Proofs.Computer.Calls
import Micro8080.Proofs.Machine.Timeline
import Micro8080.Proofs.Program.Timing
import Micro8080.Proofs.Computer.Timeline
import Micro8080.Proofs.Computer.SystemCalls
import Micro8080.Proofs.Computer.Stepping
import Micro8080.Proofs.Computer.Phase
import Micro8080.Proofs.Console
import Micro8080.Proofs.Computer.Stack
import Micro8080.Proofs.Debugger.Execution
import Micro8080.Proofs.Debugger.Labels
import Micro8080.Proofs.Program.Ending
import Micro8080.Proofs.Debugger.Meaning
import Micro8080.Proofs.Debugger.Frames
import Micro8080.Proofs.Debugger.Run
import Micro8080.Proofs.Debugger.Single
import Micro8080.Proofs.Computer.Latched
import Micro8080.Proofs.Program.Midway
import Micro8080.Proofs.Computer.Rest
import Micro8080.Proofs.Program.Stages
import Micro8080.Proofs.Computer.History
import Micro8080.Proofs.Machine.Likeness
import Micro8080.Proofs.Computer.Transcript
import Micro8080.Proofs.Machine.OutputLatch
import Micro8080.Proofs.Computer.Pulse
import Micro8080.Proofs.Computer.Observation
import Micro8080.Proofs.Reset
import Micro8080.Proofs.Program.Fetch
import Micro8080.Proofs.Computer.Rows
import Micro8080.Proofs.Alu.LongArithmetic
import Micro8080.Proofs.Computer.Flags
import Micro8080.Proofs.Computer.Slices
import Micro8080.Proofs.Debugger.Resume
import Micro8080.Proofs.CommandLine.Arguments
import Micro8080.Proofs.CommandLine.Streams
import Micro8080.Proofs.CommandLine.Listing
import Micro8080.Proofs.CommandLine.Status
import Micro8080.Proofs.Register.File
import Micro8080.Proofs.Control.Edit
import Micro8080.Proofs.CommandLine.Number
