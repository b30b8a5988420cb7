import JavaMachine.Answer
import JavaMachine.Bootstrap
import JavaMachine.ClassDecl
import JavaMachine.Collector
import JavaMachine.Config
import JavaMachine.Constant
import JavaMachine.CoreNatives
import JavaMachine.Decimal.Remainder
import JavaMachine.Decimal.Shortest
import JavaMachine.Demo
import JavaMachine.Descriptor
import JavaMachine.ElementKind
import JavaMachine.Event
import JavaMachine.Fault
import JavaMachine.Frame
import JavaMachine.Heap
import JavaMachine.Host
import JavaMachine.Instruction.Arithmetic
import JavaMachine.Instruction.Call
import JavaMachine.Instruction.Control
import JavaMachine.Instruction.Invoke
import JavaMachine.Instruction.Objects
import JavaMachine.Instruction.Operands
import JavaMachine.Instruction.Step
import JavaMachine.Library
import JavaMachine.Machine.Activation
import JavaMachine.Machine.Basic
import JavaMachine.Machine.Memory
import JavaMachine.Main
import JavaMachine.Monitor
import JavaMachine.Opcode
import JavaMachine.Pause
import JavaMachine.Run
import JavaMachine.Script.Action
import JavaMachine.Script.Perform
import JavaMachine.Script.Session
import JavaMachine.Script.Show
import JavaMachine.Text.Hidden
import JavaMachine.Text.Quoted
import JavaMachine.Text.Units
import JavaMachine.Thread
import JavaMachine.Throwable
import JavaMachine.Value
import JavaMachine.Proofs.Balance
import JavaMachine.Proofs.Isolation
import JavaMachine.Proofs.Regions
import JavaMachine.Proofs.Opcodes
import JavaMachine.Proofs.Keeping
import JavaMachine.Proofs.Delivery
import JavaMachine.Proofs.Outcomes
import JavaMachine.Proofs.Ledger
import JavaMachine.Proofs.Release
import JavaMachine.Proofs.Courses
import JavaMachine.Proofs.Initialisation
import JavaMachine.Proofs.HeapCalls
import JavaMachine.Proofs.Covariance
import JavaMachine.Proofs.FieldTypes
import JavaMachine.Proofs.Exhaustion
import JavaMachine.Proofs.Halting
import JavaMachine.Proofs.Results
import JavaMachine.Proofs.ElementKinds
import JavaMachine.Proofs.Subroutines
import JavaMachine.Proofs.Descriptors
import JavaMachine.Proofs.Dispatch
import JavaMachine.Proofs.Handshake
import JavaMachine.Proofs.Overriding
import JavaMachine.Proofs.Readiness
import JavaMachine.Proofs.Constants
import JavaMachine.Proofs.ArrayCopies
import JavaMachine.Proofs.Leftovers
import JavaMachine.Proofs.ArrayLengths
import JavaMachine.Proofs.Arguments
import JavaMachine.Proofs.Reading
import JavaMachine.Proofs.Switches
import JavaMachine.Proofs.ArrayTrees
import JavaMachine.Proofs.WideLocals
import JavaMachine.Proofs.Stores
import JavaMachine.Proofs.Layouts
import JavaMachine.Proofs.Strings
import JavaMachine.Proofs.Texts
import JavaMachine.Proofs.Literals
import JavaMachine.Proofs.Encodings
import JavaMachine.Proofs.Shuffles
import JavaMachine.Proofs.Narrowing
import JavaMachine.Proofs.Factorials
import JavaMachine.Proofs.Ancestry
import JavaMachine.Proofs.FieldMemo
import JavaMachine.Proofs.Contention
import JavaMachine.Proofs.Division
