import LoopProtocol.FrameStack.Transition
import LoopProtocol.BoundTable.Basic
import LoopProtocol.BoundTable.Printer
import LoopProtocol.BoundTable.Reader
import LoopProtocol.Instance
import LoopProtocol.Transition.Polling
import LoopProtocol.Transition.Iterator
import LoopProtocol.Transition.Callback
import LoopProtocol.CompleteRun
import LoopProtocol.World
import LoopProtocol.Session.Script
import LoopProtocol.Proofs.Replay
import LoopProtocol.Proofs.Program
import LoopProtocol.Proofs.Reference
import LoopProtocol.Proofs.Conformance
import LoopProtocol.Proofs.Attempt
import LoopProtocol.Proofs.IdleMove
import LoopProtocol.Proofs.Issued
import LoopProtocol.Proofs.Abort
import LoopProtocol.Proofs.Frozen
import LoopProtocol.Proofs.Linearity
import LoopProtocol.Proofs.OneState
import LoopProtocol.Proofs.CallbackConformance
import LoopProtocol.Proofs.Failure
import LoopProtocol.Proofs.NestedRun
import LoopProtocol.Proofs.PollingConformance
import LoopProtocol.Proofs.StreamCall
import LoopProtocol.Proofs.Passage
import LoopProtocol.Proofs.Draining
import LoopProtocol.Proofs.Recorded
import LoopProtocol.Proofs.Blame
import LoopProtocol.Proofs.FaultSource
import LoopProtocol.Proofs.FirstFault
import LoopProtocol.Proofs.OneSlot
import LoopProtocol.Proofs.PollingHead
import LoopProtocol.Proofs.ForeachCalls
import LoopProtocol.Proofs.ReturnedTail
import LoopProtocol.Proofs.Noninterference
import LoopProtocol.Proofs.Aftermath
import LoopProtocol.Proofs.Routine
import LoopProtocol.Proofs.FrameArithmetic
import LoopProtocol.Proofs.Blind
import LoopProtocol.Proofs.BoundReads
import LoopProtocol.Proofs.LogLines
import LoopProtocol.Proofs.AbortCause
import LoopProtocol.Proofs.LogStory
import LoopProtocol.Proofs.CanonicalText
import LoopProtocol.Proofs.StackCommand
