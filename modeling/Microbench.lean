import Microbench.Main
import Microbench.Proofs.Agreement
import Microbench.Proofs.Bands
import Microbench.Proofs.BlockLengths
import Microbench.Proofs.Builtin
import Microbench.Proofs.CommandLine.Output
import Microbench.Proofs.Diagnostics
import Microbench.Proofs.Histories
import Microbench.Proofs.MatrixMultiply
import Microbench.Proofs.MemoryCopy
import Microbench.Proofs.ModifyInPlace
import Microbench.Proofs.Report
import Microbench.Proofs.Stream
import Microbench.Proofs.Sweep.Builtin
import Microbench.Proofs.Sweep.Handover
import Microbench.Proofs.Sweep.Isolation
import Microbench.Proofs.Sweep.Observers
import Microbench.Proofs.Sweep.Phases
import Microbench.Proofs.Sweep.Sizes
import Microbench.Proofs.Sweep.Ticks
import Microbench.Proofs.Sweep.Verdicts
import Microbench.Proofs.Timer
import Microbench.Proofs.Tolerance
import Microbench.Proofs.VectorLoops
import Microbench.Proofs.WorkingSet
import Microbench.Simulation.Bench
