import Microbench.CommandLine.Execute

/-!
# The program

Runs the command line against the machine's monotonic clock.
-/
namespace Microbench

/-- Nanoseconds since the program started. -/
def monotonicClock (origin : Nat) : TickSource IO where
  name := "monotonic"
  precision := .wall
  ticksPerSecond := 1.0e9
  bits := 64
  now := do return UInt64.ofNat ((← IO.monoNanosNow) - origin)

end Microbench

def main (args : List String) : IO UInt32 := do
  let origin ← IO.monoNanosNow
  let outcome ← Microbench.CommandLine.program .machine
    (fun _ => Microbench.monotonicClock origin) args
  IO.print outcome.stdout
  IO.eprint outcome.stderr
  return UInt32.ofNat outcome.exitCode
