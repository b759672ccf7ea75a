import Microbench.Sweep.Measurement

/-!
# Reports

What one run measured, and its text: a line per measurement, the samples of block traces, the
grids and columns of buffers, and a closing line.
-/
namespace Microbench

structure Report where
  capability : Capability
  timer : String
  precision : Precision
  ticksPerSecond : Float
  measurements : List Measurement
  blockTrace : List BlockTrace := []

namespace Report

/-- A report of measurements made with a tick source. -/
def ofSource (capability : Capability) (source : TickSource m) (measurements : List Measurement) :
    Report where
  capability
  timer := source.name
  precision := source.precision
  ticksPerSecond := source.ticksPerSecond
  measurements

/-! ## Lines -/

/-- Seconds with eight places (`seconds_line`). -/
def secondsText (seconds : Float) : String :=
  Decimal.fixed 8 (Binary.ofFloat seconds) ++ " sec."

def verdictLabel : Verdict → String
  | .passed _ => "PASS"
  | .failed reason .. => "FAIL: " ++ reason

def unit : Precision → String
  | .cycle => "cycles"
  | .wall => "ns"

/-- Kernel, shape, ticks, seconds and verdict (`measurement_line`). -/
def measurementLine (m : Measurement) : String :=
  m.kernel ++ ": n=" ++ m.shape ++ " " ++ unit m.precision ++ "=" ++ toString m.ticks.toNat ++ " ("
    ++ secondsText m.seconds ++ ") " ++ verdictLabel m.verdict

/-- The line of a cache sweep: seconds, and the reason of a failure (`cache_line`). -/
def cacheLine (m : Measurement) : String :=
  m.kernel ++ " [" ++ m.shape ++ "]: " ++ secondsText m.seconds
    ++ (match m.verdict.reason? with
      | some reason => " FAIL: " ++ reason
      | none => "")

/-- One timed block copy (`block_copy_line`). -/
def sampleLine (s : BlockSample) : String :=
  "Copied " ++ toString s.bytes ++ " bytes (Total " ++ toString s.totalBytes
    ++ " bytes), cycles used: " ++ toString s.ticks.toNat

def failures (r : Report) : Nat := r.measurements.countP fun m => !m.passed

def summary (r : Report) : String :=
  toString r.measurements.length ++ " measurements, "
    ++ (if r.failures = 0 then "all verified"
      else toString r.failures ++ " failed verification")
    ++ " (" ++ r.timer ++ " timer)"

/-! ## Buffers -/

/-- Two places in six columns, and a blank. -/
def cellText (x : Float32) : String :=
  Decimal.padLeft 6 (Decimal.fixed 2 (Binary.ofFloat32 x)) ++ " "

/-- One line per row, and an empty line (`matrix_grid`). -/
def grid (rows : List (List Float32)) : String :=
  String.join (rows.map fun row => String.join (row.map cellText) ++ "\n") ++ "\n"

/-- One element per line (`vector_lines`). -/
def column (values : Array Int16) : String :=
  String.join (values.toList.map fun x => toString x.toInt ++ "\n")

/-- The rows of a matrix stored row by row. -/
def rowsOf (rows columns : Nat) (data : Array Float32) : List (List Float32) :=
  (List.range rows).map fun i => (data.extract (i * columns) (i * columns + columns)).toList

/-- The columns of a matrix stored row by row, each as a line of its own. -/
def columnsOf (rows columns : Nat) (data : Array Float32) : List (List Float32) :=
  (List.range columns).map fun j =>
    (List.range rows).filterMap fun i => data[i * columns + j]?

/-- The rows of a buffer of floats that belongs to a workload of the shape, if the shape is that
of matrices and the buffer holds at least one (`matrix_view`). -/
def matrixRows? (shape : Shape) (buffer : Buffer) : Option (List (List Float32)) := do
  guard (shape.capability = .matrixMultiply)
  let data ← buffer.f32?
  guard (shape.size * shape.size ≤ data.size)
  return rowsOf shape.size shape.size data

end Report

end Microbench
