import Microbench.Json.Access
import Microbench.Report
import Microbench.Sweep.Runner

/-!
# Domain values as JSON

Each type has its document and its reader. A structure is an object with its fields in order, an
enumeration is its name, and a verdict carries its kind as a member of its own.
-/
namespace Microbench.Codec

open Json (text nat word double single)

/-! ## Documents -/

def ofMismatch (m : Mismatch) : Json :=
  .object [("index", nat m.index), ("expected", text m.expected), ("actual", text m.actual)]

def ofVerdict : Verdict → Json
  | .passed maxAbsError =>
    .object [("status", text "Passed"), ("max_abs_error", double maxAbsError)]
  | .failed reason mismatches total =>
    .object [("status", text "Failed"), ("reason", text reason),
      ("mismatches", .array (mismatches.map ofMismatch)), ("total_mismatches", nat total)]

def ofMeasurement (m : Measurement) : Json :=
  .object [("kernel", text m.kernel), ("variant", text m.variant.name),
    ("capability", text m.capability.name), ("size", nat m.size), ("shape", text m.shape),
    ("ticks", word m.ticks), ("seconds", double m.seconds), ("iterations", nat m.iterations),
    ("precision", text m.precision.name), ("verdict", ofVerdict m.verdict)]

def ofBlockSample (s : BlockSample) : Json :=
  .object [("bytes", nat s.bytes), ("total_bytes", nat s.totalBytes), ("ticks", word s.ticks)]

def ofBlockTrace (t : BlockTrace) : Json :=
  .object [("kernel", text t.kernel), ("samples", .array (t.samples.map ofBlockSample))]

/-- The block traces are left out if there are none. -/
def ofReport (r : Report) : Json :=
  .object ([("capability", text r.capability.name), ("timer", text r.timer),
    ("precision", text r.precision.name), ("ticks_per_second", double r.ticksPerSecond),
    ("measurements", .array (r.measurements.map ofMeasurement))]
    ++ if r.blockTrace.isEmpty then []
      else [("block_trace", .array (r.blockTrace.map ofBlockTrace))])

/-- The report as a document with one item per line. -/
def reportText (r : Report) : String := (ofReport r).pretty

def ofShape (s : Shape) : Json :=
  .object [("capability", text s.capability.name), ("size", nat s.size), ("steps", nat s.steps)]

def ofTiling (t : MatrixMultiply.Tiling) : Json :=
  .object [("tile_m", nat t.rows), ("tile_n", nat t.columns), ("tile_k", nat t.terms)]

def ofTolerance (t : Tolerance) : Json :=
  .object [("abs_eps", single t.absolute), ("rel_eps", single t.relative)]

def ofElapsed (e : Elapsed) : Json :=
  .object [("ticks", word e.ticks), ("ticks_per_second", double e.ticksPerSecond)]

def ofFill : Fill → Json
  | .sequential => text "Sequential"
  | .seeded seed => .object [("Seeded", word seed)]

/-- A configuration is written without its fill. -/
def ofConfig (c : Sweep.Config) : Json :=
  .object [("capability", text c.capability.name), ("sizes", .array (c.sizes.map nat)),
    ("tolerance", ofTolerance c.tolerance), ("steps", nat c.steps),
    ("iterations", nat c.iterations), ("max_reported", nat c.maxReported)]

/-! ## Readers -/

def capability? : Json → Option Capability := Json.choice? Capability.all Capability.name

def elementType? : Json → Option ElementType := Json.choice? ElementType.all ElementType.name

def variant? : Json → Option Variant := Json.choice? Variant.all Variant.name

def precision? : Json → Option Precision := Json.choice? Precision.all Precision.name

def phase? : Json → Option Phase := Json.choice? Phase.all Phase.name

def word? (j : Json) : Option UInt64 := (Json.word? j).map UInt64.ofNat

/-- The name of the sequential fill, or an object with the seed. -/
def fill? : Json → Option Fill
  | .object [(key, seed)] => do
    match ← Json.spelled? key with
    | "Seeded" => return .seeded (← word? seed)
    | "Sequential" => match seed with
      | .null => return .sequential
      | _ => none
    | _ => none
  | .string quoted => do
    guard ((← Json.spelled? quoted) = "Sequential")
    return .sequential
  | _ => none

def shape? (j : Json) : Option Shape := do
  let [c, size, steps] ← Json.record? ["capability", "size", "steps"] j | none
  return ⟨← capability? c, ← Json.word? size, ← Json.word? steps⟩

def tiling? (j : Json) : Option MatrixMultiply.Tiling := do
  let [rows, columns, terms] ← Json.record? ["tile_m", "tile_n", "tile_k"] j | none
  return ⟨← Json.word? rows, ← Json.word? columns, ← Json.word? terms⟩

def tolerance? (j : Json) : Option Tolerance := do
  let [absolute, relative] ← Json.record? ["abs_eps", "rel_eps"] j | none
  return ⟨← Json.single? absolute, ← Json.single? relative⟩

def mismatch? (j : Json) : Option Mismatch := do
  let [index, expected, actual] ← Json.record? ["index", "expected", "actual"] j | none
  return ⟨← Json.word? index, ← Json.text? expected, ← Json.text? actual⟩

/-- A verdict that stands inside `outer` containers. -/
def verdictIn? (outer : Nat) (j : Json) : Option Verdict := do
  let (status, fields) ← Json.tagged? "status" outer j
  match status with
  | "Passed" =>
    let [error] ← Json.record? ["max_abs_error"] fields | none
    return .passed (← Json.double? error)
  | "Failed" =>
    let [reason, mismatches, total] ←
      Json.record? ["reason", "mismatches", "total_mismatches"] fields | none
    return .failed (← Json.text? reason) (← Json.list? mismatch? mismatches) (← Json.word? total)
  | _ => none

def verdict? : Json → Option Verdict := verdictIn? 0

def elapsed? (j : Json) : Option Elapsed := do
  let [ticks, rate] ← Json.record? ["ticks", "ticks_per_second"] j | none
  return ⟨← word? ticks, ← Json.double? rate⟩

def blockSample? (j : Json) : Option BlockSample := do
  let [bytes, total, ticks] ← Json.record? ["bytes", "total_bytes", "ticks"] j | none
  return ⟨← Json.word? bytes, ← Json.word? total, ← word? ticks⟩

def blockTrace? (j : Json) : Option BlockTrace := do
  let [kernel, samples] ← Json.record? ["kernel", "samples"] j | none
  return ⟨← Json.text? kernel, ← Json.list? blockSample? samples⟩

/-- A measurement that stands inside `outer` containers. -/
def measurementIn? (outer : Nat) (j : Json) : Option Measurement := do
  let [kernel, variant, capability, size, shape, ticks, seconds, iterations, precision, verdict] ←
    Json.record? ["kernel", "variant", "capability", "size", "shape", "ticks", "seconds",
      "iterations", "precision", "verdict"] j | none
  return {
    kernel := ← Json.text? kernel
    variant := ← variant? variant
    capability := ← capability? capability
    size := ← Json.word? size
    shape := ← Json.text? shape
    ticks := ← word? ticks
    seconds := ← Json.double? seconds
    iterations := ← Json.word? iterations
    precision := ← precision? precision
    verdict := ← verdictIn? (outer + 1) verdict }

def measurement? : Json → Option Measurement := measurementIn? 0

/-- A report; the block traces may be missing. -/
def report? (j : Json) : Option Report := do
  let [some capability, some timer, some precision, some rate, some measurements, traces] ←
    Json.fields? ["capability", "timer", "precision", "ticks_per_second", "measurements",
      "block_trace"] j | none
  return {
    capability := ← capability? capability
    timer := ← Json.text? timer
    precision := ← precision? precision
    ticksPerSecond := ← Json.double? rate
    measurements := ← Json.list? (measurementIn? 2) measurements
    blockTrace := ← match traces with
      | some traces => Json.list? blockTrace? traces
      | none => some [] }

end Microbench.Codec
