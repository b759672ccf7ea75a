import Microbench.Codec
import Microbench.Proofs.Json.Double
import Microbench.Proofs.Json.RoundTrip

/-!
# The text of a report determines the report

A report is written with some printer of numbers. All that is asked of the printer is that a finite
number is printed as a number of a document and that the print determines it, sign of zero included.
Whatever the names and reasons in a report are, its document can then be read back from its text,
and the document determines the report: keys keep the fields apart, the status keeps the two kinds
of verdict apart, and escapes keep every text inside its quotes.

Results:

* `ofReport_sound`: the document of a report can be read back.
* `ofReport_injective`: the document determines the report.
* `reportText_determines`: the text determines the report.
-/
namespace Microbench

open Json (text nat word Sound IsString Faithful)

/-! ## Finite reports -/

/-- Every float is finite. -/
def Verdict.Finite : Verdict → Prop
  | .passed maxAbsError => maxAbsError.isFinite = true
  | .failed .. => True

structure Measurement.Finite (m : Measurement) : Prop where
  seconds : m.seconds.isFinite = true
  verdict : m.verdict.Finite

structure Report.Finite (r : Report) : Prop where
  rate : r.ticksPerSecond.isFinite = true
  measurements : ∀ m ∈ r.measurements, m.Finite

namespace Codec

/-! ## Documents with some printer of numbers -/

section With

variable (number : Float → Json)

def ofVerdictWith : Verdict → Json
  | .passed maxAbsError =>
    .object [("status", text "Passed"), ("max_abs_error", number maxAbsError)]
  | .failed reason mismatches total =>
    .object [("status", text "Failed"), ("reason", text reason),
      ("mismatches", .array (mismatches.map ofMismatch)), ("total_mismatches", nat total)]

def ofMeasurementWith (m : Measurement) : Json :=
  .object [("kernel", text m.kernel), ("variant", text m.variant.name),
    ("capability", text m.capability.name), ("size", nat m.size), ("shape", text m.shape),
    ("ticks", word m.ticks), ("seconds", number m.seconds), ("iterations", nat m.iterations),
    ("precision", text m.precision.name), ("verdict", ofVerdictWith number m.verdict)]

def ofReportWith (r : Report) : Json :=
  .object ([("capability", text r.capability.name), ("timer", text r.timer),
    ("precision", text r.precision.name), ("ticks_per_second", number r.ticksPerSecond),
    ("measurements", .array (r.measurements.map (ofMeasurementWith number)))]
    ++ if r.blockTrace.isEmpty then []
      else [("block_trace", .array (r.blockTrace.map ofBlockTrace))])

def reportTextWith (r : Report) : String := (ofReportWith number r).pretty

end With

/-- The printer that is used. -/
theorem reportText_eq (r : Report) : reportText r = reportTextWith Json.double r := by
  have verdict (v : Verdict) : ofVerdict v = ofVerdictWith Json.double v := by cases v <;> rfl
  have measurement : ofMeasurement = ofMeasurementWith Json.double := by
    funext m
    rw [ofMeasurement, verdict, ofMeasurementWith]
  rw [reportText, ofReport, measurement, reportTextWith, ofReportWith]

/-! ## Documents are sound -/

instance (quoted : String) : Decidable (IsString quoted) := inferInstanceAs (Decidable (_ = _))

theorem sound_text (s : String) : Sound (text s) := Json.isString_escape s.toList

theorem sound_nat (n : Nat) : Sound (nat n) := Json.isNumber_nat n

theorem sound_array {xs : List α} {f : α → Json} (h : ∀ x ∈ xs, Sound (f x)) :
    Sound (.array (xs.map f)) :=
  Json.soundItems_iff.2 (List.forall_mem_map.2 h)

section Sound

variable {number : Float → Json} (faithful : Faithful number)

include faithful

theorem sound_number {x : Float} (h : x.isFinite = true) : Sound (number x) := by
  obtain ⟨lexeme, same, token⟩ := faithful.token x h
  rw [same]
  exact token

omit faithful in
theorem ofMismatch_sound (m : Mismatch) : Sound (ofMismatch m) :=
  ⟨by decide, sound_nat _, by decide, sound_text _, by decide, sound_text _, trivial⟩

theorem ofVerdict_sound {v : Verdict} (finite : v.Finite) : Sound (ofVerdictWith number v) := by
  cases v with
  | passed maxAbsError =>
    exact ⟨by decide, sound_text _, by decide, sound_number faithful finite, trivial⟩
  | failed reason mismatches total =>
    exact ⟨by decide, sound_text _, by decide, sound_text _, by decide,
      sound_array fun m _ => ofMismatch_sound m, by decide, sound_nat _, trivial⟩

theorem ofMeasurement_sound {m : Measurement} (finite : m.Finite) :
    Sound (ofMeasurementWith number m) :=
  ⟨by decide, sound_text _, by decide, sound_text _, by decide, sound_text _, by decide,
    sound_nat _, by decide, sound_text _, by decide, sound_nat _, by decide,
    sound_number faithful finite.seconds, by decide, sound_nat _, by decide, sound_text _,
    by decide, ofVerdict_sound faithful finite.verdict, trivial⟩

omit faithful in
theorem ofBlockTrace_sound (t : BlockTrace) : Sound (ofBlockTrace t) :=
  ⟨by decide, sound_text _, by decide,
    sound_array fun _ _ => ⟨by decide, sound_nat _, by decide, sound_nat _, by decide, sound_nat _,
      trivial⟩, trivial⟩

theorem ofReport_sound {r : Report} (finite : r.Finite) : Sound (ofReportWith number r) := by
  have measurements : Sound (.array (r.measurements.map (ofMeasurementWith number))) :=
    sound_array fun m hm => ofMeasurement_sound faithful (finite.measurements m hm)
  have traces : Sound (.array (r.blockTrace.map ofBlockTrace)) :=
    sound_array fun t _ => ofBlockTrace_sound t
  have rate := sound_number faithful finite.rate
  unfold ofReportWith
  split
  · exact ⟨by decide, sound_text _, by decide, sound_text _, by decide, sound_text _, by decide,
      rate, by decide, measurements, trivial⟩
  · exact ⟨by decide, sound_text _, by decide, sound_text _, by decide, sound_text _, by decide,
      rate, by decide, measurements, by decide, traces, trivial⟩

end Sound

/-! ## Documents determine their values -/

theorem nat_injective {n m : Nat} (h : nat n = nat m) : n = m := by
  have same := Json.number.inj h
  rw [Nat.toString_eq_ofList_toDigits, Nat.toString_eq_ofList_toDigits] at same
  have digits := congrArg (Nat.ofDigitChars 10 · 0) (String.ofList_injective same)
  rwa [Nat.ofDigitChars_ten_toDigits, Nat.ofDigitChars_ten_toDigits] at digits

theorem word_injective {n m : UInt64} (h : word n = word m) : n = m :=
  UInt64.toNat_inj.1 (nat_injective h)

theorem map_injective_on {f : α → β} {xs ys : List α}
    (h : ∀ x ∈ xs, ∀ y ∈ ys, f x = f y → x = y) (same : xs.map f = ys.map f) : xs = ys := by
  induction xs generalizing ys with
  | nil => exact (List.map_eq_nil_iff.1 same.symm).symm
  | cons x xs ih =>
    cases ys with
    | nil => cases same
    | cons y ys =>
      obtain ⟨first, rest⟩ := List.cons.inj same
      rw [h x List.mem_cons_self y List.mem_cons_self first,
        ih (fun x hx y hy => h x (List.mem_cons_of_mem _ hx) y (List.mem_cons_of_mem _ hy)) rest]

theorem capability_injective {c d : Capability} (h : text c.name = text d.name) : c = d := by
  have same := Json.text_injective h
  cases c <;> cases d <;> first | rfl | exact absurd same (by decide)

theorem variant_injective {v w : Variant} (h : text v.name = text w.name) : v = w := by
  have same := Json.text_injective h
  cases v <;> cases w <;> first | rfl | exact absurd same (by decide)

theorem precision_injective {p q : Precision} (h : text p.name = text q.name) : p = q := by
  have same := Json.text_injective h
  cases p <;> cases q <;> first | rfl | exact absurd same (by decide)

theorem ofMismatch_injective {m m' : Mismatch} (h : ofMismatch m = ofMismatch m') : m = m' := by
  obtain ⟨index, expected, actual⟩ := m
  obtain ⟨index', expected', actual'⟩ := m'
  simp only [ofMismatch, Json.object.injEq, List.cons.injEq, Prod.mk.injEq, true_and, and_true] at h
  obtain ⟨h₁, h₂, h₃⟩ := h
  rw [nat_injective h₁, Json.text_injective h₂, Json.text_injective h₃]

theorem ofBlockSample_injective {s s' : BlockSample} (h : ofBlockSample s = ofBlockSample s') :
    s = s' := by
  obtain ⟨bytes, total, ticks⟩ := s
  obtain ⟨bytes', total', ticks'⟩ := s'
  simp only [ofBlockSample, Json.object.injEq, List.cons.injEq, Prod.mk.injEq, true_and, and_true]
    at h
  obtain ⟨h₁, h₂, h₃⟩ := h
  rw [nat_injective h₁, nat_injective h₂, word_injective h₃]

theorem ofBlockTrace_injective {t t' : BlockTrace} (h : ofBlockTrace t = ofBlockTrace t') :
    t = t' := by
  obtain ⟨kernel, samples⟩ := t
  obtain ⟨kernel', samples'⟩ := t'
  simp only [ofBlockTrace, Json.object.injEq, List.cons.injEq, Prod.mk.injEq, true_and, and_true,
    Json.array.injEq] at h
  obtain ⟨h₁, h₂⟩ := h
  rw [Json.text_injective h₁, map_injective_on (fun _ _ _ _ => ofBlockSample_injective) h₂]

section Injective

variable {number : Float → Json} (faithful : Faithful number)

include faithful

/-- The status tells the two kinds of verdict apart. -/
theorem ofVerdict_injective {v v' : Verdict} (finite : v.Finite) (finite' : v'.Finite)
    (h : ofVerdictWith number v = ofVerdictWith number v') : v = v' := by
  have kinds : text "Passed" ≠ text "Failed" := fun same =>
    absurd (Json.text_injective same) (by decide)
  cases v with
  | passed maxAbsError =>
    cases v' with
    | passed maxAbsError' =>
      simp only [ofVerdictWith, Json.object.injEq, List.cons.injEq, Prod.mk.injEq, true_and,
        and_true] at h
      rw [faithful.determines _ _ finite finite' h]
    | failed =>
      simp only [ofVerdictWith, Json.object.injEq, List.cons.injEq, Prod.mk.injEq, true_and] at h
      exact absurd h.1 kinds
  | failed reason mismatches total =>
    cases v' with
    | passed =>
      simp only [ofVerdictWith, Json.object.injEq, List.cons.injEq, Prod.mk.injEq, true_and] at h
      exact absurd h.1.symm kinds
    | failed reason' mismatches' total' =>
      simp only [ofVerdictWith, Json.object.injEq, List.cons.injEq, Prod.mk.injEq, true_and,
        and_true, Json.array.injEq] at h
      obtain ⟨h₁, h₂, h₃⟩ := h
      rw [Json.text_injective h₁, map_injective_on (fun _ _ _ _ => ofMismatch_injective) h₂,
        nat_injective h₃]

theorem ofMeasurement_injective {m m' : Measurement} (finite : m.Finite) (finite' : m'.Finite)
    (h : ofMeasurementWith number m = ofMeasurementWith number m') : m = m' := by
  obtain ⟨kernel, variant, capability, size, shape, ticks, s, iterations, precision, v⟩ := m
  obtain ⟨kernel', variant', capability', size', shape', ticks', s', iterations', precision', v'⟩ :=
    m'
  simp only [ofMeasurementWith, Json.object.injEq, List.cons.injEq, Prod.mk.injEq, true_and,
    and_true] at h
  obtain ⟨h₁, h₂, h₃, h₄, h₅, h₆, h₇, h₈, h₉, h₁₀⟩ := h
  have seconds : s = s' := faithful.determines _ _ finite.seconds finite'.seconds h₇
  have verdict : v = v' := ofVerdict_injective faithful finite.verdict finite'.verdict h₁₀
  rw [Json.text_injective h₁, variant_injective h₂, capability_injective h₃, nat_injective h₄,
    Json.text_injective h₅, word_injective h₆, seconds, nat_injective h₈, precision_injective h₉,
    verdict]

theorem ofReport_injective {r r' : Report} (finite : r.Finite) (finite' : r'.Finite)
    (h : ofReportWith number r = ofReportWith number r') : r = r' := by
  obtain ⟨capability, timer, precision, ticksPerSecond, measurements, traces⟩ := r
  obtain ⟨capability', timer', precision', ticksPerSecond', measurements', traces'⟩ := r'
  simp only [ofReportWith, Json.object.injEq, List.cons_append, List.nil_append, List.cons.injEq,
    Prod.mk.injEq, true_and, Json.array.injEq] at h
  obtain ⟨h₁, h₂, h₃, h₄, h₅, h₆⟩ := h
  have rate : ticksPerSecond = ticksPerSecond' :=
    faithful.determines _ _ finite.rate finite'.rate h₄
  have measured : measurements = measurements' :=
    map_injective_on (fun m hm m' hm' => ofMeasurement_injective faithful
      (finite.measurements m hm) (finite'.measurements m' hm')) h₅
  have same : traces = traces' := by
    cases traces with
    | nil =>
      cases traces' with
      | nil => rfl
      | cons => cases h₆
    | cons trace traces =>
      cases traces' with
      | nil => cases h₆
      | cons trace' traces' =>
        have documents := Json.array.inj (Prod.mk.inj (List.cons.inj h₆).1).2
        exact map_injective_on (fun _ _ _ _ => ofBlockTrace_injective) documents
  rw [capability_injective h₁, Json.text_injective h₂, precision_injective h₃, rate,
    measured, same]

end Injective

/-! ## The text -/

/-- The members of the document of a report. -/
theorem ofReport_members (number : Float → Json) (r : Report) :
    ∃ members, ofReportWith number r = .object members
      ∧ ("block_trace" ∈ members.map Prod.fst ↔ r.blockTrace ≠ []) := by
  refine ⟨_, rfl, ?_⟩
  cases r.blockTrace with
  | nil => simp
  | cons trace traces => simp

/-- The text of a report determines the report, and it has block traces exactly if the report
does. -/
theorem reportText_determines {number : Float → Json} (faithful : Faithful number)
    {r r' : Report} (finite : r.Finite) (finite' : r'.Finite) :
    (reportTextWith number r = reportTextWith number r' → r = r')
    ∧ ∃ members, Json.parse (reportTextWith number r) = some (.object members)
      ∧ ("block_trace" ∈ members.map Prod.fst ↔ r.blockTrace ≠ []) := by
  have sound := ofReport_sound faithful finite
  have sound' := ofReport_sound faithful finite'
  constructor
  · intro same
    exact ofReport_injective faithful finite finite' (Json.pretty_injective sound sound' same)
  · obtain ⟨members, document, key⟩ := ofReport_members number r
    refine ⟨members, ?_, key⟩
    rw [reportTextWith, Json.parse_pretty sound, document]

section Quoting

/-- A report with quotes and a line break in its timer's name, and with a reason that imitates the
end of its own measurement. -/
def quotingReport (rate : Float) : Report where
  capability := .vectorAdd
  timer := "bench\",\n  \"precision\": \"wall"
  precision := .cycle
  ticksPerSecond := rate
  measurements := [⟨"vadd \\ simd", .simd, .vectorAdd, 2, "2", 10, 0, 1, .cycle,
    .failed "\" \x7d ], \"block_trace\": [ \x7b \"" [⟨1, "0", "\t"⟩] 1⟩]

/-- The sign of zero is kept, and a reason is not taken for block traces. -/
theorem reportText_determines_quoting :
    ((quotingReport 0).Finite ∧ (quotingReport (-0)).Finite)
    ∧ reportText (quotingReport 0) ≠ reportText (quotingReport (-0))
    ∧ ∃ members, Json.parse (reportText (quotingReport 0)) = some (.object members)
      ∧ "block_trace" ∉ members.map Prod.fst := by
  have zero : (0 : Float).isFinite = true := by decide +kernel
  have finite : (quotingReport 0).Finite :=
    ⟨zero, fun m hm => List.mem_singleton.1 hm ▸ ⟨zero, trivial⟩⟩
  have finite' : (quotingReport (-0)).Finite := ⟨by decide +kernel, finite.measurements⟩
  obtain ⟨determines, members, parsed, key⟩ :=
    reportText_determines Json.double_faithful finite finite'
  refine ⟨⟨finite, finite'⟩, fun same => ?_, members, ?_, ?_⟩
  · rw [reportText_eq, reportText_eq] at same
    have rate : (0 : Float) = -0 := congrArg Report.ticksPerSecond (determines same)
    have sign : (0 : Float).toBits ≠ (-0 : Float).toBits := by decide +kernel
    exact sign (congrArg Float.toBits rate)
  · rw [reportText_eq, parsed]
  · exact fun traced => key.1 traced rfl

end Quoting

end Codec

end Microbench
