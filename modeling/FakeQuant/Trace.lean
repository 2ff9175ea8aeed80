import FakeQuant.Binary.Arithmetic
import FakeQuant.Text.Basic

/-!
# Tracing

A tracer keeps, while it is enabled, one measurement for every span of work: what kind of step it
was, a label, and how long it took. Work that can be traced is a `Traced` computation, which
carries the tracer along. Whether a span is recorded is decided when it is entered; it is recorded
when its body ends, so inner spans come before outer ones. Computations take no time of themselves:
the clock moves only where the host of the computation moves it, by `Tracer.advance`.

One pass over the measurements sums them up by step (`Report.tally`), and `Report.text` is the table
of these sums.
-/

namespace FakeQuant

/-- The stages of a fake-quantization step. -/
inductive Step where
  | observe
  | forward
  | backward
deriving DecidableEq, Repr

/-- The name in tables. -/
def Step.name : Step → String
  | observe => "Observe"
  | forward => "Forward"
  | backward => "Backward"

/-- All steps, in the order in which they are taken. -/
def Step.all : List Step :=
  [observe, forward, backward]

/-- The step with a name. -/
def Step.ofName? (name : String) : Option Step :=
  all.find? fun s => s.name == name

theorem Step.ofName?_name (s : Step) : ofName? s.name = some s := by
  cases s <;> rfl

/-- One measured span. -/
structure Measurement where
  step : Step
  label : String
  /-- The duration in nanoseconds. -/
  elapsed : Nat
deriving DecidableEq, Repr

/-- What a tracer knows: whether it records, the time in nanoseconds, and what it has recorded. -/
structure Tracer where
  enabled : Bool
  clock : Nat
  measurements : List Measurement

namespace Tracer

/-- A tracer that does not record yet. -/
def fresh : Tracer :=
  { enabled := false, clock := 0, measurements := [] }

/-- Starts recording. -/
def enable (t : Tracer) : Tracer :=
  { t with enabled := true }

/-- Stops recording. -/
def disable (t : Tracer) : Tracer :=
  { t with enabled := false }

/-- Forgets what was recorded. -/
def clear (t : Tracer) : Tracer :=
  { t with measurements := [] }

/-- Moves the clock. -/
def advance (t : Tracer) (nanoseconds : Nat) : Tracer :=
  { t with clock := t.clock + nanoseconds }

/-- Adds a measurement behind the others. -/
def record (t : Tracer) (m : Measurement) : Tracer :=
  { t with measurements := t.measurements ++ [m] }

end Tracer

/-- A computation that carries a tracer along. -/
abbrev Traced := StateM Tracer

/-- A body as one span of work. Its result is the body's. -/
def span {α : Type} (step : Step) (label : String) (body : Traced α) : Traced α := do
  let entry ← get
  let result ← body
  if entry.enabled then
    modify fun t => t.record { step, label, elapsed := t.clock - entry.clock }
  return result

/-- A span gives its body's result, and records its own measurement after all that the body records
if the tracer was enabled when it was entered. -/
theorem run_span {α : Type} (step : Step) (label : String) (body : Traced α) (t : Tracer) :
    (span step label body).run t =
      ((body.run t).1,
        if t.enabled then
          (body.run t).2.record { step, label, elapsed := (body.run t).2.clock - t.clock }
        else (body.run t).2) := by
  rw [span, StateT.run_bind, StateT.run_get, pure_bind]
  by_cases h : t.enabled = true
  · simp only [if_pos h]
    rfl
  · simp only [if_neg h]
    rfl

/-! ### The summary table -/

namespace Report

/-- Adds an amount to that of a step, which is zero as long as the step has none. A new step comes
last. -/
def addTo (step : Step) (amount : Nat) : List (Step × Nat) → List (Step × Nat)
  | [] => [(step, amount)]
  | (s, n) :: rest =>
    if s = step then (s, n + amount) :: rest else (s, n) :: addTo step amount rest

/-- The steps stay what they are, or there is a new one. -/
theorem map_fst_addTo (step : Step) (amount : Nat) (entries : List (Step × Nat)) :
    (addTo step amount entries).map Prod.fst =
      if step ∈ entries.map Prod.fst then entries.map Prod.fst
      else entries.map Prod.fst ++ [step] := by
  induction entries with
  | nil => rfl
  | cons entry rest ih =>
    obtain ⟨s, n⟩ := entry
    by_cases h : s = step
    · simp [addTo, h]
    · by_cases hrest : step ∈ rest.map Prod.fst
      · simp [addTo, h, ih, hrest]
      · simp [addTo, h, Ne.symm h, ih, hrest]

/-- Amounts by step, in the order in which the steps first came. -/
structure Sums where
  entries : List (Step × Nat)
  /-- A step has one amount. -/
  nodup : (entries.map Prod.fst).Nodup

namespace Sums

/-- No amounts. -/
def empty : Sums :=
  { entries := [], nodup := List.nodup_nil }

/-- The amount of a step. -/
def get? (sums : Sums) (step : Step) : Option Nat :=
  sums.entries.lookup step

/-- Adds an amount to that of a step. -/
def add (sums : Sums) (step : Step) (amount : Nat) : Sums where
  entries := addTo step amount sums.entries
  nodup := by
    rw [map_fst_addTo]
    split
    · exact sums.nodup
    · next h =>
      refine List.nodup_append.2 ⟨sums.nodup, by simp, ?_⟩
      intro s hs t ht
      rw [List.mem_singleton.1 ht]
      exact fun heq => h (heq ▸ hs)

end Sums

/-- What one pass over measurements sums up. -/
structure Tally where
  /-- The durations by step. -/
  elapsed : Sums
  /-- How many measurements there are of each step. -/
  counts : Sums
  /-- The whole duration. -/
  total : Nat

/-- Nothing is summed up yet. -/
def Tally.empty : Tally :=
  { elapsed := .empty, counts := .empty, total := 0 }

/-- One more measurement. -/
def Tally.add (t : Tally) (m : Measurement) : Tally where
  elapsed := t.elapsed.add m.step m.elapsed
  counts := t.counts.add m.step 1
  total := t.total + m.elapsed

/-- The sums over some measurements. -/
def tally (ms : List Measurement) : Tally :=
  ms.foldl Tally.add .empty

/-- What was recorded for one step. -/
structure Row where
  step : Step
  count : Nat
  elapsed : Nat
deriving DecidableEq, Repr

/-- The rows, longest duration first: the durations, each joined with the number of its step. -/
def Tally.rows (t : Tally) : List Row :=
  (t.elapsed.entries.mergeSort fun a b => decide (b.2 ≤ a.2)).filterMap fun (step, elapsed) =>
    (t.counts.get? step).map fun count => { step, count, elapsed }

/-- The text filled up with blanks on the right. -/
def padRight (width : Nat) (s : String) : String :=
  s ++ String.ofList (List.replicate (width - s.length) ' ')

/-- The text filled up with blanks on the left. -/
def padLeft (width : Nat) (s : String) : String :=
  String.ofList (List.replicate (width - s.length) ' ') ++ s

/-- A number with two places, halves to even. -/
def twoPlaces (q : Rat) : String :=
  let hundredths := (roundHalfEven (100 * q)).toNat
  let places := Nat.toDigits 10 (hundredths % 100)
  integerText (hundredths / 100 : Nat) ++ "." ++
    String.ofList (List.replicate (2 - places.length) '0' ++ places)

/-- A duration in the largest unit that it fills. -/
def durationText (nanoseconds : Nat) : String :=
  let n : Rat := nanoseconds
  if 1000000000 ≤ nanoseconds then twoPlaces (n / 1000000000) ++ "s"
  else if 1000000 ≤ nanoseconds then twoPlaces (n / 1000000) ++ "ms"
  else if 1000 ≤ nanoseconds then twoPlaces (n / 1000) ++ "µs"
  else twoPlaces n ++ "ns"

/-- A duration in seconds: the full seconds and the rest are rounded on their own. -/
def seconds (nanoseconds : Nat) : Double :=
  .ofInt (nanoseconds / 1000000000 : Nat) + .ofInt (nanoseconds % 1000000000 : Nat) / 1000000000

/-- The share of a duration in the total, in percent. -/
def percentText (elapsed total : Nat) : String :=
  let percent : Double := if total = 0 then 0 else seconds elapsed / seconds total * 100
  twoPlaces percent.value

/-- The line that frames the heading. -/
def rule : String :=
  String.ofList (List.replicate 64 '─')

/-- The heading. -/
def heading : String :=
  padRight 15 "Step" ++ " | " ++ padRight 8 "Count" ++ " | " ++ padRight 15 "Duration" ++ " | " ++
    padRight 8 "% Time"

/-- One line of the table. -/
def Row.text (total : Nat) (r : Row) : String :=
  padRight 15 r.step.name ++ " | " ++ padRight 8 (integerText r.count) ++ " | " ++
    padRight 15 (durationText r.elapsed) ++ " | " ++ padLeft 7 (percentText r.elapsed total) ++ "%"

/-- The notice in place of an empty table. -/
def nothingRecorded : String :=
  "No measurements recorded. Enable tracing with TRACER.enable()"

/-- The lines of the table: a title, the whole duration, the heading, and one line per step. -/
def Tally.lines (t : Tally) : List String :=
  ["Fake quantization trace", "Total Measured Time: " ++ durationText t.total, rule, heading, rule]
    ++ t.rows.map (Row.text t.total)

/-- The summary of a list of measurements. -/
def text (ms : List Measurement) : String :=
  if ms.isEmpty then nothingRecorded
  else String.join ((tally ms).lines.map fun line => line ++ "\n")

end Report

end FakeQuant
