import FakeQuant.Trace
import Mathlib.Data.List.DropRight

/-!
# Programs of nested spans

A `SpanProgram` switches a tracer on and off, clears it, and runs spans whose bodies are programs
again, to any depth. What happens during a run, moment by moment, depends on the program alone
(`SpanProgram.moments`), and so does what should be recorded of it (`recorded`): the spans that end
behind the last clearing, in the order of their ends, as far as the last switch in front of their
entry was to on.

`Follows` is what the state of a tracer has to do with the moments so far. Every moment preserves it
(`Follows.append`), and so does a run, by induction on the program (`follows_perform`). For a run of
a fresh tracer this says what is recorded (`perform_records`).
-/

namespace FakeQuant

/-! ### Programs -/

/-- What is done with a tracer, one thing after the other. The body of a span is a program, and ends
with a value. -/
inductive SpanProgram (α : Type) where
  | done
  | enable (next : SpanProgram α)
  | disable (next : SpanProgram α)
  | clear (next : SpanProgram α)
  | span (step : Step) (label : String) (body : SpanProgram α) (value : α) (next : SpanProgram α)

namespace SpanProgram

variable {α : Type}

/-- Runs a program. The result is what its spans returned, in the order of their ends. -/
def perform : SpanProgram α → Traced (List α)
  | done => return []
  | enable next => do
    modify Tracer.enable
    next.perform
  | disable next => do
    modify Tracer.disable
    next.perform
  | clear next => do
    modify Tracer.clear
    next.perform
  | span step label body value next => do
    let (inner, returned) ← FakeQuant.span step label do
      let inner ← body.perform
      return (inner, value)
    return inner ++ returned :: (← next.perform)

/-- The values of all bodies, in the order in which the bodies end. -/
def values : SpanProgram α → List α
  | done => []
  | enable next | disable next | clear next => next.values
  | span _ _ body value next => body.values ++ value :: next.values

end SpanProgram

/-! ### Moments -/

/-- What was measured. -/
def Measurement.what (m : Measurement) : Step × String :=
  (m.step, m.label)

/-- What happens at one moment of a run. -/
inductive Moment where
  | enabled
  | disabled
  | cleared
  /-- A span is entered. -/
  | entered
  /-- The body of a span ends, which was entered behind so many moments. -/
  | ended (step : Step) (label : String) (entry : Nat)
deriving DecidableEq

namespace Moment

/-- The new position of the switch, if this is a moment that sets it. -/
def switch? : Moment → Option Bool
  | enabled => some true
  | disabled => some false
  | cleared | entered | ended .. => none

end Moment

/-- Whether tracing is on behind these moments: the last switch was to on. At first it is off. -/
def isOn (moments : List Moment) : Bool :=
  (moments.filterMap Moment.switch?).getLast? == some true

/-- The span that ends at a moment, if tracing was on in front of its entry. -/
def Moment.span? (moments : List Moment) : Moment → Option (Step × String)
  | ended step label entry => if isOn (moments.take entry) then some (step, label) else none
  | enabled | disabled | cleared | entered => none

/-- What should be recorded of a run: of what happens behind the last clearing, the ends of the
spans that were entered while tracing was on. -/
def recorded (moments : List Moment) : List (Step × String) :=
  (moments.rtakeWhile (· ≠ .cleared)).filterMap (Moment.span? moments)

/-- The moments of a run that starts behind so many others. -/
def SpanProgram.moments {α : Type} (past : Nat) : SpanProgram α → List Moment
  | done => []
  | enable next => .enabled :: next.moments (past + 1)
  | disable next => .disabled :: next.moments (past + 1)
  | clear next => .cleared :: next.moments (past + 1)
  | span step label body _ next =>
    let inner := body.moments (past + 1)
    .entered :: (inner ++ .ended step label past :: next.moments (past + inner.length + 2))

/-! ### The tracer follows the moments -/

theorem isOn_append_of_switch? {m : Moment} {on : Bool} (h : m.switch? = some on)
    (moments : List Moment) : isOn (moments ++ [m]) = on := by
  simp [isOn, h]

theorem isOn_append_of_none {m : Moment} (h : m.switch? = none) (moments : List Moment) :
    isOn (moments ++ [m]) = isOn moments := by
  simp [isOn, h]

/-- How a tracer stands behind the moments of a run. -/
structure Follows (moments : List Moment) (t : Tracer) : Prop where
  enabled : t.enabled = isOn moments
  measurements : t.measurements.map Measurement.what = recorded moments
  /-- No span ends that was not entered before. -/
  entry_le : ∀ {step label entry}, .ended step label entry ∈ moments → entry ≤ moments.length

theorem follows_fresh : Follows [] .fresh :=
  ⟨rfl, rfl, fun h => nomatch h⟩

/-- Which span a moment ends does not change with what comes later, because the switch in front of
its entry is set by then. -/
theorem span?_append {moments : List Moment} {m : Moment}
    (hentry : ∀ {step label entry}, m = .ended step label entry → entry ≤ moments.length)
    (later : List Moment) : m.span? (moments ++ later) = m.span? moments := by
  cases m with
  | ended step label entry =>
    rw [Moment.span?, Moment.span?, List.take_append_of_le_length (hentry rfl)]
  | enabled | disabled | cleared | entered => rfl

/-- With one more moment everything is forgotten, or else what was recorded stays and the span that
ends, if one does, comes last. -/
theorem recorded_append {moments : List Moment}
    (hentry : ∀ {step label entry}, .ended step label entry ∈ moments → entry ≤ moments.length)
    (m : Moment) :
    recorded (moments ++ [m]) =
      if m = .cleared then [] else recorded moments ++ (m.span? (moments ++ [m])).toList := by
  rw [recorded, List.rtakeWhile_concat]
  by_cases hm : m = .cleared
  · simp [hm]
  · have hkept : (moments.rtakeWhile (· ≠ .cleared)).filterMap (Moment.span? (moments ++ [m])) =
        recorded moments := by
      refine List.filterMap_congr fun m' hm' => span?_append (fun hended => ?_) [m]
      exact hentry (hended ▸ (List.rtakeWhile_suffix _ _).mem hm')
    simp only [ne_eq, hm, not_false_eq_true, decide_true, if_true, if_false, List.filterMap_append,
      hkept, List.filterMap_cons, List.filterMap_nil]
    cases m.span? (moments ++ [m]) <;> rfl

namespace Follows

variable {moments : List Moment} {t t' : Tracer}

/-- One more moment: the switch is where the moment leaves it, and the tracer has recorded what the
moment records. -/
theorem append (h : Follows moments t) {m : Moment}
    (hentry : ∀ {step label entry}, m = .ended step label entry → entry ≤ moments.length)
    (henabled : t'.enabled = m.switch?.getD t.enabled)
    (hmeasurements : t'.measurements.map Measurement.what =
      if m = .cleared then []
      else t.measurements.map Measurement.what ++ (m.span? moments).toList) :
    Follows (moments ++ [m]) t' where
  enabled := by
    cases hswitch : m.switch? with
    | some on => rw [henabled, hswitch, isOn_append_of_switch? hswitch, Option.getD_some]
    | none => rw [henabled, hswitch, isOn_append_of_none hswitch, Option.getD_none, h.enabled]
  measurements := by
    rw [recorded_append h.entry_le, span?_append hentry, ← h.measurements, hmeasurements]
  entry_le := by
    intro step label entry hmem
    rw [List.length_append]
    rcases List.mem_append.1 hmem with hmem | hmem
    · exact (h.entry_le hmem).trans (Nat.le_add_right _ _)
    · exact (hentry (List.mem_singleton.1 hmem).symm).trans (Nat.le_add_right _ _)

theorem enable (h : Follows moments t) : Follows (moments ++ [.enabled]) t.enable :=
  h.append (fun h => nomatch h) rfl (List.append_nil _).symm

theorem disable (h : Follows moments t) : Follows (moments ++ [.disabled]) t.disable :=
  h.append (fun h => nomatch h) rfl (List.append_nil _).symm

theorem clear (h : Follows moments t) : Follows (moments ++ [.cleared]) t.clear :=
  h.append (fun h => nomatch h) rfl rfl

/-- Entering a span changes nothing yet. -/
theorem enter (h : Follows moments t) : Follows (moments ++ [.entered]) t :=
  h.append (fun h => nomatch h) rfl (List.append_nil _).symm

end Follows

/-- The end of a span is recorded if tracing was on in front of its entry. -/
theorem Follows.leave {past during : List Moment} {entry t : Tracer} (hentry : Follows past entry)
    (h : Follows (past ++ during) t) (step : Step) (label : String) (elapsed : Nat) :
    Follows (past ++ during ++ [.ended step label past.length])
      (if entry.enabled then t.record { step, label, elapsed } else t) := by
  have htake : (past ++ during).take past.length = past := List.take_left
  have hspan : (Moment.ended step label past.length).span? (past ++ during) =
      if entry.enabled then some (step, label) else none := by
    rw [Moment.span?, htake, hentry.enabled]
  refine h.append (fun hended => ?_) ?_ ?_
  · cases hended
    rw [List.length_append]
    exact Nat.le_add_right _ _
  · split <;> rfl
  · rw [hspan]
    cases entry.enabled with
    | true => exact List.map_append
    | false => exact (List.append_nil _).symm

/-! ### Runs -/

variable {α : Type}

/-- A span runs its body, is recorded if tracing was on before that, and then comes what is next. -/
theorem run_perform_span (step : Step) (label : String) (body : SpanProgram α) (value : α)
    (next : SpanProgram α) (t : Tracer) :
    let inner := body.perform.run t
    let ended := if t.enabled then
      inner.2.record { step, label, elapsed := inner.2.clock - t.clock } else inner.2
    let others := next.perform.run ended
    (SpanProgram.span step label body value next).perform.run t =
      (inner.1 ++ value :: others.1, others.2) := by
  rw [SpanProgram.perform, StateT.run_bind, run_span]
  rfl

/-- A run follows its moments, whatever there was before it: by induction on the program, where the
body of a span runs behind the moment of its entry and what is next behind that of its end. -/
theorem follows_perform (p : SpanProgram α) {past : List Moment} {t : Tracer} (h : Follows past t) :
    Follows (past ++ p.moments past.length) (p.perform.run t).2 := by
  induction p generalizing past t with
  | done => rwa [SpanProgram.moments, List.append_nil]
  | enable next ih =>
    have hnext := ih h.enable
    rwa [List.length_append, List.append_assoc] at hnext
  | disable next ih =>
    have hnext := ih h.disable
    rwa [List.length_append, List.append_assoc] at hnext
  | clear next ih =>
    have hnext := ih h.clear
    rwa [List.length_append, List.append_assoc] at hnext
  | span step label body value next ihbody ihnext =>
    have hbody := ihbody h.enter
    rw [List.append_assoc, List.length_append] at hbody
    have hnext := ihnext (h.leave hbody step label ((body.perform.run t).2.clock - t.clock))
    have hlength : (past ++ ([Moment.entered] ++ body.moments (past.length + 1)) ++
        [Moment.ended step label past.length]).length =
          past.length + (body.moments (past.length + 1)).length + 2 := by
      simp only [List.length_append, List.length_singleton]
      omega
    rw [List.length_singleton, hlength, List.append_assoc, List.append_assoc] at hnext
    rwa [run_perform_span, SpanProgram.moments]

/-- The spans return the values of their bodies. -/
theorem perform_values (p : SpanProgram α) (t : Tracer) : (p.perform.run t).1 = p.values := by
  induction p generalizing t with
  | done => rfl
  | enable next ih => exact ih _
  | disable next ih => exact ih _
  | clear next ih => exact ih _
  | span step label body value next ihbody ihnext =>
    rw [run_perform_span, ihbody, ihnext]
    rfl

/-- **What a tracer records of a program**, for programs of spans nested to any depth that run on a
fresh tracer: the spans that were entered while tracing was on and whose bodies ended behind the
last clearing, in the order of these ends, with their own steps and labels. Every span returns the
value of its body. Whatever the body of a span does with the tracer, and whatever was there before,
the span adds itself behind what its body has left if tracing was on at its entry, and otherwise
nothing. -/
theorem perform_records (p : SpanProgram α) :
    (p.perform.run .fresh).2.measurements.map Measurement.what = recorded (p.moments 0) ∧
    (p.perform.run .fresh).1 = p.values ∧
    ∀ {β : Type} (step : Step) (label : String) (body : Traced β) (t : Tracer),
      ((span step label body).run t).1 = (body.run t).1 ∧
      ((span step label body).run t).2.measurements.map Measurement.what =
        (body.run t).2.measurements.map Measurement.what ++
          if t.enabled then [(step, label)] else [] := by
  refine ⟨(follows_perform p follows_fresh).measurements, perform_values p .fresh, ?_⟩
  intro β step label body t
  rw [run_span]
  refine ⟨rfl, ?_⟩
  cases t.enabled with
  | true => exact List.map_append
  | false => exact (List.append_nil _).symm

/-- The outer span is recorded although its body clears the tracer and switches it off; the inner
one is not, although its body switches the tracer on again. -/
example :
    let inner : SpanProgram Nat := .span .observe "inner" (.enable .done) 1 .done
    let outer : SpanProgram Nat := .span .forward "outer" (.clear (.disable inner)) 2 .done
    recorded ((SpanProgram.enable outer).moments 0) = [(.forward, "outer")] := by
  decide

end FakeQuant
