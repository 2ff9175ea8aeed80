import FakeQuant.Trace
import Mathlib.Algebra.BigOperators.Group.List.Lemmas
import Mathlib.Algebra.GroupWithZero.Nat
import Mathlib.Data.List.Dedup

/-!
# The rows of a report

One pass over the measurements fills two tables, durations and numbers by step. What a table holds
behind some measurements depends on them alone: the sum for every step that came, and nothing for
the others (`Sums.Collects`). Every measurement preserves this (`Sums.Collects.add`), and so the
pass does, by induction with the last measurement split off (`accounts_tally`).

So both tables have the same steps, no row is lost when they are joined, and the rows are those of
the distinct steps (`rows_perm`), in an order that the durations decide. Their numbers add up to the
number of measurements (`sum_countOf`), and neither depends on the order of the measurements.
-/

namespace FakeQuant

namespace Report

variable {ms ms' : List Measurement} {amount : Measurement → Nat} {step : Step}

/-! ### Sums by step -/

/-- What the measurements of a step add up to. -/
def sumOf (amount : Measurement → Nat) (ms : List Measurement) (step : Step) : Nat :=
  ((ms.filter fun m => m.step == step).map amount).sum

/-- How many measurements there are of a step. -/
def countOf (ms : List Measurement) (step : Step) : Nat :=
  (ms.map Measurement.step).count step

theorem countOf_eq_countP (ms : List Measurement) (step : Step) :
    countOf ms step = ms.countP fun m => m.step = step := by
  rw [countOf, List.count, List.countP_map]
  rfl

theorem sumOf_one (ms : List Measurement) (step : Step) :
    sumOf (fun _ => 1) ms step = countOf ms step := by
  rw [sumOf, countOf, List.map_const', List.sum_replicate, List.count, List.countP_map,
    List.countP_eq_length_filter]
  simp [Function.comp_def]

theorem sumOf_append (ms : List Measurement) (m : Measurement) (step : Step) :
    sumOf amount (ms ++ [m]) step =
      sumOf amount ms step + if m.step = step then amount m else 0 := by
  by_cases h : m.step = step <;> simp [sumOf, h]

/-- Nothing adds up for a step that did not come. -/
theorem sumOf_eq_zero (h : step ∉ ms.map Measurement.step) : sumOf amount ms step = 0 := by
  have hnone : ms.filter (fun m => m.step == step) = [] := by
    rw [List.filter_eq_nil_iff]
    intro m hm heq
    exact h (List.mem_map.2 ⟨m, hm, beq_iff_eq.1 heq⟩)
  rw [sumOf, hnone, List.map_nil, List.sum_nil]

theorem sumOf_perm (h : ms.Perm ms') : sumOf amount ms = sumOf amount ms' := by
  funext step
  exact ((h.filter _).map amount).sum_eq

theorem countOf_perm (h : ms.Perm ms') : countOf ms = countOf ms' := by
  funext step
  exact (h.map Measurement.step).count_eq step

/-- The numbers of the distinct steps add up to the number of all measurements. -/
theorem sum_countOf (ms : List Measurement) :
    ((ms.map Measurement.step).dedup.map (countOf ms)).sum = ms.length := by
  have hsum := List.sum_map_count_dedup_eq_length (ms.map Measurement.step)
  rwa [List.length_map] at hsum

/-! ### Tables -/

namespace Sums

variable {sums : Sums} {n : Nat}

/-- The amount of a step is the one that it is listed with. -/
theorem mem_entries_iff : (step, n) ∈ sums.entries ↔ sums.get? step = some n := by
  rw [get?, List.lookup_eq_some_iff]
  constructor
  · intro hmem
    obtain ⟨front, rest, hsplit⟩ := List.append_of_mem hmem
    refine ⟨front, rest, hsplit, ?_⟩
    -- the step does not come before, because it comes once
    have hnodup := sums.nodup
    rw [hsplit, List.map_append, List.map_cons, List.nodup_append] at hnodup
    intro entry hentry
    rw [bne_iff_ne]
    exact (hnodup.2.2 _ (List.mem_map_of_mem hentry) _ List.mem_cons_self).symm
  · rintro ⟨front, rest, hsplit, -⟩
    rw [hsplit]
    exact List.mem_append_right _ List.mem_cons_self

private theorem lookup_cons_eq (s t : Step) (k : Nat) (rest : List (Step × Nat)) :
    ((t, k) :: rest).lookup s = if s = t then some k else rest.lookup s := by
  by_cases h : s = t
  · rw [h, List.lookup_cons_self, if_pos rfl]
  · rw [List.lookup_cons, beq_eq_false_iff_ne.2 h, if_neg h]

/-- The step has more, and the others have what they had. -/
theorem get?_add (sums : Sums) (step : Step) (n : Nat) (s : Step) :
    (sums.add step n).get? s =
      if s = step then some ((sums.get? step).getD 0 + n) else sums.get? s := by
  have hentries (entries : List (Step × Nat)) : (addTo step n entries).lookup s =
      if s = step then some ((entries.lookup step).getD 0 + n) else entries.lookup s := by
    induction entries with
    | nil => simp [addTo, lookup_cons_eq]
    | cons entry rest ih =>
      obtain ⟨t, k⟩ := entry
      by_cases ht : t = step
      · by_cases hs : s = step
        · simp [addTo, ht, hs]
        · simp [addTo, lookup_cons_eq, ht, hs]
      · by_cases hs : s = step
        · simp [addTo, lookup_cons_eq, ht, Ne.symm ht, hs ▸ ih, hs]
        · simp [addTo, lookup_cons_eq, ht, ih, hs]
  exact hentries sums.entries

/-- The table holds what the measurements of each step add up to, as far as there are any. -/
def Collects (amount : Measurement → Nat) (ms : List Measurement) (sums : Sums) : Prop :=
  ∀ step, sums.get? step =
    if step ∈ ms.map Measurement.step then some (sumOf amount ms step) else none

theorem collects_empty (amount : Measurement → Nat) : Collects amount [] empty :=
  fun _ => rfl

/-- One more measurement: its step has its amount more, whether the step came before or not. -/
theorem Collects.add (h : Collects amount ms sums) (m : Measurement) :
    Collects amount (ms ++ [m]) (sums.add m.step (amount m)) := by
  intro step
  rw [get?_add, sumOf_append, h m.step, h step]
  by_cases heq : step = m.step
  · by_cases hmem : m.step ∈ ms.map Measurement.step
    · simp [heq, hmem]
    · simp [heq, hmem, sumOf_eq_zero hmem]
  · simp [heq, Ne.symm heq]

end Sums

/-! ### The pass -/

/-- What the pass has summed up behind some measurements. -/
structure Accounts (ms : List Measurement) (t : Tally) : Prop where
  elapsed : t.elapsed.Collects Measurement.elapsed ms
  counts : t.counts.Collects (fun _ => 1) ms
  total : t.total = (ms.map Measurement.elapsed).sum

theorem accounts_empty : Accounts [] .empty :=
  ⟨Sums.collects_empty _, Sums.collects_empty _, rfl⟩

/-- One more measurement goes to the duration and the number of its step, and to the whole
duration. -/
theorem Accounts.add {t : Tally} (h : Accounts ms t) (m : Measurement) :
    Accounts (ms ++ [m]) (t.add m) where
  elapsed := h.elapsed.add m
  counts := h.counts.add m
  total := by simp [Tally.add, h.total]

/-- The pass accounts for all measurements: by induction, with the last one split off. -/
theorem accounts_tally (ms : List Measurement) : Accounts ms (tally ms) := by
  induction ms using List.reverseRecOn with
  | nil => exact accounts_empty
  | append_singleton ms m ih =>
    have hlast : tally (ms ++ [m]) = (tally ms).add m := List.foldl_append
    rw [hlast]
    exact ih.add m

/-! ### The rows -/

/-- The row of a step. -/
def rowOf (ms : List Measurement) (step : Step) : Row :=
  { step, count := countOf ms step, elapsed := sumOf Measurement.elapsed ms step }

theorem rowOf_perm (h : ms.Perm ms') : rowOf ms = rowOf ms' := by
  funext step
  rw [rowOf, rowOf, countOf_perm h, sumOf_perm h]

/-- No row is lost when the tables are joined, and none is there for other steps. -/
theorem Accounts.mem_rows {t : Tally} (h : Accounts ms t) {r : Row} :
    r ∈ t.rows ↔ r.step ∈ ms.map Measurement.step ∧ r = rowOf ms r.step := by
  rw [Tally.rows, List.mem_filterMap]
  constructor
  · rintro ⟨⟨step, elapsed⟩, hentry, hrow⟩
    rw [List.mem_mergeSort, Sums.mem_entries_iff, h.elapsed step] at hentry
    by_cases hstep : step ∈ ms.map Measurement.step
    · rw [if_pos hstep] at hentry
      simp only [h.counts step, if_pos hstep, Option.map_some, Option.some.injEq, sumOf_one] at hrow
      subst hrow
      cases hentry
      exact ⟨hstep, rfl⟩
    · rw [if_neg hstep] at hentry
      cases hentry
  · rintro ⟨hstep, hrow⟩
    refine ⟨(r.step, sumOf Measurement.elapsed ms r.step), ?_, ?_⟩
    · rw [List.mem_mergeSort, Sums.mem_entries_iff, h.elapsed, if_pos hstep]
    · simp only [h.counts r.step, if_pos hstep, Option.map_some, sumOf_one]
      exact congrArg some hrow.symm

/-- A step has one row. -/
theorem nodup_rows (t : Tally) : t.rows.Nodup := by
  rw [Tally.rows]
  apply List.Nodup.filterMap
  · rintro ⟨step, elapsed⟩ ⟨step', elapsed'⟩ row hrow hrow'
    rw [Option.mem_def, Option.map_eq_some_iff] at hrow hrow'
    obtain ⟨count, -, rfl⟩ := hrow
    obtain ⟨count', -, heq⟩ := hrow'
    cases heq
    rfl
  · exact (List.mergeSort_perm _ _).nodup_iff.2 (List.Nodup.of_map _ t.elapsed.nodup)

/-- The rows are those of the distinct steps. -/
theorem rows_perm (ms : List Measurement) :
    (tally ms).rows.Perm ((ms.map Measurement.step).dedup.map (rowOf ms)) := by
  have hinjective : Function.Injective (rowOf ms) := fun s s' h => congrArg Row.step h
  have hnodup := (List.nodup_dedup (ms.map Measurement.step)).map hinjective
  rw [List.perm_ext_iff_of_nodup (nodup_rows _) hnodup]
  intro r
  simp only [(accounts_tally ms).mem_rows, List.mem_map, List.mem_dedup]
  constructor
  · rintro ⟨hstep, hrow⟩
    exact ⟨r.step, hstep, hrow.symm⟩
  · rintro ⟨step, hstep, rfl⟩
    exact ⟨hstep, rfl⟩

/-- In another order the measurements have the same rows, up to the order of the rows. -/
theorem rows_perm_of_perm (h : ms.Perm ms') : (tally ms).rows.Perm (tally ms').rows := by
  have hsteps : ((ms.map Measurement.step).dedup.map (rowOf ms)).Perm
      ((ms'.map Measurement.step).dedup.map (rowOf ms')) := by
    rw [rowOf_perm h]
    exact ((h.map Measurement.step).dedup).map _
  exact ((rows_perm ms).trans hsteps).trans (rows_perm ms').symm

theorem total_of_perm (h : ms.Perm ms') : (tally ms).total = (tally ms').total := by
  rw [(accounts_tally ms).total, (accounts_tally ms').total]
  exact (h.map Measurement.elapsed).sum_eq

end Report

end FakeQuant
