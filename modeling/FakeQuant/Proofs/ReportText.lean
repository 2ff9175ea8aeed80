import FakeQuant.Proofs.ReportRows
import FakeQuant.Proofs.Spellings
import Mathlib.Data.Multiset.Defs

/-!
# Reading a report

`Report.tableLines?` finds the lines of a table in a text, behind its heading, and
`Report.stepCount?` reads the step and the number in such a line. So what a report says can be read
off its text, and does not have to be taken from what it is made of: nothing in a line is a line
break (`oneLine_row`), so the lines are found again (`tableLines?_text`), and the cells of a line
are those of its row (`stepCount?_row`).

Read this way, a report accounts for every measurement once
(`report_accounts_for_measurements`).
-/

namespace FakeQuant

namespace Report

/-! ### Reading -/

/-- The lines below the heading of a table, if the text has one. -/
def tableLines? (text : String) : Option (List (List Char)) :=
  match text.toList.splitOn '\n' with
  | _title :: _total :: above :: head :: below :: lines =>
    if above = rule.toList ∧ head = heading.toList ∧ below = rule.toList then some lines.dropLast
    else none
  | _ => none

/-- The cell that starts behind some characters of a line. -/
def cell (start : Nat) (line : List Char) : List Char :=
  (line.drop start).takeWhile (· ≠ ' ')

/-- The step and the number in a line. -/
def stepCount? (line : List Char) : Option (Step × Nat) := do
  let step ← Step.ofName? (String.ofList (cell 0 line))
  let count ← naturalIn? 10 (cell 18 line)
  return (step, count)

/-- The steps and numbers of all lines of the table in a text. -/
def stepCounts? (text : String) : Option (List (Step × Nat)) := do
  (← tableLines? text).mapM stepCount?

/-! ### Lines -/

/-- There is no line break in the text. -/
def OneLine (s : String) : Prop :=
  '\n' ∉ s.toList

instance (s : String) : Decidable (OneLine s) :=
  inferInstanceAs (Decidable (_ ∉ _))

theorem OneLine.append {s t : String} (hs : OneLine s) (ht : OneLine t) : OneLine (s ++ t) := by
  rw [OneLine, String.toList_append, List.mem_append]
  exact fun h => h.elim hs ht

theorem oneLine_ofList {cs : List Char} (h : '\n' ∉ cs) : OneLine (String.ofList cs) := by
  rwa [OneLine, String.toList_ofList]

theorem oneLine_blanks (n : Nat) : OneLine (String.ofList (List.replicate n ' ')) :=
  oneLine_ofList fun h => absurd (List.eq_of_mem_replicate h) (by decide)

theorem oneLine_padRight (width : Nat) {s : String} (h : OneLine s) : OneLine (padRight width s) :=
  h.append (oneLine_blanks _)

theorem oneLine_padLeft (width : Nat) {s : String} (h : OneLine s) : OneLine (padLeft width s) :=
  (oneLine_blanks _).append h

theorem oneLine_digits {cs : List Char} (h : AllDigits cs) : OneLine (String.ofList cs) :=
  oneLine_ofList fun hmem => absurd (h _ hmem) (by decide)

theorem oneLine_integerText (n : Nat) : OneLine (integerText n) := by
  rw [integerText, integerChars_natCast]
  exact oneLine_digits (allDigits_toDigits n)

theorem oneLine_twoPlaces (q : Rat) : OneLine (twoPlaces q) := by
  have hplaces := (allDigits_replicate
    (2 - (Nat.toDigits 10 ((roundHalfEven (100 * q)).toNat % 100)).length)).append
      (allDigits_toDigits ((roundHalfEven (100 * q)).toNat % 100))
  exact ((oneLine_integerText _).append (by decide)).append (oneLine_digits hplaces)

theorem oneLine_durationText (nanoseconds : Nat) : OneLine (durationText nanoseconds) := by
  rw [durationText]
  split_ifs
  · exact (oneLine_twoPlaces _).append (by decide)
  · exact (oneLine_twoPlaces _).append (by decide)
  · exact (oneLine_twoPlaces _).append (by decide)
  · exact (oneLine_twoPlaces _).append (by decide)

theorem oneLine_name (step : Step) : OneLine step.name := by
  cases step <;> decide

theorem oneLine_row (total : Nat) (r : Row) : OneLine (r.text total) := by
  have hbar : OneLine " | " := by decide
  have hstep := oneLine_padRight 15 (oneLine_name r.step)
  have hcount := oneLine_padRight 8 (oneLine_integerText r.count)
  have helapsed := oneLine_padRight 15 (oneLine_durationText r.elapsed)
  have hshare : OneLine (padLeft 7 (percentText r.elapsed total)) :=
    oneLine_padLeft 7 (oneLine_twoPlaces _)
  exact ((((((hstep.append hbar).append hcount).append hbar).append helapsed).append hbar).append
    hshare).append (by decide)

/-- Lines with a line break behind each are found again, and nothing behind the last one. -/
theorem splitOn_lines {lines : List String} (h : ∀ line ∈ lines, OneLine line) :
    (String.join (lines.map fun line => line ++ "\n")).toList.splitOn '\n' =
      lines.map String.toList ++ [[]] := by
  rw [String.toList_join]
  induction lines with
  | nil => rfl
  | cons line rest ih =>
    have hrest := ih fun l hl => h l (List.mem_cons_of_mem _ hl)
    have hbreak : (line ++ "\n").toList = line.toList ++ ['\n'] := String.toList_append
    rw [List.map_cons, List.flatMap_cons, hbreak, List.append_assoc, List.singleton_append,
      List.splitOn_append_cons_self_of_not_mem (h line List.mem_cons_self), hrest]
    rfl

/-! ### What is read -/

theorem oneLine_lines (t : Tally) : ∀ line ∈ t.lines, OneLine line := by
  have hhead : ∀ line ∈ ["Fake quantization trace",
      "Total Measured Time: " ++ durationText t.total, rule, heading, rule], OneLine line := by
    simp only [List.forall_mem_cons]
    exact ⟨by decide, OneLine.append (by decide) (oneLine_durationText _), by decide +kernel,
      by decide +kernel, by decide +kernel, by simp⟩
  intro line hline
  rcases List.mem_append.1 hline with hline | hline
  · exact hhead line hline
  · obtain ⟨r, -, rfl⟩ := List.mem_map.1 hline
    exact oneLine_row t.total r

/-- The table of a report has one line for each row. -/
theorem tableLines?_text {ms : List Measurement} (h : ms ≠ []) :
    tableLines? (text ms) =
      some ((tally ms).rows.map fun r => (r.text (tally ms).total).toList) := by
  have hsplit := splitOn_lines (oneLine_lines (tally ms))
  rw [tableLines?, text, if_neg (by simpa using h), hsplit, Tally.lines]
  simp

/-- A cell ends at the first blank. -/
theorem cell_append (start rest : List Char) {word : List Char} (h : ' ' ∉ word) :
    cell start.length (start ++ (word ++ ' ' :: rest)) = word := by
  have hword : ∀ c ∈ word, decide (c ≠ ' ') = true := by
    intro c hc
    rw [decide_eq_true_eq]
    rintro rfl
    exact h hc
  rw [cell, List.drop_left, List.takeWhile_append_of_pos hword,
    List.takeWhile_cons_of_neg (by simp), List.append_nil]

/-- There is a blank behind a text that is filled up in front of a bar. -/
theorem exists_padRight (width : Nat) (s : String) (behind : List Char) :
    ∃ rest, (padRight width s ++ " | ").toList ++ behind = s.toList ++ ' ' :: rest := by
  rw [padRight, String.toList_append, String.toList_append, String.toList_ofList,
    List.append_assoc, List.append_assoc]
  cases width - s.length with
  | zero => exact ⟨'|' :: ' ' :: behind, rfl⟩
  | succ n => exact ⟨List.replicate n ' ' ++ (" | ".toList ++ behind), rfl⟩

/-- The cells of a line are those of its row. -/
theorem stepCount?_row (total : Nat) (r : Row) :
    stepCount? (r.text total).toList = some (r.step, r.count) := by
  let label := (padRight 15 r.step.name ++ " | ").toList
  have hlabel : label.length = 18 := by
    cases hstep : r.step <;> simp only [label, hstep] <;> decide +kernel
  have hname : ' ' ∉ r.step.name.toList := by
    cases r.step <;> decide
  have hcount : ' ' ∉ (integerText r.count).toList := by
    rw [integerText, String.toList_ofList, integerChars_natCast]
    exact fun hmem => absurd (allDigits_toDigits r.count _ hmem) (by decide)
  -- behind the label stands the number, and then a blank
  obtain ⟨behind, hline⟩ : ∃ behind, (r.text total).toList =
      label ++ ((padRight 8 (integerText r.count) ++ " | ").toList ++ behind) := by
    refine ⟨(padRight 15 (durationText r.elapsed) ++ " | "
      ++ padLeft 7 (percentText r.elapsed total) ++ "%").toList, ?_⟩
    simp only [Row.text, label, String.toList_append, List.append_assoc]
  obtain ⟨rest, hrest⟩ := exists_padRight 8 (integerText r.count) behind
  obtain ⟨rest', hrest'⟩ :=
    exists_padRight 15 r.step.name ((integerText r.count).toList ++ ' ' :: rest)
  have hcell : cell 0 (r.text total).toList = r.step.name.toList := by
    rw [hline, hrest, hrest']
    exact cell_append [] rest' hname
  have hcell' : cell 18 (r.text total).toList = (integerText r.count).toList := by
    rw [hline, hrest, ← hlabel]
    exact cell_append label rest hcount
  have hread : naturalIn? 10 (integerText r.count).toList = some r.count := by
    rw [integerText, String.toList_ofList, integerChars_natCast,
      naturalIn?_ten Nat.toDigits_ne_nil (allDigits_toDigits _), digitsValue_toDigits]
  rw [stepCount?, hcell, hcell', hread, String.ofList_toList, Step.ofName?_name]
  rfl

/-- The table of a report says the step and the number of every row. -/
theorem stepCounts?_text {ms : List Measurement} (h : ms ≠ []) :
    stepCounts? (text ms) = some ((tally ms).rows.map fun r => (r.step, r.count)) := by
  have hrows (rows : List Row) :
      (rows.map fun r => (r.text (tally ms).total).toList).mapM stepCount? =
        some (rows.map fun r => (r.step, r.count)) := by
    induction rows with
    | nil => rfl
    | cons r rest ih =>
      rw [List.map_cons, List.mapM_cons, stepCount?_row, ih]
      rfl
  rw [stepCounts?, tableLines?_text h]
  exact hrows _

/-- **A report accounts for every measurement once.** Read off its text, the report of some
measurements shows every step that occurs, once, with the number of its measurements, and no other
step; these numbers add up to the number of all measurements. In another order the measurements have
the same lines, up to the order of the lines. Without measurements the text is the notice, and there
is no table. -/
theorem report_accounts_for_measurements :
    (∀ ms : List Measurement, ms ≠ [] → ∃ entries, stepCounts? (text ms) = some entries ∧
      (entries.map Prod.fst).Nodup ∧
      (∀ step, step ∈ entries.map Prod.fst ↔ step ∈ ms.map Measurement.step) ∧
      (∀ entry ∈ entries, entry.2 = ms.countP fun m => m.step = entry.1) ∧
      (entries.map Prod.snd).sum = ms.length) ∧
    (∀ ms ms' : List Measurement, ms.Perm ms' →
      (tableLines? (text ms)).map Multiset.ofList = (tableLines? (text ms')).map Multiset.ofList) ∧
    text [] = nothingRecorded ∧ tableLines? (text []) = none := by
  refine ⟨?_, ?_, rfl, by decide +kernel⟩
  · intro ms hms
    have hsteps : (((tally ms).rows.map fun r => (r.step, r.count)).map Prod.fst).Perm
        (ms.map Measurement.step).dedup := by
      have hperm := (rows_perm ms).map Row.step
      rw [List.map_map] at hperm ⊢
      exact hperm.trans (List.Perm.of_eq (List.map_id _))
    have hcounts : (((tally ms).rows.map fun r => (r.step, r.count)).map Prod.snd).Perm
        ((ms.map Measurement.step).dedup.map (countOf ms)) := by
      have hperm := (rows_perm ms).map Row.count
      rwa [List.map_map] at hperm ⊢
    refine ⟨_, stepCounts?_text hms, ?_, ?_, ?_, ?_⟩
    · exact hsteps.nodup_iff.2 (List.nodup_dedup _)
    · intro step
      rw [hsteps.mem_iff, List.mem_dedup]
    · intro entry hentry
      obtain ⟨r, hr, rfl⟩ := List.mem_map.1 hentry
      have hrow := ((accounts_tally ms).mem_rows.1 hr).2
      have hcount : r.count = countOf ms r.step := congrArg Row.count hrow
      rw [hcount, countOf_eq_countP]
    · rw [hcounts.sum_eq, sum_countOf]
  · intro ms ms' hperm
    by_cases hms : ms = []
    · subst hms
      rw [List.nil_perm.1 hperm]
    · have hms' : ms' ≠ [] := fun h => hms (List.perm_nil.1 (h ▸ hperm))
      rw [tableLines?_text hms, tableLines?_text hms', total_of_perm hperm]
      exact congrArg some (Multiset.coe_eq_coe.2 ((rows_perm_of_perm hperm).map _))

/-- One way forward and two ways back, and the same in the opposite order. -/
theorem report_accounts_for_measurements_of_three :
    let ms : List Measurement :=
      [⟨.forward, "fwd", 30⟩, ⟨.backward, "bwd", 20⟩, ⟨.backward, "bwd", 20⟩]
    (ms ≠ [] ∧ ms.Perm ms.reverse) ∧
      (∃ entries, stepCounts? (text ms) = some entries ∧ (entries.map Prod.fst).Nodup ∧
        (∀ step, step ∈ entries.map Prod.fst ↔ step = .forward ∨ step = .backward) ∧
        (∀ n, (Step.backward, n) ∈ entries → n = 2) ∧ (entries.map Prod.snd).sum = 3) ∧
      (tableLines? (text ms)).map Multiset.ofList =
        (tableLines? (text ms.reverse)).map Multiset.ofList := by
  intro ms
  have hms : ms ≠ [] := List.cons_ne_nil _ _
  have hperm : ms.Perm ms.reverse := (List.reverse_perm ms).symm
  obtain ⟨hreport, horder, -, -⟩ := report_accounts_for_measurements
  obtain ⟨entries, hentries, hnodup, hsteps, hcounts, hsum⟩ := hreport ms hms
  refine ⟨⟨hms, hperm⟩, ⟨entries, hentries, hnodup, ?_, ?_, hsum⟩, horder ms ms.reverse hperm⟩
  · intro step
    rw [hsteps step]
    cases step <;> decide
  · intro n hn
    exact hcounts _ hn

end Report

end FakeQuant
