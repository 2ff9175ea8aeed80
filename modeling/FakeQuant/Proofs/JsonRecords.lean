import FakeQuant.Json.Form
import FakeQuant.Proofs.JsonNumbers
import Mathlib.Data.List.TakeWhile

/-!
# Written lists, objects and names are read back

What the readers of JSON do with a text that was written: a plain name in quotes, a list or object
over several lines, and a compact object. The items are read one after the other, each up to the
comma, the line break or the bracket behind it. For a list over several lines this is `list_spread`;
for a compact object, whose entries take a reader through several states, it is `Consumes`, from
which `foldItems_entries` follows. A record of two fields is read from an object with the fields
in either order and from a list of the two (`pair_spread`, `pair_objectChars`, `pair_listChars`).
-/

namespace FakeQuant.Json

/-! ### Blanks, strings and brackets -/

/-- Blanks only. -/
def AllBlank (text : List Char) : Prop :=
  text.all isBlank = true

theorem allBlank_newline (steps : Nat) : AllBlank (newline steps) := by
  rw [AllBlank, List.all_eq_true, newline]
  intro c hc
  rcases List.mem_cons.1 hc with rfl | hc
  · rfl
  · rw [List.eq_of_mem_replicate hc]
    rfl

/-- Blanks in front do not matter to what looks for the next token. -/
theorem peek_blanks {blanks : List Char} (h : AllBlank blanks) (text : List Char) :
    peek (blanks ++ text) = peek text := by
  have hdrop : (blanks ++ text).dropWhile isBlank = text.dropWhile isBlank := by
    induction blanks with
    | nil => rfl
    | cons b blanks ih =>
      rw [AllBlank, List.all_cons, Bool.and_eq_true] at h
      rw [List.cons_append, List.dropWhile_cons_of_pos h.1]
      exact ih h.2
  rw [peek_eq, peek_eq, hdrop]

theorem peek_blanks_cons {blanks : List Char} (h : AllBlank blanks) {c : Char} {text : List Char}
    (hc : isBlank c = false) : peek (blanks ++ c :: text) = .ok (c, c :: text) := by
  rw [peek_blanks h, peek_cons hc]

theorem expect_blanks {blanks : List Char} (h : AllBlank blanks) {c : Char} {text : List Char}
    (hc : isBlank c = false) : expect c (blanks ++ c :: text) = .ok ((), text) := by
  rw [expect, bind_eq_of_ok (peek_blanks_cons h hc), if_pos rfl]
  rfl

/-- Characters that stand for themselves in a string are taken up to the closing quote. -/
theorem quotedRest_append {cs : List Char}
    (hcs : ∀ c ∈ cs, c ≠ '"' ∧ c ≠ '\\' ∧ ¬ c.toNat < 0x20) (rest : List Char) {bound : Nat}
    (hbound : cs.length < bound) : quotedRest bound (cs ++ '"' :: rest) = .ok (cs, rest) := by
  induction cs generalizing bound with
  | nil =>
    obtain ⟨bound, rfl⟩ := Nat.exists_eq_add_one_of_ne_zero (Nat.ne_zero_of_lt hbound)
    rfl
  | cons c cs ih =>
    obtain ⟨bound, rfl⟩ := Nat.exists_eq_add_one_of_ne_zero (Nat.ne_zero_of_lt hbound)
    obtain ⟨hquote, hslash, hcontrol⟩ := hcs c List.mem_cons_self
    have hrest := ih (fun c' hc' => hcs c' (List.mem_cons_of_mem _ hc'))
      (Nat.lt_of_succ_lt_succ hbound)
    rw [List.cons_append, quotedRest, bind_eq_of_ok (next_cons _ _), if_neg hquote, if_neg hslash,
      if_neg hcontrol, bind_eq_of_ok hrest]
    rfl

/-- Characters that stand for themselves in a string. -/
def IsPlainName (s : String) : Prop :=
  ∀ c ∈ s.toList, c ≠ '"' ∧ c ≠ '\\' ∧ ¬ c.toNat < 0x20

instance (s : String) : Decidable (IsPlainName s) :=
  decidable_of_iff
    (s.toList.all (fun c => c != '"' && c != '\\' && !decide (c.toNat < 0x20)) = true)
    (by simp [IsPlainName, and_assoc])

/-- A quoted string is read behind blanks. -/
theorem string_inQuotes {blanks : List Char} (h : AllBlank blanks) {s : String}
    (hs : IsPlainName s) (rest : List Char) :
    string (blanks ++ (inQuotes s ++ rest)) = .ok (s, rest) := by
  have htext : inQuotes s ++ rest = '"' :: (s.toList ++ '"' :: rest) := by
    simp [inQuotes]
  have hbound : s.toList.length < (s.toList ++ '"' :: rest).length + 1 := by
    rw [List.length_append]
    omega
  have hread := quotedRest_append hs rest hbound
  rw [htext, string, bind_eq_of_ok (expect_blanks h rfl), get_bind, bind_eq_of_ok hread,
    String.ofList_toList]
  rfl

/-! ### Items -/

section Items

variable {α β : Type} {close : Char} {step : β → Decoder β}

/-- A closing bracket ends the items. -/
theorem foldRest_close (hclose : isBlank close = false) {blanks : List Char} (h : AllBlank blanks)
    (bound : Nat) (state : β) (rest : List Char) :
    foldRest close step (bound + 1) state (blanks ++ close :: rest) = .ok (state, rest) := by
  rw [foldRest, bind_eq_of_ok (peek_blanks_cons h hclose), if_pos rfl]
  rfl

/-- A comma goes on to the next item. -/
theorem foldRest_comma (hclose : close ≠ ',') (bound : Nat) (state : β) (text : List Char) :
    foldRest close step (bound + 1) state (',' :: text)
      = (step state >>= foldRest close step bound) text := by
  rw [foldRest, bind_eq_of_ok (peek_cons rfl), if_neg (Ne.symm hclose), if_pos rfl]
  rfl

/-- The items begin with a first one unless the closing bracket is there. -/
theorem foldItems_cons (step : β → Decoder β) {blanks : List Char} (h : AllBlank blanks) {c : Char}
    (hc : isBlank c = false) (hclose : c ≠ close) (state : β) (text : List Char) :
    foldItems close step state (blanks ++ c :: text)
      = (do
          let state ← step state
          foldRest close step ((← get).length + 1) state : Decoder β) (c :: text) := by
  rw [foldItems, bind_eq_of_ok (peek_blanks_cons h hc), if_neg hclose]

theorem foldItems_nil (hclose : isBlank close = false) (state : β) (rest : List Char) :
    foldItems close step state (close :: rest) = .ok (state, rest) := by
  rw [foldItems, bind_eq_of_ok (peek_cons hclose), if_pos rfl]
  rfl

/-- What stands behind the first of some items. -/
def tailChars (steps : Nat) (items : List (List Char)) : List Char :=
  items.flatMap fun item => ',' :: (newline (steps + 1) ++ item)

theorem separated_cons (item : List Char) (items : List (List Char)) :
    separated (item :: items) = item ++ items.flatMap (',' :: ·) := by
  induction items generalizing item with
  | nil => simp [separated]
  | cons next items ih =>
    rw [separated, ih, List.flatMap_cons, List.cons_append]
    exact List.cons_ne_nil _ _

/-- A list or object over several lines, from its first item on. -/
theorem spread_cons (opening close : Char) (steps : Nat) (item : List Char)
    (items : List (List Char)) (rest : List Char) :
    spread opening close steps (item :: items) ++ rest =
      opening :: (newline (steps + 1) ++
        (item ++ (tailChars steps items ++ (newline steps ++ close :: rest)))) := by
  rw [spread, List.isEmpty_cons, if_neg Bool.false_ne_true, List.map_cons, separated_cons,
    List.flatMap_map, tailChars]
  simp

theorem endsNumber_newline (steps : Nat) (rest : List Char) :
    EndsNumber (newline steps ++ rest) where
  noDigit := fun c hc => by cases hc; rfl
  no_point := by simp [newline]
  no_mark := by simp [newline]
  no_upper_mark := by simp [newline]

/-- Behind an item comes a comma or a line break. -/
theorem endsNumber_tailChars (steps : Nat) (items : List (List Char)) (rest : List Char) :
    EndsNumber (tailChars steps items ++ (newline steps ++ rest)) := by
  cases items with
  | nil => exact endsNumber_newline steps rest
  | cons item items =>
    exact {
      noDigit := fun c hc => by cases hc; rfl
      no_point := by simp [tailChars]
      no_mark := by simp [tailChars]
      no_upper_mark := by simp [tailChars] }

/-- Every item takes a comma. -/
theorem length_le_flatMap_comma (f : α → List Char) (items : List α) :
    items.length ≤ (items.flatMap fun item => ',' :: f item).length := by
  induction items with
  | nil => exact Nat.zero_le _
  | cons item items ih =>
    rw [List.flatMap_cons, List.length_append, List.length_cons, List.length_cons]
    omega

/-- How an item of a list is read: behind blanks, up to what cannot continue a number. -/
structure ReadsBack (item : Decoder α) (chars : List Char) (x : α) : Prop where
  read : ∀ blanks rest, AllBlank blanks → EndsNumber rest →
    item (blanks ++ (chars ++ rest)) = .ok (x, rest)
  head : ∃ c cs, chars = c :: cs ∧ isBlank c = false ∧ c ≠ ']'

/-- The items behind the first one are read in their order, the last one ending up in front. -/
theorem foldRest_items {item : Decoder α} {chars : α → List Char} {xs : List α}
    (h : ∀ x ∈ xs, ReadsBack item (chars x) x) (steps : Nat) (rest : List Char) {bound : Nat}
    (hbound : xs.length < bound) (found : List α) :
    foldRest ']' (fun items => return (← item) :: items) bound found
        (tailChars steps (xs.map chars) ++ (newline steps ++ ']' :: rest))
      = .ok (xs.reverse ++ found, rest) := by
  induction xs generalizing bound found with
  | nil =>
    obtain ⟨bound, rfl⟩ := Nat.exists_eq_add_one_of_ne_zero (Nat.ne_zero_of_lt hbound)
    exact foldRest_close rfl (allBlank_newline steps) bound found rest
  | cons x xs ih =>
    obtain ⟨bound, rfl⟩ := Nat.exists_eq_add_one_of_ne_zero (Nat.ne_zero_of_lt hbound)
    have hread := (h x List.mem_cons_self).read (newline (steps + 1)) _ (allBlank_newline _)
      (endsNumber_tailChars steps (xs.map chars) (']' :: rest))
    have hstep := bind_eq_of_ok (f := fun x => (pure (x :: found) : Decoder (List α))) hread
    have hrest := ih (fun y hy => h y (List.mem_cons_of_mem _ hy))
      (Nat.lt_of_succ_lt_succ hbound) (x :: found)
    have htext : tailChars steps ((x :: xs).map chars) ++ (newline steps ++ ']' :: rest)
        = ',' :: (newline (steps + 1) ++ (chars x ++
            (tailChars steps (xs.map chars) ++ (newline steps ++ ']' :: rest)))) := by
      simp [tailChars]
    rw [htext, foldRest_comma (by decide), bind_eq_of_ok hstep, hrest, List.reverse_cons,
      List.append_assoc]
    rfl

/-- A list over several lines is read back. -/
theorem list_spread {item : Decoder α} {chars : α → List Char} {xs : List α}
    (h : ∀ x ∈ xs, ReadsBack item (chars x) x) (steps : Nat) {blanks : List Char}
    (hblanks : AllBlank blanks) (rest : List Char) :
    list item (blanks ++ (spread '[' ']' steps (xs.map chars) ++ rest)) = .ok (xs, rest) := by
  cases xs with
  | nil =>
    have hfold : foldItems ']' (fun items => return (← item) :: items) [] (']' :: rest)
        = .ok ([], rest) := foldItems_nil rfl [] rest
    show list item (blanks ++ '[' :: (']' :: rest)) = _
    rw [list, bind_eq_of_ok (peek_blanks_cons hblanks rfl), if_pos rfl, modify_tail_bind,
      bind_eq_of_ok hfold]
    rfl
  | cons x xs =>
    obtain ⟨c, cs, hcs, hblank, hc⟩ := (h x List.mem_cons_self).head
    have hread := (h x List.mem_cons_self).read [] _ rfl
      (endsNumber_tailChars steps (xs.map chars) (']' :: rest))
    have hstep := bind_eq_of_ok (f := fun x => (pure [x] : Decoder (List α))) hread
    have hbound : xs.length
        < (tailChars steps (xs.map chars) ++ (newline steps ++ ']' :: rest)).length + 1 := by
      have hlength := length_le_flatMap_comma (newline (steps + 1) ++ ·) (xs.map chars)
      rw [List.length_map, ← tailChars] at hlength
      rw [List.length_append]
      omega
    have hrest := foldRest_items (fun y hy => h y (List.mem_cons_of_mem _ hy)) steps rest hbound [x]
    rw [List.map_cons, spread_cons, list, bind_eq_of_ok (peek_blanks_cons hblanks rfl), if_pos rfl,
      modify_tail_bind]
    have hfold := foldItems_cons (fun items => return (← item) :: items)
      (allBlank_newline (steps + 1)) hblank hc []
      (cs ++ (tailChars steps (xs.map chars) ++ (newline steps ++ ']' :: rest)))
    rw [← List.cons_append, ← hcs] at hfold
    rw [List.nil_append] at hstep
    rw [bind_eq_of_ok (hfold.trans ((bind_eq_of_ok hstep).trans ((get_bind _ _).trans hrest))),
      List.reverse_append, List.reverse_reverse]
    rfl

/-! ### Compact items -/

/-- The steps over some items lead from one state to another. Each item is read up to what cannot
continue a number. -/
inductive Consumes (step : β → Decoder β) : β → List (List Char) → β → Prop where
  | nil (state : β) : Consumes step state [] state
  | cons {state next final : β} {item : List Char} {items : List (List Char)}
      (read : ∀ rest, EndsNumber rest → step state (item ++ rest) = .ok (next, rest))
      (tail : Consumes step next items final) : Consumes step state (item :: items) final

theorem endsNumber_comma (rest : List Char) : EndsNumber (',' :: rest) where
  noDigit := fun c hc => by cases hc; rfl
  no_point := by simp
  no_mark := by simp
  no_upper_mark := by simp

theorem endsNumber_close (hclose : close = ']' ∨ close = '\x7d') (rest : List Char) :
    EndsNumber (close :: rest) := by
  rcases hclose with rfl | rfl
  · exact ⟨fun c hc => by cases hc; rfl, by simp, by simp, by simp⟩
  · exact ⟨fun c hc => by cases hc; rfl, by simp, by simp, by simp⟩

/-- Items behind a first one are read up to the closing bracket: by induction on the steps. -/
theorem foldRest_of_consumes (hclose : close = ']' ∨ close = '\x7d') {state final : β}
    {items : List (List Char)} (h : Consumes step state items final) (rest : List Char)
    {bound : Nat} (hbound : items.length < bound) :
    foldRest close step bound state (items.flatMap (',' :: ·) ++ close :: rest)
      = .ok (final, rest) := by
  induction h generalizing bound with
  | nil state =>
    obtain ⟨bound, rfl⟩ := Nat.exists_eq_add_one_of_ne_zero (Nat.ne_zero_of_lt hbound)
    have hblank : isBlank close = false := by rcases hclose with rfl | rfl <;> rfl
    exact foldRest_close hblank (show AllBlank [] from rfl) bound state rest
  | @cons state next final item items read tail ih =>
    obtain ⟨bound, rfl⟩ := Nat.exists_eq_add_one_of_ne_zero (Nat.ne_zero_of_lt hbound)
    have hcomma : close ≠ ',' := by rcases hclose with rfl | rfl <;> decide
    have hends : EndsNumber (items.flatMap (',' :: ·) ++ close :: rest) := by
      cases items with
      | nil => exact endsNumber_close hclose rest
      | cons item items => exact endsNumber_comma _
    have hread := read _ hends
    rw [List.flatMap_cons, List.cons_append, List.cons_append, List.append_assoc,
      foldRest_comma hcomma, bind_eq_of_ok hread]
    exact ih (Nat.lt_of_succ_lt_succ hbound)

/-- Compact items are read up to the closing bracket, from a first one on that begins with neither a
blank nor that bracket. -/
theorem foldItems_of_consumes (hclose : close = ']' ∨ close = '\x7d') {state final : β} {c : Char}
    {cs : List Char} {items : List (List Char)} (hblank : isBlank c = false) (hc : c ≠ close)
    (h : Consumes step state ((c :: cs) :: items) final) (rest : List Char) :
    foldItems close step state (separated ((c :: cs) :: items) ++ close :: rest)
      = .ok (final, rest) := by
  cases h with
  | @cons _ next _ _ _ read tail =>
    have hbound : items.length
        < (items.flatMap (',' :: ·) ++ close :: rest).length + 1 := by
      have hlength := length_le_flatMap_comma id items
      rw [List.length_append]
      dsimp only [id] at hlength
      omega
    have hfirst : EndsNumber (items.flatMap (',' :: ·) ++ close :: rest) := by
      cases items with
      | nil => exact endsNumber_close hclose rest
      | cons item items => exact endsNumber_comma _
    have hread := read _ hfirst
    have hrest := foldRest_of_consumes hclose tail rest hbound
    rw [separated_cons, List.append_assoc]
    refine (foldItems_cons step (show AllBlank [] from rfl) hblank hc state _).trans ?_
    exact (bind_eq_of_ok hread).trans ((get_bind _ _).trans hrest)

/-- An entry of an object as it is written. -/
def entryChars (entry : String × List Char) : List Char :=
  inQuotes entry.1 ++ ':' :: entry.2

theorem entryChars_append (key : String) (chars rest : List Char) :
    entryChars (key, chars) ++ rest = inQuotes key ++ ':' :: (chars ++ rest) := by
  simp [entryChars]

theorem objectChars_append (entries : List (String × List Char)) (rest : List Char) :
    objectChars entries ++ rest
      = '\x7b' :: (separated (entries.map entryChars) ++ '\x7d' :: rest) := by
  show '\x7b' :: (separated (entries.map entryChars) ++ ['\x7d']) ++ rest = _
  simp

/-- The entries of a compact object are read up to the closing bracket. -/
theorem foldItems_entries {state final : β} {key : String} {chars : List Char}
    {entries : List (String × List Char)}
    (h : Consumes step state (((key, chars) :: entries).map entryChars) final)
    (rest : List Char) :
    foldItems '\x7d' step state
      (separated (((key, chars) :: entries).map entryChars) ++ '\x7d' :: rest)
        = .ok (final, rest) :=
  foldItems_of_consumes (.inr rfl) rfl (by decide) h rest

end Items

/-! ### Keys -/

/-- A key in quotes is read behind blanks. -/
theorem key_bind {β : Type} {key : String} (hkey : IsPlainName key) {blanks : List Char}
    (hblanks : AllBlank blanks) (f : String → Decoder β) (text : List Char) :
    (string >>= f) (blanks ++ (inQuotes key ++ ':' :: text)) = f key (':' :: text) :=
  bind_eq_of_ok (string_inQuotes hblanks hkey (':' :: text))

theorem entryChars_bind {β : Type} {key : String} (hkey : IsPlainName key)
    (f : String → Decoder β) (chars rest : List Char) :
    (string >>= f) (entryChars (key, chars) ++ rest) = f key (':' :: (chars ++ rest)) := by
  rw [entryChars_append]
  exact key_bind hkey (show AllBlank [] from rfl) f (chars ++ rest)

theorem colon_bind {β : Type} (f : Unit → Decoder β) (text : List Char) :
    (colon >>= f) (':' :: text) = f () text :=
  bind_eq_of_ok (expect_cons rfl)

/-! ### Records of two fields -/

section Pair

variable {α : Type} {item : Decoder α} {first second : String} {a b : α}

/-- The first field is read while it is not there. -/
theorem pairEntry_first (hfirst : IsPlainName first) (other : Option α) {blanks : List Char}
    (hblanks : AllBlank blanks) {text rest : List Char} (hitem : item text = .ok (a, rest)) :
    pairEntry first second item (none, other) (blanks ++ (inQuotes first ++ ':' :: text))
      = .ok ((some a, other), rest) := by
  rw [pairEntry, key_bind hfirst hblanks, if_pos rfl]
  show (colon >>= fun _ => item >>= fun a => pure (some a, other)) (':' :: text) = _
  rw [colon_bind, bind_eq_of_ok hitem]
  rfl

/-- So is the second field. -/
theorem pairEntry_second (hsecond : IsPlainName second) (hne : second ≠ first) (other : Option α)
    {blanks : List Char} (hblanks : AllBlank blanks) {text rest : List Char}
    (hitem : item text = .ok (b, rest)) :
    pairEntry first second item (other, none) (blanks ++ (inQuotes second ++ ':' :: text))
      = .ok ((other, some b), rest) := by
  rw [pairEntry, key_bind hsecond hblanks, if_neg hne, if_pos rfl]
  show (colon >>= fun _ => item >>= fun b => pure (other, some b)) (':' :: text) = _
  rw [colon_bind, bind_eq_of_ok hitem]
  rfl

/-- An object over several lines with two fields in their order is read back. -/
theorem pair_spread (hfirst : IsPlainName first) (hsecond : IsPlainName second)
    (hne : second ≠ first) {charsA charsB : List Char}
    (ha : ∀ rest, item (charsA ++ rest) = .ok (a, rest))
    (hb : ∀ rest, item (charsB ++ rest) = .ok (b, rest)) (rest : List Char) :
    pair first second item
        (spread '\x7b' '\x7d' 0
          [inQuotes first ++ ':' :: charsA, inQuotes second ++ ':' :: charsB] ++ rest)
      = .ok ((a, b), rest) := by
  -- the text from the second field on, and what reading it does
  have htail : tailChars 0 [inQuotes second ++ ':' :: charsB] ++ (newline 0 ++ '\x7d' :: rest)
      = ',' :: (newline 1 ++
          (inQuotes second ++ ':' :: (charsB ++ (newline 0 ++ '\x7d' :: rest)))) := by
    simp [tailChars]
  have hsecondEntry := pairEntry_second hsecond hne (some a) (allBlank_newline 1)
    (hb (newline 0 ++ '\x7d' :: rest))
  generalize newline 1 ++ (inQuotes second ++ ':' :: (charsB ++ (newline 0 ++ '\x7d' :: rest)))
    = tail at htail hsecondEntry
  have hrest : foldRest '\x7d' (pairEntry first second item) ((',' :: tail).length + 1)
      (some a, none) (',' :: tail) = .ok ((some a, some b), rest) := by
    rw [List.length_cons, foldRest_comma (by decide), bind_eq_of_ok hsecondEntry]
    exact foldRest_close rfl (allBlank_newline 0) _ _ _
  have hfold : foldItems '\x7d' (pairEntry first second item) (none, none)
      (newline 1 ++ (inQuotes first ++ ':' :: charsA ++ (',' :: tail)))
        = .ok ((some a, some b), rest) := by
    have hfirstEntry : pairEntry first second item (none, none)
        (inQuotes first ++ ':' :: (charsA ++ ',' :: tail)) = .ok ((some a, none), ',' :: tail) :=
      pairEntry_first hfirst none (show AllBlank [] from rfl) (ha (',' :: tail))
    have hclose : '"' ≠ '\x7d' := by decide
    have hitems := foldItems_cons (pairEntry first second item) (allBlank_newline 1) rfl hclose
      (none, none) (first.toList ++ ['"'] ++ (':' :: charsA ++ (',' :: tail)))
    refine Eq.trans ?_ (hitems.trans ?_)
    · simp [inQuotes]
    · have htext : '"' :: (first.toList ++ ['"'] ++ (':' :: charsA ++ (',' :: tail)))
          = inQuotes first ++ ':' :: (charsA ++ (',' :: tail)) := by simp [inQuotes]
      rw [htext, bind_eq_of_ok hfirstEntry, get_bind, hrest]
  rw [spread_cons, htail, pair, bind_eq_of_ok (peek_cons rfl), if_pos rfl, modify_tail_bind,
    bind_eq_of_ok hfold]
  rfl

/-- A compact object is read as a record if its entries give both fields. -/
theorem pair_of_consumes {key : String} {chars : List Char} {entries : List (String × List Char)}
    (h : Consumes (pairEntry first second item) (none, none)
      (((key, chars) :: entries).map entryChars) (some a, some b)) (rest : List Char) :
    pair first second item (objectChars ((key, chars) :: entries) ++ rest)
      = .ok ((a, b), rest) := by
  have hfold := foldItems_entries h rest
  rw [objectChars_append, pair, bind_eq_of_ok (peek_cons rfl), if_pos rfl, modify_tail_bind,
    bind_eq_of_ok hfold]
  rfl

/-- A compact object with the two fields in either order is read back. -/
theorem pair_objectChars (hfirst : IsPlainName first) (hsecond : IsPlainName second)
    (hne : second ≠ first) {charsA charsB : List Char} (ha : ReadsBack item charsA a)
    (hb : ReadsBack item charsB b) (rest : List Char) :
    pair first second item (objectChars [(first, charsA), (second, charsB)] ++ rest)
        = .ok ((a, b), rest) ∧
      pair first second item (objectChars [(second, charsB), (first, charsA)] ++ rest)
        = .ok ((a, b), rest) := by
  have hreadA (other : Option α) (rest : List Char) (hrest : EndsNumber rest) :
      pairEntry first second item (none, other) (entryChars (first, charsA) ++ rest)
        = .ok ((some a, other), rest) := by
    rw [entryChars_append]
    exact pairEntry_first hfirst other (show AllBlank [] from rfl) (ha.read [] rest rfl hrest)
  have hreadB (other : Option α) (rest : List Char) (hrest : EndsNumber rest) :
      pairEntry first second item (other, none) (entryChars (second, charsB) ++ rest)
        = .ok ((other, some b), rest) := by
    rw [entryChars_append]
    exact pairEntry_second hsecond hne other (show AllBlank [] from rfl)
      (hb.read [] rest rfl hrest)
  have hinOrder : Consumes (pairEntry first second item) (none, none)
      ([(first, charsA), (second, charsB)].map entryChars) (some a, some b) :=
    .cons (hreadA none) (.cons (hreadB (some a)) (.nil _))
  have hswapped : Consumes (pairEntry first second item) (none, none)
      ([(second, charsB), (first, charsA)].map entryChars) (some a, some b) :=
    .cons (hreadB none) (.cons (hreadA (some b)) (.nil _))
  exact ⟨pair_of_consumes hinOrder rest, pair_of_consumes hswapped rest⟩

/-- A compact list of some values. -/
def listChars (items : List (List Char)) : List Char :=
  '[' :: (separated items ++ [']'])

/-- A compact list of the two fields is read back. -/
theorem pair_listChars (first second : String) {charsA charsB : List Char}
    (ha : ReadsBack item charsA a) (hb : ReadsBack item charsB b) (rest : List Char) :
    pair first second item (listChars [charsA, charsB] ++ rest) = .ok ((a, b), rest) := by
  obtain ⟨c, cs, rfl, hblank, hclose⟩ := ha.head
  have htext : listChars [c :: cs, charsB] ++ rest
      = '[' :: c :: (cs ++ ',' :: (charsB ++ ']' :: rest)) := by
    simp [listChars, separated]
  -- the reader looks for a closing bracket in front of either value
  have hreadA : item (c :: (cs ++ ',' :: (charsB ++ ']' :: rest)))
      = .ok (a, ',' :: (charsB ++ ']' :: rest)) :=
    ha.read [] (',' :: (charsB ++ ']' :: rest)) rfl (endsNumber_comma _)
  have hcomma : expect ',' (',' :: (charsB ++ ']' :: rest)) = .ok ((), charsB ++ ']' :: rest) :=
    expect_cons rfl
  have hreadB : item (charsB ++ ']' :: rest) = .ok (b, ']' :: rest) :=
    hb.read [] (']' :: rest) rfl (endsNumber_close (.inl rfl) rest)
  have hend : expect ']' (']' :: rest) = .ok ((), rest) := expect_cons rfl
  rw [htext, pair, bind_eq_of_ok (peek_cons rfl), if_neg (by decide), if_pos rfl,
    modify_tail_bind, bind_eq_of_ok (peek_cons hblank)]
  dsimp only
  rw [if_neg hclose, bind_eq_of_ok hreadA, bind_eq_of_ok (peek_cons rfl), if_neg (by decide),
    bind_eq_of_ok hcomma, bind_eq_of_ok hreadB, bind_eq_of_ok hend]
  rfl

end Pair

/-! ### Choices -/

/-- The name of an alternative without contents is read back. -/
theorem choice_inQuotes {α : Type} {plain? : String → Option α}
    {holding? : String → Option (Single → α)} {name : String} {a : α} (hname : IsPlainName name)
    (h : plain? name = some a) (rest : List Char) :
    choice plain? holding? (inQuotes name ++ rest) = .ok (a, rest) := by
  have hpeek : peek (inQuotes name ++ rest) = .ok ('"', inQuotes name ++ rest) := peek_cons rfl
  have hstring : string (inQuotes name ++ rest) = .ok (name, rest) :=
    string_inQuotes (show AllBlank [] from rfl) hname rest
  rw [choice, bind_eq_of_ok hpeek, if_pos rfl, bind_eq_of_ok hstring, h]
  rfl

/-! ### Whole texts -/

section Whole

variable {α : Type} {d : Decoder α}

/-- A text has a value exactly when the reader takes one from it and leaves nothing but blanks. -/
theorem Decoder.run_eq_ok {text : String} {a : α} :
    d.run text = .ok a ↔ ∃ rest, d text.toList = .ok (a, rest) ∧ AllBlank rest := by
  have hblank (rest : List Char) :
      (rest.dropWhile isBlank).isEmpty = true ↔ AllBlank rest := by
    rw [List.isEmpty_iff, List.dropWhile_eq_nil_iff, AllBlank, List.all_eq_true]
  have hrun : d.run text = d text.toList >>= fun taken =>
      if (taken.2.dropWhile isBlank).isEmpty then .ok taken.1 else .error .malformed := rfl
  rw [hrun]
  cases d text.toList with
  | error fault => exact ⟨(nomatch ·), fun ⟨rest, h, _⟩ => nomatch h⟩
  | ok taken =>
    obtain ⟨a', rest⟩ := taken
    show (if _ then _ else _ : Except Fault α) = _ ↔ _
    split
    · next h =>
      constructor
      · rintro ⟨⟩
        exact ⟨rest, rfl, (hblank rest).1 h⟩
      · rintro ⟨rest', ⟨⟩, -⟩
        rfl
    · next h =>
      constructor
      · rintro ⟨⟩
      · rintro ⟨rest', ⟨⟩, hrest⟩
        exact absurd ((hblank _).2 hrest) h

/-- A value that takes up a whole text is the value of the text. -/
theorem Decoder.run_ofList {chars : List Char} {a : α} (h : d chars = .ok (a, [])) :
    d.run (String.ofList chars) = .ok a :=
  run_eq_ok.2 ⟨[], by rw [String.toList_ofList, h], rfl⟩

/-- A fault in a text is the fault of the text. -/
theorem Decoder.run_eq_error {text : String} {fault : Fault} (h : d text.toList = .error fault) :
    d.run text = .error fault := by
  rw [run]
  show (d text.toList >>= _) = _
  rw [h]
  rfl

end Whole

end FakeQuant.Json
