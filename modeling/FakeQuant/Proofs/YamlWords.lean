import FakeQuant.Yaml.Document
import Mathlib.Data.Option.Basic

/-!
# Scanning plain words

A plain word has no blanks, breaks and colons, and it starts like a plain scalar (`IsWord`). The
scanners are followed from one token to the next: each lemma says which value a scanner gives and at
which place it stops, for a text that starts with what it takes and goes on with what it stops at.

So a word in front of a colon is a key (`node_key`), and a word in front of a line break is a value
(`plainScalar_newline`), which may have a tag of the document's own in front (`properties_tag`).
-/

namespace FakeQuant.Yaml

/-! ### Running scanners -/

/-- What comes behind a step that succeeds. -/
theorem bind_eq_of_some {σ α β : Type} {m : StateT σ Option α} {f : α → StateT σ Option β}
    {s s' : σ} {a : α} (h : m s = some (a, s')) : (m >>= f) s = f a s' := by
  simp only [bind, StateT.bind, Option.bind, h]

theorem get_bind {β : Type} (f : Cursor → Scanner β) (c : Cursor) :
    ((get : Scanner Cursor) >>= f) c = f c c := rfl

theorem modify_bind {β : Type} (g : Cursor → Cursor) (f : Unit → Scanner β) (c : Cursor) :
    ((modify g : Scanner Unit) >>= f) c = f () (g c) := rfl

theorem guard_bind {β : Type} {p : Prop} [Decidable p] (hp : p) (f : Unit → Scanner β)
    (c : Cursor) : ((guard p : Scanner Unit) >>= f) c = f () c := by
  rw [guard, if_pos hp]
  rfl

theorem lift_bind {α β : Type} {o : Option α} {a : α} (h : o = some a) (f : α → Scanner β)
    (c : Cursor) : ((liftM o : Scanner α) >>= f) c = f a c := by
  rw [h]
  rfl

/-! ### Words -/

/-- The characters of words: no blanks and breaks, and no colon. -/
def isWordChar (c : Char) : Bool :=
  isAllowed c && !isBlank c && !isBreak c && c != ':' && c != byteOrderMark

/-- A word that is a plain scalar. -/
structure IsWord (cs : List Char) : Prop where
  chars : ∀ c ∈ cs, isWordChar c = true
  starts : startsPlain false cs = true

instance (cs : List Char) : Decidable (IsWord cs) :=
  decidable_of_iff (cs.all isWordChar = true ∧ startsPlain false cs = true)
    ⟨fun h => ⟨List.all_eq_true.1 h.1, h.2⟩, fun h => ⟨List.all_eq_true.2 h.chars, h.starts⟩⟩

/-- What a word character is not. -/
theorem isWordChar_iff {c : Char} : isWordChar c = true ↔
    isAllowed c = true ∧ isBlank c = false ∧ isBreak c = false ∧ c ≠ ':' ∧ c ≠ byteOrderMark := by
  simp [isWordChar, and_assoc]

/-- A character in front with a meaning: no blank, break or comment. -/
def Meaningful (text : List Char) : Prop :=
  ∀ c ∈ text.head?, isBlank c = false ∧ isBreak c = false ∧ c ≠ '#'

/-- The indicators that no plain scalar starts with. -/
def isBarred (c : Char) : Bool :=
  isIndicator c && c != '-' && c != '?' && c != ':'

theorem ne_of_startsPlain {text : List Char} {c x : Char}
    (h : startsPlain false (c :: text) = true) (hx : isBarred x = true) : c ≠ x := by
  rintro rfl
  simp only [isBarred, Bool.and_eq_true, bne_iff_ne] at hx
  obtain ⟨⟨⟨hindicator, hhyphen⟩, hquestion⟩, hcolon⟩ := hx
  rw [startsPlain, if_neg hhyphen, if_neg (not_or.2 ⟨hquestion, hcolon⟩), hindicator,
    Bool.not_true, Bool.and_false] at h
  cases h

/-- A word starts a plain scalar whatever follows. -/
theorem startsPlain_append {cs : List Char} (h : startsPlain false cs = true) (rest : List Char) :
    startsPlain false (cs ++ rest) = true := by
  match cs, h with
  | [c], h =>
    rw [startsPlain] at h
    rw [List.cons_append, startsPlain]
    split at h
    · cases h
    · rename_i hhyphen
      rw [if_neg hhyphen]
      split at h
      · cases h
      · rename_i hother
        rwa [if_neg hother]
  | c :: d :: cs, h => exact h

namespace IsWord

variable {cs : List Char}

theorem ne_nil (h : IsWord cs) : cs ≠ [] := by
  rintro rfl
  exact absurd h.starts (by decide)

/-- A word has a first character, which is not barred. -/
theorem head?_append (h : IsWord cs) (rest : List Char) {x : Char} (hx : isBarred x = true) :
    (cs ++ rest).head? ≠ some x := by
  obtain ⟨c, cs, rfl⟩ := List.exists_cons_of_ne_nil h.ne_nil
  intro hhead
  exact ne_of_startsPlain h.starts hx (Option.some.inj hhead)

theorem meaningful_append (h : IsWord cs) (rest : List Char) : Meaningful (cs ++ rest) := by
  obtain ⟨d, ds, rfl⟩ := List.exists_cons_of_ne_nil h.ne_nil
  intro c hc
  cases hc
  obtain ⟨-, hblank, hbreak, -⟩ := isWordChar_iff.1 (h.chars d List.mem_cons_self)
  exact ⟨hblank, hbreak, ne_of_startsPlain h.starts rfl⟩

end IsWord

/-! ### Blanks and breaks -/

/-- What has a meaning is not moved over. -/
private theorem tokenFrom_meaningful {text : List Char} (h : Meaningful text) (c : Cursor) :
    Cursor.tokenFrom false false c text = c.withRest text := by
  cases text with
  | nil => rfl
  | cons ch text =>
    obtain ⟨hblank, hbreak, hcomment⟩ := h ch rfl
    have hreturn : ch ≠ '\r' := by
      rintro rfl
      cases hbreak
    simp only [isBlank, Bool.or_eq_false_iff, beq_eq_false_iff_ne] at hblank
    simp [Cursor.tokenFrom, hbreak, hblank, hcomment, hreturn]

theorem toToken_meaningful {c : Cursor} (h : Meaningful c.rest) : toToken false c = some ((), c) :=
  congrArg (fun c => some ((), c)) (tokenFrom_meaningful h c)

/-- A blank is moved over. -/
theorem toToken_blank {rest : List Char} {line column offset : Nat} {keyAllowed : Bool}
    (h : Meaningful rest) :
    toToken false ⟨' ' :: rest, line, column, offset, keyAllowed⟩
      = some ((), ⟨rest, line, column + 1, offset + 1, keyAllowed⟩) :=
  congrArg (fun c => some ((), c))
    (tokenFrom_meaningful h (Cursor.shift ⟨' ' :: rest, line, column, offset, keyAllowed⟩ 1))

/-- No gap is in front of what has a meaning. -/
private theorem gapFrom_meaningful {text : List Char} (h : Meaningful text) (indent : Nat) (g : Gap)
    (c : Cursor) : gapFrom indent g c text = some (g, c.withRest text) := by
  cases text with
  | nil => rfl
  | cons ch text =>
    obtain ⟨hblank, hbreak, -⟩ := h ch rfl
    have hreturn : ch ≠ '\r' := by
      rintro rfl
      cases hbreak
    simp [gapFrom, hbreak, hblank, hreturn]

theorem gap_meaningful {c : Cursor} (h : Meaningful c.rest) (indent : Nat) (g : Gap) :
    gap indent g c = some (g, c) :=
  gapFrom_meaningful h indent g c

/-- The break behind a line is a gap. -/
theorem gap_newline {rest : List Char} (h : Meaningful rest) (indent line column offset : Nat)
    (keyAllowed : Bool) :
    gap indent .empty ⟨'\n' :: rest, line, column, offset, keyAllowed⟩
      = some (Gap.empty.addBreak '\n', ⟨rest, line + 1, 0, offset + 1, keyAllowed⟩) :=
  gapFrom_meaningful h indent (Gap.empty.addBreak '\n')
    (Cursor.nextLine ⟨'\n' :: rest, line, column, offset, keyAllowed⟩ 1)

/-! ### Plain scalars -/

/-- A word is taken up to a break. -/
theorem plainWord_append {cs rest : List Char} (hcs : ∀ c ∈ cs, isWordChar c = true)
    (hrest : plainWord false rest = some []) : plainWord false (cs ++ rest) = some cs := by
  induction cs with
  | nil => exact hrest
  | cons c cs ih =>
    obtain ⟨-, hblank, hbreak, hcolon, -⟩ := isWordChar_iff.1 (hcs c List.mem_cons_self)
    rw [List.cons_append, plainWord, hblank, hbreak]
    simp only [Bool.or_self, Bool.false_eq_true, if_false, if_neg hcolon, Bool.false_and]
    rw [ih fun c hc => hcs c (List.mem_cons_of_mem _ hc)]
    rfl

/-- No further word ends a plain scalar. -/
theorem plainRest_end {c : Cursor} (h : plainWord false c.rest = some []) (indent bound : Nat)
    (text : List Char) (before : Gap) :
    plainRest false indent (bound + 1) text before c
      = some (text, c.setKeyAllowed before.broken) := by
  rw [plainRest, get_bind]
  split
  · rfl
  · rw [lift_bind h, modify_bind, if_pos rfl]
    rfl

/-- The place behind a word. -/
theorem advance_append (cs rest : List Char) (line column offset : Nat) (keyAllowed : Bool) :
    Cursor.advance ⟨cs ++ rest, line, column, offset, keyAllowed⟩ cs.length
      = ⟨rest, line, column + cs.length, offset + cs.length, keyAllowed⟩ := by
  simp [Cursor.advance, Cursor.shift, Cursor.withRest]

section Scalars

variable {cs rest : List Char} {line column offset : Nat} {keyAllowed : Bool}

/-- A word goes into a plain scalar, which ends at a line that is not set in far enough. -/
theorem plainRest_word {c : Cursor} {after : Gap} {indent : Nat} (hcs : IsWord cs)
    (hmark : Cursor.atMark ⟨cs ++ rest, line, column, offset, keyAllowed⟩ = false)
    (hend : plainWord false rest = some [])
    (hgap : gap indent .empty ⟨rest, line, column + cs.length, offset + cs.length, keyAllowed⟩
      = some (after, c)) (bound : Nat) (text : List Char) (before : Gap) :
    plainRest false indent (bound + 1) text before ⟨cs ++ rest, line, column, offset, keyAllowed⟩ =
      if c.column < indent then some (text ++ before.text ++ cs, c.setKeyAllowed after.broken)
      else plainRest false indent bound (text ++ before.text ++ cs) after c := by
  have hcomment : (cs ++ rest).head? ≠ some '#' := hcs.head?_append _ rfl
  rw [plainRest, get_bind, if_neg (not_or.2 ⟨ne_true_of_eq_false hmark, hcomment⟩),
    lift_bind (plainWord_append hcs.chars hend), modify_bind, if_neg hcs.ne_nil, advance_append,
    bind_eq_of_some hgap, get_bind]
  by_cases hcolumn : c.column < indent
  · rw [if_pos ⟨rfl, hcolumn⟩, if_pos hcolumn]
    rfl
  · rw [if_neg (fun h => hcolumn h.2), if_neg hcolumn]

/-- A word in front of a colon that ends it is a plain scalar. -/
theorem plainScalar_colon (hcs : IsWord cs) (hrest : atWordEnd rest = true)
    (hmark : Cursor.atMark ⟨cs ++ ':' :: rest, line, column, offset, keyAllowed⟩ = false) :
    plainScalar false 0 ⟨cs ++ ':' :: rest, line, column, offset, keyAllowed⟩
      = some (⟨cs, .plain⟩,
          ⟨':' :: rest, line, column + cs.length, offset + cs.length, false⟩) := by
  have hcolon : Meaningful (':' :: rest) := fun c hc => by cases hc; decide
  have hend : plainWord false (':' :: rest) = some [] := by
    simp [plainWord, isBlank, isBreak, hrest]
  have hlength : (cs ++ ':' :: rest).length = (cs ++ rest).length + 1 := by
    simp only [List.length_append, List.length_cons]
    omega
  -- the first round takes the word, and the second one finds none in front of the colon
  have hread : plainRest false 0 ((cs ++ ':' :: rest).length + 1) [] .empty
      ⟨cs ++ ':' :: rest, line, column, offset, keyAllowed⟩
      = some (cs, ⟨':' :: rest, line, column + cs.length, offset + cs.length, false⟩) := by
    rw [hlength, plainRest_word hcs hmark hend (gap_meaningful hcolon 0 .empty),
      if_neg (Nat.not_lt_zero _), plainRest_end hend]
    rfl
  rw [plainScalar, get_bind, bind_eq_of_some hread]
  rfl

/-- A word in front of a break is a plain scalar, if the next line is not set in. -/
theorem plainScalar_newline (hcs : IsWord cs) (hrest : Meaningful rest)
    (hmark : Cursor.atMark ⟨cs ++ '\n' :: rest, line, column, offset, keyAllowed⟩ = false) :
    plainScalar false 1 ⟨cs ++ '\n' :: rest, line, column, offset, keyAllowed⟩
      = some (⟨cs, .plain⟩, ⟨rest, line + 1, 0, offset + cs.length + 1, true⟩) := by
  have hgap := gap_newline hrest 1 line (column + cs.length) (offset + cs.length) keyAllowed
  have hread : plainRest false 1 ((cs ++ '\n' :: rest).length + 1) [] .empty
      ⟨cs ++ '\n' :: rest, line, column, offset, keyAllowed⟩
      = some (cs, ⟨rest, line + 1, 0, offset + cs.length + 1, true⟩) := by
    rw [plainRest_word hcs hmark rfl hgap, if_pos Nat.one_pos]
    rfl
  rw [plainScalar, get_bind, bind_eq_of_some hread]
  rfl

end Scalars

/-! ### Tags -/

/-- Name characters are taken up to a blank. -/
theorem takeWhile_blank {test : Char → Bool} {cs : List Char} (hcs : ∀ c ∈ cs, test c = true)
    (hblank : test ' ' = false) (rest : List Char) (line column offset : Nat)
    (keyAllowed : Bool) :
    takeWhile test ⟨cs ++ ' ' :: rest, line, column, offset, keyAllowed⟩
      = some (cs, ⟨' ' :: rest, line, column + cs.length, offset + cs.length, keyAllowed⟩) := by
  have htaken : (cs ++ ' ' :: rest).takeWhile test = cs := by
    rw [List.takeWhile_append_of_pos hcs, List.takeWhile_cons_of_neg (by simp [hblank]),
      List.append_nil]
  rw [takeWhile, get_bind]
  dsimp only
  rw [htaken, modify_bind, advance_append]
  rfl

/-- An exclamation mark and a name are a handle that is not closed. -/
theorem handle_blank {name rest : List Char} (hname : ∀ c ∈ name, isNameChar c = true)
    (line column offset : Nat) (keyAllowed : Bool) :
    handle ⟨'!' :: (name ++ ' ' :: rest), line, column, offset, keyAllowed⟩
      = some ('!' :: name,
          ⟨' ' :: rest, line, column + 1 + name.length, offset + 1 + name.length, keyAllowed⟩) := by
  have hnext : next ⟨'!' :: (name ++ ' ' :: rest), line, column, offset, keyAllowed⟩
      = some ('!', ⟨name ++ ' ' :: rest, line, column + 1, offset + 1, keyAllowed⟩) := rfl
  have htaken := takeWhile_blank hname rfl rest line (column + 1) (offset + 1) keyAllowed
  rw [handle, bind_eq_of_some hnext, guard_bind rfl, bind_eq_of_some htaken, get_bind]
  rfl

/-- A handle that is not closed is a tag of the document's own. -/
theorem tagBehind_blank {name : List Char} (hne : name ≠ [])
    (hname : ∀ c ∈ name, isNameChar c = true) (rest : List Char) (line column offset : Nat)
    (keyAllowed : Bool) :
    tagBehind standardHandles ('!' :: name) ⟨' ' :: rest, line, column, offset, keyAllowed⟩
      = some (asciiBytes ('!' :: name), ⟨' ' :: rest, line, column, offset, keyAllowed⟩) := by
  -- a closed handle ends in an exclamation mark, which is no character of a name
  have hopen : isClosed ('!' :: name) = false := by
    have hlast : ('!' :: name).getLast? = name.getLast? := List.getLast?_cons_of_ne_nil hne
    rw [isClosed, hlast, Bool.and_eq_false_iff]
    refine .inr (beq_eq_false_iff_ne.2 fun h => ?_)
    exact absurd (hname _ (List.mem_of_getLast? h)) (by decide)
  have hbytes (bound : Nat) : tagBytes false (bound + 1)
      ⟨' ' :: rest, line, column, offset, keyAllowed⟩
      = some ([], ⟨' ' :: rest, line, column, offset, keyAllowed⟩) := rfl
  have hlookup : standardHandles.lookup ['!'] = some Tag.nonSpecific := rfl
  rw [tagBehind, hopen, if_neg Bool.false_ne_true, get_bind, bind_eq_of_some (hbytes _),
    List.append_nil, List.tail_cons, if_neg, lift_bind hlookup]
  · rfl
  · obtain ⟨c, cs, rfl⟩ := List.exists_cons_of_ne_nil hne
    exact Bool.false_ne_true

/-- A tag of the document's own is taken up to the blank behind it. -/
theorem tag_blank {name rest : List Char} (hne : name ≠ [])
    (hname : ∀ c ∈ name, isNameChar c = true) (line column offset : Nat) (keyAllowed : Bool) :
    tag standardHandles false ⟨'!' :: (name ++ ' ' :: rest), line, column, offset, keyAllowed⟩
      = some (asciiBytes ('!' :: name),
          ⟨' ' :: rest, line, column + 1 + name.length, offset + 1 + name.length, keyAllowed⟩) := by
  have hsplit : tag standardHandles false
      ⟨'!' :: (name ++ ' ' :: rest), line, column, offset, keyAllowed⟩ =
      (do
        let found ← tagBehind standardHandles (← handle)
        let rest := (← get).rest
        guard (atWordEnd rest || (false && rest.head? == some ','))
        return found : Scanner Tag)
        ⟨'!' :: (name ++ ' ' :: rest), line, column, offset, keyAllowed⟩ := by
    rw [tag, get_bind]
    refine congrFun ?_ _
    split
    · rename_i h
      obtain ⟨c, cs, rfl⟩ := List.exists_cons_of_ne_nil hne
      cases h
      exact absurd (hname '<' List.mem_cons_self) (by decide)
    · rfl
  rw [hsplit, bind_eq_of_some (handle_blank hname _ _ _ _),
    bind_eq_of_some (tagBehind_blank hne hname _ _ _ _ _)]
  rfl

/-! ### Nodes -/

/-- No property starts here. -/
theorem property?_none {c : Cursor} (hanchor : c.rest.head? ≠ some '&')
    (htag : c.rest.head? ≠ some '!') (handles : Handles) (flow : Bool) (p : Properties) :
    property? handles flow p c = some (none, c) := by
  rw [property?, get_bind]
  refine congrFun (g := (pure none : Scanner (Option Properties))) ?_ c
  split
  · rename_i h
    exact absurd (by rw [h]; rfl) hanchor
  · rename_i h
    exact absurd (by rw [h]; rfl) htag
  · rfl

/-- In front of a word there are no more properties. -/
theorem propertiesFrom_word {cs rest : List Char} (hcs : IsWord cs) {c : Cursor}
    (hrest : c.rest = cs ++ rest) (handles : Handles) (s : Surroundings) (bound : Nat)
    (p : Properties) : propertiesFrom handles s (bound + 1) p c = some (p, c) := by
  have hanchor : c.rest.head? ≠ some '&' := hrest ▸ hcs.head?_append rest rfl
  have htag : c.rest.head? ≠ some '!' := hrest ▸ hcs.head?_append rest rfl
  rw [propertiesFrom, get_bind]
  split
  · rfl
  · rw [bind_eq_of_some (property?_none hanchor htag handles s.isFlow p)]
    rfl

/-- A plain scalar behind its properties is a node. -/
theorem node_plain {handles : Handles} {s : Surroundings} {c start word last : Cursor}
    {p : Properties} {content : ScalarText} (hs : s.isFlow = false)
    (htoken : toToken false c = some ((), start))
    (hproperties : properties handles s start = some (p, word)) (hpast : s.isPast word = false)
    (hmark : word.atMark = false) (hstarts : startsPlain false word.rest = true)
    (hscalar : plainScalar false s.indent word = some (content, last)) :
    node handles s c = some (.ofContent p content, last) := by
  have hhead (x : Char) (rest : List Char) (hx : isBarred x = true) : word.rest ≠ x :: rest := by
    intro h
    rw [h] at hstarts
    exact ne_of_startsPlain hstarts hx rfl
  rw [node, hs, bind_eq_of_some htoken, bind_eq_of_some hproperties, get_bind,
    if_neg (ne_true_of_eq_false hpast), guard_bind (by rw [hmark]; rfl)]
  refine (congrFun (g := (do return .ofContent p (← plainScalar false s.indent) : Scanner Node)) ?_
    word).trans (bind_eq_of_some hscalar)
  split
  · rename_i h
    exact absurd h (hhead _ _ rfl)
  · rename_i h
    exact absurd h (hhead _ _ rfl)
  · rename_i h
    exact absurd h (hhead _ _ rfl)
  · rename_i h
    exact absurd h (hhead _ _ rfl)
  · rename_i h
    exact absurd h (hhead _ _ rfl)
  · rw [if_pos hstarts]

/-- A word in front of a colon is no document mark: the colon comes too early for one, or what
follows the mark's characters is no end of a word. -/
private theorem startsTriple_colon {cs rest : List Char} {mark : Char}
    (hcs : ∀ c ∈ cs, isWordChar c = true) (hmark : mark ≠ ':') :
    Cursor.startsTriple mark (cs ++ ':' :: rest) = false := by
  have hcolon : (':' == mark) = false := beq_eq_false_iff_ne.2 hmark.symm
  match cs, hcs with
  | [], _ =>
    match rest with
    | [] | [_] => rfl
    | b :: c :: rest => simp [Cursor.startsTriple, hcolon]
  | [a], _ =>
    match rest with
    | [] => rfl
    | c :: rest => simp [Cursor.startsTriple, hcolon]
  | [a, b], _ => simp [Cursor.startsTriple, hcolon]
  | [a, b, c], _ => simp [Cursor.startsTriple, atWordEnd, isBlank, isBreak]
  | a :: b :: c :: d :: cs, hcs =>
    obtain ⟨-, hblank, hbreak, -⟩ := isWordChar_iff.1 (hcs d (by simp))
    simp [Cursor.startsTriple, atWordEnd, hblank, hbreak]

theorem atMark_colon {cs : List Char} (hcs : ∀ c ∈ cs, isWordChar c = true) (rest : List Char)
    (line column offset : Nat) (keyAllowed : Bool) :
    Cursor.atStartMark ⟨cs ++ ':' :: rest, line, column, offset, keyAllowed⟩ = false ∧
      Cursor.atEndMark ⟨cs ++ ':' :: rest, line, column, offset, keyAllowed⟩ = false := by
  simp [Cursor.atStartMark, Cursor.atEndMark, startsTriple_colon hcs]

/-- A word in front of a colon that ends it is a key. -/
theorem node_key {cs rest : List Char} (hcs : IsWord cs) (hrest : atWordEnd rest = true)
    (handles : Handles) (line column offset : Nat) (keyAllowed : Bool) :
    node handles .key ⟨cs ++ ':' :: rest, line, column, offset, keyAllowed⟩
      = some (.scalar .none ⟨cs, .plain⟩,
          ⟨':' :: rest, line, column + cs.length, offset + cs.length, false⟩) := by
  obtain ⟨hstart, hend⟩ := atMark_colon hcs.chars rest line column offset keyAllowed
  have hmark : Cursor.atMark ⟨cs ++ ':' :: rest, line, column, offset, keyAllowed⟩ = false := by
    rw [Cursor.atMark, hstart, hend]
    rfl
  exact node_plain rfl (toToken_meaningful (hcs.meaningful_append _))
    (propertiesFrom_word hcs rfl handles .key 2 .none) rfl hmark (startsPlain_append hcs.starts _)
    (plainScalar_colon hcs hrest hmark)

/-- The tag of a value is read. -/
theorem properties_tag {name rest : List Char} (hne : name ≠ [])
    (hname : ∀ c ∈ name, isNameChar c = true) {cs : List Char} (hcs : IsWord cs)
    (line column offset : Nat) (keyAllowed : Bool) :
    properties standardHandles (.value 0)
        ⟨'!' :: (name ++ ' ' :: (cs ++ rest)), line, column + 1, offset, keyAllowed⟩
      = some (⟨none, some (asciiBytes ('!' :: name))⟩,
          ⟨cs ++ rest, line, column + 1 + 1 + name.length + 1, offset + 1 + name.length + 1,
            false⟩) := by
  have hflow : (Surroundings.value 0).isFlow = false := rfl
  have hproperty : property? standardHandles false .none
      ⟨'!' :: (name ++ ' ' :: (cs ++ rest)), line, column + 1, offset, keyAllowed⟩
      = some (some ⟨none, some (asciiBytes ('!' :: name))⟩,
        ⟨' ' :: (cs ++ rest), line, column + 1 + 1 + name.length, offset + 1 + name.length,
          false⟩) := by
    rw [property?, get_bind]
    show (tag standardHandles false >>= _) _ = _
    exact bind_eq_of_some (tag_blank hne hname line (column + 1) offset keyAllowed)
  rw [properties, propertiesFrom, get_bind, if_neg (by simp [Surroundings.isPast]), hflow,
    bind_eq_of_some hproperty]
  show (toToken false >>= _) _ = _
  rw [bind_eq_of_some (toToken_blank (hcs.meaningful_append rest))]
  exact propertiesFrom_word hcs rfl _ _ 1 _

end FakeQuant.Yaml
