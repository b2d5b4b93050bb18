/-
The reader of JSON texts reads the language of JSON texts, all of it and nothing
else.

The proof has the two bounds of the reader. Along one level it is about any item
and any reader for it, by the length of the text going in and by the items of
the series coming back. Between levels it is an induction on the number of
levels, in which what is assumed of the reader of one level fewer is exactly
what the series needs of the reader of its items.
-/
import EscrowFeed.Json.Reader
import EscrowFeed.Proofs.Json.Lexemes

set_option autoImplicit false

namespace EscrowFeed.Json

/-! ## What may follow a value -/

/-- A comma or a closing bracket. -/
def Mark (c : Char) : Prop := c = ',' ∨ c = ']' ∨ c = '\x7d'

theorem Mark.not_blank {c : Char} (h : Mark c) : isBlank c = false := by
  rcases h with rfl | rfl | rfl <;> rfl

/-- A text that begins with neither a digit nor a letter of numbers carries no
number on. -/
theorem noNumeral_of_head? {s : List Char}
    (h : ∀ c, s.head? = some c → c.isDigit = false ∧ c ≠ '.' ∧ c ≠ 'e' ∧ c ≠ 'E') :
    NoNumeral s :=
  ⟨fun c hc => (h c hc).1, fun hc => (h _ hc).2.1 rfl, fun hc => (h _ hc).2.2.1 rfl,
    fun hc => (h _ hc).2.2.2 rfl⟩

/-- Blanks do not carry a number on. -/
theorem Blank.noNumeral {after : List Char} (h : Blank after) : NoNumeral after := by
  apply noNumeral_of_head?
  intro c hc
  rcases h c (List.mem_of_head? hc) with rfl | rfl | rfl | rfl <;> decide

/-- Neither does a mark behind them, which is what stands behind an item. -/
theorem noNumeral_append_mark {after : List Char} (h : Blank after) {c : Char} (hc : Mark c)
    (rest : List Char) : NoNumeral (after ++ c :: rest) := by
  apply noNumeral_of_head?
  intro d hd
  cases after with
  | nil =>
    cases hd
    rcases hc with rfl | rfl | rfl <;> decide
  | cons b after =>
    cases hd
    rcases h d List.mem_cons_self with rfl | rfl | rfl | rfl <;> decide

/-! ## Series -/

section Series

variable {α : Type} {item : List Char → Option (α × List Char)} {Item : α → List Char → Prop}
variable {close : Char}

/-- A spelling with blanks before it, which is what the readers of values and of
members take. -/
def Led (Item : α → List Char → Prop) (a : α) (s : List Char) : Prop :=
  ∃ before t, Blank before ∧ Item a t ∧ s = before ++ t

/-- No spelling of an item is empty, begins with a blank, or with the bracket
that closes the series. -/
def Opens (Item : α → List Char → Prop) (close : Char) : Prop :=
  ∀ a s, Item a s → ∃ c t, s = c :: t ∧ isBlank c = false ∧ c ≠ close

/-- What is read up to a closing mark is a series, and the mark stands
behind it. -/
theorem readSeries?_sound (hitem : Reads item (Led Item) NoNumeral) {s rest : List Char}
    {items : List α} (h : readSeries? item close s = some (items, rest)) :
    ∃ t, Series Item items t ∧ s = t ++ close :: rest := by
  -- The reader goes on only with a shorter text, so the induction is on the length.
  induction hn : s.length using Nat.strongRecOn generalizing s items with
  | ind n ih =>
    rw [readSeries?] at h
    split at h
    · cases h
    · next a after hread =>
      obtain ⟨_, ⟨before, t, hbefore, ht, rfl⟩, rfl⟩ := hitem.sound hread
      obtain ⟨blanks, hblanks, hafter⟩ := exists_blank_append_skipBlank after
      split at h
      · cases h
      · next c after' hskip =>
        rw [hskip] at hafter
        split at h
        · next hclose =>
          obtain ⟨rfl, rfl⟩ := Prod.mk.inj (Option.some.inj h)
          subst hclose
          refine ⟨before ++ t ++ blanks, .one hbefore ht hblanks, ?_⟩
          rw [hafter, List.append_assoc (before ++ t)]
        · split at h
          · next hcomma =>
            obtain ⟨rfl, hlength⟩ := hcomma
            simp only [Option.bind_eq_bind, Option.bind_eq_some_iff, Prod.exists,
              Option.pure_def] at h
            obtain ⟨items, _, hmore, h⟩ := h
            obtain ⟨rfl, rfl⟩ := Prod.mk.inj (Option.some.inj h)
            obtain ⟨t', hseries, rfl⟩ := ih _ (hn ▸ hlength) hmore rfl
            refine ⟨before ++ t ++ blanks ++ ',' :: t', .more hbefore ht hblanks hseries, ?_⟩
            rw [hafter]
            simp only [List.append_assoc, List.cons_append]
          · cases h

/-- Every series is read to its closing mark. -/
theorem readSeries?_complete (hitem : Reads item (Led Item) NoNumeral) (hclose : Mark close)
    (hne : close ≠ ',') {t : List Char} {items : List α} (h : Series Item items t)
    (rest : List Char) : readSeries? item close (t ++ close :: rest) = some (items, rest) := by
  induction h with
  | @one a before s after hbefore hs hafter =>
    have hread := hitem.complete (a := a) ⟨before, s, hbefore, hs, rfl⟩
      (noNumeral_append_mark hafter hclose rest)
    rw [List.append_assoc, readSeries?, hread]
    simp only [skipBlank_append hafter, skipBlank_cons hclose.not_blank, if_true]
  | @more a items before s after t hbefore hs hafter hseries ih =>
    have hread := hitem.complete (a := a) ⟨before, s, hbefore, hs, rfl⟩
      (noNumeral_append_mark hafter (.inl rfl) (t ++ close :: rest))
    have hshape : before ++ s ++ after ++ ',' :: t ++ close :: rest
        = before ++ s ++ (after ++ ',' :: (t ++ close :: rest)) := by
      simp only [List.append_assoc, List.cons_append]
    -- The reader asks for this before it goes on; a comma has been taken, so it holds.
    have hlength : (t ++ close :: rest).length
        < (before ++ s ++ (after ++ ',' :: (t ++ close :: rest))).length := by
      simp only [List.length_append, List.length_cons]
      omega
    rw [hshape, readSeries?, hread]
    simp only [skipBlank_append hafter, skipBlank_cons (c := ',') rfl, hne.symm, if_false,
      true_and, hlength, if_true, ih, Option.bind_eq_bind, Option.bind_some, Option.pure_def]

/-- A series may be read from its first character that is not blank. -/
theorem Series.exists_blank_append (hopens : Opens Item close) {items : List α} {s : List Char}
    (h : Series Item items s) :
    ∃ before c t, Blank before ∧ s = before ++ c :: t ∧ isBlank c = false ∧ c ≠ close
      ∧ Series Item items (c :: t) := by
  cases h with
  | @one a before s after hbefore hs hafter =>
    obtain ⟨c, t, rfl, hblank, hne⟩ := hopens a s hs
    refine ⟨before, c, t ++ after, hbefore, ?_, hblank, hne, ?_⟩
    · rw [List.append_assoc, List.cons_append]
    · exact .one blank_nil hs hafter
  | @more a items before s after t hbefore hs hafter hseries =>
    obtain ⟨c, u, rfl, hblank, hne⟩ := hopens a s hs
    refine ⟨before, c, u ++ after ++ ',' :: t, hbefore, ?_, hblank, hne, ?_⟩
    · simp only [List.append_assoc, List.cons_append]
    · exact .more blank_nil hs hafter hseries

/-- A series does not begin with what would close it. -/
theorem Series.head?_skipBlank_ne (hopens : Opens Item close) {items : List α} {s : List Char}
    (h : Series Item items s) (rest : List Char) :
    (skipBlank (s ++ rest)).head? ≠ some close := by
  obtain ⟨before, c, t, hbefore, rfl, hblank, hne, -⟩ := h.exists_blank_append hopens
  rw [List.append_assoc, skipBlank_append hbefore, List.cons_append, skipBlank_cons hblank]
  exact fun hc => hne (Option.some.inj hc)

theorem Series.singleton {a : α} {s : List Char} (h : Series Item [a] s) :
    ∃ before t after, Blank before ∧ Item a t ∧ Blank after ∧ s = before ++ t ++ after := by
  cases h with
  | one hbefore ht hafter => exact ⟨_, _, _, hbefore, ht, hafter, rfl⟩
  | more _ _ _ hseries => cases hseries

theorem Series.blank_append {before s : List Char} {items : List α} (hbefore : Blank before)
    (h : Series Item items s) : Series Item items (before ++ s) := by
  cases h with
  | one hb hs ha =>
    rw [← List.append_assoc, ← List.append_assoc]
    exact .one (hbefore.append hb) hs ha
  | more hb hs ha hseries =>
    rw [← List.append_assoc, ← List.append_assoc, ← List.append_assoc]
    exact .more (hbefore.append hb) hs ha hseries

/-- What stands behind an opening bracket, and the bracket that closes it. -/
def Closed (Item : α → List Char → Prop) (close : Char) (items : List α) (s : List Char) : Prop :=
  ∃ inner, (items = [] ∧ Blank inner ∨ Series Item items inner) ∧ s = inner ++ [close]

/-- A list of anything that can be read can be read, with its closing mark. -/
theorem readList?_reads (hitem : Reads item (Led Item) NoNumeral) (hclose : Mark close)
    (hne : close ≠ ',') (hopens : Opens Item close) :
    Reads (readList? item close) (Closed Item close) Anything where
  sound := by
    intro s rest items h
    obtain ⟨before, hbefore, hs⟩ := exists_blank_append_skipBlank s
    rw [readList?] at h
    split at h
    · cases h
    · next c after hskip =>
      rw [hskip] at hs
      split at h
      · next heq =>
        obtain ⟨rfl, rfl⟩ := Prod.mk.inj (Option.some.inj h)
        refine ⟨before ++ [close], ⟨before, .inl ⟨rfl, hbefore⟩, rfl⟩, ?_⟩
        rw [hs, heq, List.append_assoc]
        rfl
      · -- The series was read from behind the blanks, and with them in front it is still one.
        obtain ⟨t, ht, heq⟩ := readSeries?_sound hitem h
        refine ⟨before ++ t ++ [close],
          ⟨before ++ t, .inr (ht.blank_append hbefore), rfl⟩, ?_⟩
        rw [hs, heq]
        simp only [List.append_assoc, List.cons_append, List.nil_append]
  complete := by
    rintro t rest items ⟨inner, hinner, rfl⟩ -
    rw [List.append_assoc, List.cons_append, List.nil_append]
    rcases hinner with ⟨rfl, hblank⟩ | hseries
    · rw [readList?, skipBlank_append hblank, skipBlank_cons hclose.not_blank]
      exact if_pos rfl
    · -- An item begins with neither a blank nor the mark, so the list is not taken for an empty
      -- one.
      obtain ⟨before, c, t, hbefore, rfl, hblank, hc, hstart⟩ := hseries.exists_blank_append hopens
      rw [List.append_assoc, readList?, skipBlank_append hbefore, List.cons_append,
        skipBlank_cons hblank]
      simp only [hc, if_false]
      exact readSeries?_complete hitem hclose hne hstart rest

end Series

/-! ## Scalars -/

theorem isPrefixOf?_eq_some_iff {word s rest : List Char} :
    word.isPrefixOf? s = some rest ↔ s = word ++ rest := by
  induction word generalizing s with
  | nil => exact Option.some_inj
  | cons c word ih =>
    cases s with
    | nil => exact ⟨(fun h => nomatch h), (fun h => nomatch h)⟩
    | cons d s =>
      rw [List.isPrefixOf?, List.cons_append, List.cons.injEq]
      by_cases h : c = d
      · rw [if_pos (beq_iff_eq.mpr h), ih]
        exact ⟨fun hs => ⟨h.symm, hs⟩, fun hs => hs.2⟩
      · rw [if_neg (fun hb => h (beq_iff_eq.mp hb))]
        exact ⟨(fun hs => nomatch hs), fun hs => absurd hs.1.symm h⟩

/-- A word of the language is taken as it stands. -/
theorem readWord?_eq_some_iff {word : String} {s rest : List Char} :
    readWord? word s = some rest ↔ s = word.toList ++ rest := isPrefixOf?_eq_some_iff

/-- What a word stands for is spelled by the word. -/
theorem readWord?_map_sound {word : String} {s rest : List Char} {a value : Json}
    (ha : Scalar a word.toList) (h : (readWord? word s).map (a, ·) = some (value, rest)) :
    ∃ t, Scalar value t ∧ s = t ++ rest := by
  obtain ⟨after, hread, h⟩ := Option.map_eq_some_iff.mp h
  obtain ⟨rfl, rfl⟩ := Prod.mk.inj h
  exact ⟨word.toList, ha, readWord?_eq_some_iff.mp hread⟩

/-- A numeral begins with a minus or a digit, hence with nothing else. -/
theorem Numeral.exists_cons {s : List Char} (h : Numeral s) :
    ∃ c t, s = c :: t ∧ ∀ d : Char, d.isDigit = false → d ≠ '-' → c ≠ d := by
  obtain ⟨minus, whole, fraction, exponent, hminus, ⟨⟨hne, hall⟩, -⟩, -, -, rfl⟩ := h
  rcases hminus with rfl | rfl
  · -- Without a minus the first character is the first digit.
    cases whole with
    | nil => exact absurd rfl hne
    | cons c whole =>
      refine ⟨c, _, rfl, ?_⟩
      rintro d hdigit - rfl
      rw [hall c List.mem_cons_self] at hdigit
      cases hdigit
  · exact ⟨'-', _, rfl, fun d _ hminus heq => hminus heq.symm⟩

/-- What is read behind a quote is a quoted text with it. -/
theorem exists_quoted_of_readText? {s rest content : List Char}
    (h : readText? s = some (content, rest)) :
    ∃ t, Quoted (String.ofList content) t ∧ '"' :: s = t ++ rest := by
  obtain ⟨_, ⟨inner, hinner, rfl⟩, rfl⟩ := readText?_reads.sound h
  refine ⟨'"' :: inner ++ ['"'], ⟨inner, ?_, rfl⟩, rfl⟩
  rw [String.toList_ofList]
  exact hinner

/-- A quoted text is read from behind its first quote. -/
theorem Quoted.exists_readText? {text : String} {s : List Char} (h : Quoted text s) :
    ∃ t, s = '"' :: t ∧ ∀ rest, readText? (t ++ rest) = some (text.toList, rest) := by
  obtain ⟨inner, hinner, rfl⟩ := h
  exact ⟨inner ++ ['"'], rfl, fun rest => readText?_reads.complete ⟨inner, hinner, rfl⟩ trivial⟩

/-- A value that is no container is told by its first character, and read up to
where it ends. -/
theorem readScalar?_reads : Reads readScalar? Scalar NoNumeral where
  sound := by
    intro s rest value h
    cases s with
    | nil => cases h
    | cons c s =>
      rw [readScalar?] at h
      split at h
      · next hc =>
        subst hc
        rw [Option.map_eq_some_iff] at h
        obtain ⟨⟨text, after⟩, hread, h⟩ := h
        obtain ⟨rfl, rfl⟩ := Prod.mk.inj h
        obtain ⟨_, ⟨inner, hinner, rfl⟩, rfl⟩ := readText?_reads.sound hread
        refine ⟨'"' :: inner ++ ['"'], .string ⟨inner, ?_, rfl⟩, rfl⟩
        rw [String.toList_ofList]
        exact hinner
      · split at h
        · exact readWord?_map_sound .null h
        · split at h
          · exact readWord?_map_sound .isTrue h
          · split at h
            · exact readWord?_map_sound .isFalse h
            · obtain ⟨⟨text, after⟩, hread, h⟩ := Option.map_eq_some_iff.mp h
              obtain ⟨rfl, rfl⟩ := Prod.mk.inj h
              obtain ⟨t, ⟨rfl, ht⟩, hs⟩ := readNumber?_reads.sound hread
              exact ⟨_, .number ht, hs⟩
  complete := by
    intro t rest value h hrest
    cases h with
    | null => rfl
    | isTrue => rfl
    | isFalse => rfl
    | @number s hs =>
      -- A numeral's first character is none that the other cases look for.
      obtain ⟨c, t, rfl, hne⟩ := hs.exists_cons
      have hread := readNumber?_reads.complete (a := c :: t) ⟨rfl, hs⟩ hrest
      rw [List.cons_append] at hread ⊢
      rw [readScalar?, if_neg (hne '"' rfl (by decide)), if_neg (hne 'n' rfl (by decide)),
        if_neg (hne 't' rfl (by decide)), if_neg (hne 'f' rfl (by decide)), hread]
      rfl
    | @string text s hs =>
      obtain ⟨inner, hinner, rfl⟩ := hs
      have hread : readText? (inner ++ ['"'] ++ rest) = some (text.toList, rest) :=
        readText?_reads.complete ⟨inner, hinner, rfl⟩ trivial
      rw [List.cons_append, List.cons_append, readScalar?, if_pos rfl, hread]
      simp only [Option.map_some, String.ofList_toList]

/-- The characters that a value which opens no level may begin with. -/
theorem Scalar.exists_cons {value : Json} {s : List Char} (h : Scalar value s) :
    ∃ c t, s = c :: t ∧ isBlank c = false ∧ c ≠ ']' ∧ c ≠ '[' ∧ c ≠ '\x7b' := by
  cases h with
  | null => exact ⟨'n', _, rfl, rfl, by decide, by decide, by decide⟩
  | isTrue => exact ⟨'t', _, rfl, rfl, by decide, by decide, by decide⟩
  | isFalse => exact ⟨'f', _, rfl, rfl, by decide, by decide, by decide⟩
  | number hs =>
    obtain ⟨c, t, rfl, hne⟩ := hs.exists_cons
    -- A number begins with a digit or a minus, and none of the marks is either.
    have hblank : isBlank c = false := by
      rw [Bool.eq_false_iff, ne_eq, isBlank_iff]
      rintro (h | h | h | h)
      all_goals exact hne _ (by decide) (by decide) h
    exact ⟨c, t, rfl, hblank, hne _ rfl (by decide), hne _ rfl (by decide), hne _ rfl (by decide)⟩
  | string hs =>
    obtain ⟨inner, -, rfl⟩ := hs
    exact ⟨'"', _, rfl, rfl, by decide, by decide, by decide⟩

/-! ## Values -/

/-- No value begins with a blank or a closing bracket. -/
theorem opens_spells (levels : Nat) : Opens (Spells levels) ']' := by
  intro value s h
  cases levels with
  | zero =>
    obtain ⟨c, t, rfl, hblank, hclose, -⟩ := Scalar.exists_cons h
    exact ⟨c, t, rfl, hblank, hclose⟩
  | succ levels =>
    rcases h with h | ⟨items, -, inner, -, rfl⟩ | ⟨entries, -, inner, -, rfl⟩
    · obtain ⟨c, t, rfl, hblank, hclose, -⟩ := h.exists_cons
      exact ⟨c, t, rfl, hblank, hclose⟩
    · exact ⟨'[', _, rfl, rfl, by decide⟩
    · exact ⟨'\x7b', _, rfl, rfl, by decide⟩

/-- Texts and null are spelled in one way, however many levels may be open. -/
theorem spells_iff_scalar {levels : Nat} {value : Json} {s : List Char}
    (hvalue : value = .null ∨ ∃ text, value = .string text) :
    Spells levels value s ↔ Scalar value s := by
  cases levels with
  | zero => rfl
  | succ levels =>
    constructor
    · rintro (h | ⟨items, rfl, -⟩ | ⟨entries, hentries, -⟩)
      · exact h
      · rcases hvalue with h | ⟨text, h⟩ <;> cases h
      · cases hentries <;> rcases hvalue with h | ⟨text, h⟩ <;> cases h
    · exact .inl

/-- Strings are spelled as quoted texts at every depth. -/
theorem spells_string_iff {levels : Nat} {text : String} {s : List Char} :
    Spells levels (.string text) s ↔ Quoted text s := by
  rw [spells_iff_scalar (.inr ⟨text, rfl⟩)]
  constructor
  · intro h
    cases h with
    | string hquoted => exact hquoted
  · exact .string

theorem spells_null_iff {levels : Nat} {s : List Char} :
    Spells levels .null s ↔ s = "null".toList := by
  rw [spells_iff_scalar (.inl rfl)]
  constructor
  · intro h
    cases h
    rfl
  · rintro rfl
    exact .null

/-- Every member begins with the quote of its key. -/
theorem opens_member (Value : Json → List Char → Prop) : Opens (Member Value) '\x7d' := by
  rintro entry s ⟨key, before, after, value, ⟨inner, -, rfl⟩, -, -, -, rfl⟩
  exact ⟨'"', _, rfl, rfl, by decide⟩

/-- A member is read as a quoted key, a colon and a value, with blanks where
they may stand. -/
theorem readMember?_reads {value : List Char → Option (Json × List Char)}
    {Value : Json → List Char → Prop} (hvalue : Reads value (Led Value) NoNumeral) :
    Reads (readMember? value) (Led (Member Value)) NoNumeral where
  sound := by
    intro s rest entry h
    obtain ⟨before, hbefore, hs⟩ := exists_blank_append_skipBlank s
    rw [readMember?] at h
    split at h
    · next after hskip =>
      simp only [Option.bind_eq_bind, Option.bind_eq_some_iff, Prod.exists] at h
      obtain ⟨key, afterKey, hkey, h⟩ := h
      obtain ⟨_, ⟨inner, hinner, rfl⟩, rfl⟩ := readText?_reads.sound hkey
      obtain ⟨blanks, hblanks, hafterKey⟩ := exists_blank_append_skipBlank afterKey
      split at h
      · next afterColon hcolon =>
        simp only [Option.bind_eq_some_iff, Prod.exists, Option.pure_def] at h
        obtain ⟨v, _, hread, h⟩ := h
        obtain ⟨rfl, rfl⟩ := Prod.mk.inj (Option.some.inj h)
        obtain ⟨_, ⟨blanks', t, hblanks', ht, rfl⟩, rfl⟩ := hvalue.sound hread
        have hquoted : Quoted (String.ofList key) ('"' :: inner ++ ['"']) := by
          refine ⟨inner, ?_, rfl⟩
          rw [String.toList_ofList]
          exact hinner
        refine ⟨_, ⟨before, _, hbefore,
          ⟨_, blanks, blanks', t, hquoted, hblanks, hblanks', ht, rfl⟩, rfl⟩, ?_⟩
        rw [hs, hskip, hafterKey, hcolon]
        simp only [List.append_assoc, List.cons_append, List.nil_append]
      · cases h
    · cases h
  complete := by
    rintro t rest entry ⟨before, _, hbefore,
      ⟨_, blanks, blanks', s, ⟨inner, hinner, rfl⟩, hblanks, hblanks', hs, rfl⟩, rfl⟩ hrest
    have hread := hvalue.complete (a := entry.2) ⟨blanks', s, hblanks', hs, rfl⟩ hrest
    have hkey : readText? (inner ++ ['"'] ++ (blanks ++ ':' :: (blanks' ++ s ++ rest))) =
        some (entry.1.toList, blanks ++ ':' :: (blanks' ++ s ++ rest)) :=
      readText?_reads.complete ⟨inner, hinner, rfl⟩ trivial
    -- The reader takes the parts off one by one, so the text is bracketed its way.
    have hshape : before ++ ('"' :: inner ++ ['"'] ++ blanks ++ ':' :: blanks' ++ s) ++ rest
        = before ++ '"' :: (inner ++ ['"'] ++ (blanks ++ ':' :: (blanks' ++ s ++ rest))) := by
      simp only [List.append_assoc, List.cons_append]
    rw [hshape, readMember?, skipBlank_append hbefore, skipBlank_cons rfl]
    simp only [hkey, Option.bind_eq_bind, Option.bind_some, skipBlank_append hblanks,
      skipBlank_cons (c := ':') rfl, hread, Option.pure_def, String.ofList_toList]

/-- What the entries of an object make of it. -/
theorem ofMembers?_eq_some_iff {entries : List (String × Json)} {value : Json} :
    ofMembers? entries = some value ↔ OfEntries entries value := by
  constructor
  · intro h
    unfold ofMembers? at h
    split at h
    · rw [← Option.some.inj h]
      exact .object (fun entry hentry => nomatch hentry) (Members.lastOfEach_iff.mpr rfl)
    · next key v rest =>
      split at h
      · next hkey =>
        split at h
        · next text =>
          split at h
          · next hnumber =>
            have hs := isNumber_iff.mp hnumber
            rw [← Option.some.inj h, hkey, ← String.ofList_toList (s := text)]
            exact .number hs
          · cases h
        · cases h
      · next hkey =>
        rw [← Option.some.inj h]
        refine .object (fun entry hentry => ?_) (Members.lastOfEach_iff.mpr rfl)
        rw [← Option.some.inj hentry]
        exact hkey
  · intro h
    cases h with
    | @number s hs =>
      have hnumber : isNumber (String.ofList s) = true := by
        rw [isNumber_iff, String.toList_ofList]
        exact hs
      rw [ofMembers?, if_pos rfl]
      exact if_pos hnumber
    | object hfirst hlast =>
      -- The first key is not the one that stands for a number, and no later one is looked at.
      rw [Members.lastOfEach_iff.mp hlast]
      cases entries with
      | nil => rfl
      | cons entry rest =>
        unfold ofMembers?
        exact if_neg (hfirst entry rfl)

/-- Blanks before the first character of a value belong to no value. -/
theorem led_of_skipBlank {α : Type} {Item : α → List Char → Prop} {s rest t : List Char} {a : α}
    (h : Item a t) (hs : skipBlank s = t ++ rest) : ∃ u, Led Item a u ∧ s = u ++ rest := by
  obtain ⟨before, hbefore, heq⟩ := exists_blank_append_skipBlank s
  refine ⟨before ++ t, ⟨before, t, hbefore, h, rfl⟩, ?_⟩
  rw [heq, hs, List.append_assoc]

/-- Between braces the entries are found first, and what they make is what is
read. They may also make nothing. -/
theorem readValue?_bracketed {levels : Nat}
    (hlevels : Reads (readValue? levels) (Led (Spells levels)) NoNumeral)
    {entries : List (String × Json)} {s : List Char}
    (h : Bracketed (Member (Spells levels)) '\x7b' '\x7d' entries s) (rest : List Char) :
    readValue? (levels + 1) (s ++ rest) = (ofMembers? entries).map (·, rest) := by
  obtain ⟨inner, hinner, rfl⟩ := h
  have hobject := readList?_reads (readMember?_reads hlevels) (.inr (.inr rfl)) (by decide)
    (opens_member _)
  have hread : readList? (readMember? (readValue? levels)) '\x7d' (inner ++ ['\x7d'] ++ rest) =
      some (entries, rest) := hobject.complete ⟨inner, hinner, rfl⟩ trivial
  rw [readValue?, List.cons_append, List.cons_append, skipBlank_cons rfl]
  simp only [hread, Option.bind_eq_bind, Option.bind_some, Option.pure_def]
  rw [Option.map_eq_bind]
  rfl

/-- **The reader of values** takes exactly the spellings of the values that open
no more levels than it has. The induction is on the levels: what holds of one
level fewer is what a series needs of the reader of its items. -/
theorem readValue?_reads (levels : Nat) :
    Reads (readValue? levels) (Led (Spells levels)) NoNumeral := by
  -- The induction is on the levels: a container reads its items with one less.
  induction levels with
  | zero =>
    constructor
    · intro s rest value h
      obtain ⟨t, ht, hs⟩ := readScalar?_reads.sound h
      exact led_of_skipBlank (show Spells 0 value t from ht) hs
    · rintro t rest value ⟨before, s, hbefore, hs, rfl⟩ hrest
      obtain ⟨c, t, rfl, hblank, -⟩ := Scalar.exists_cons hs
      have hread := readScalar?_reads.complete hs hrest
      rw [List.append_assoc, readValue?, skipBlank_append hbefore, List.cons_append,
        skipBlank_cons hblank]
      exact hread
  | succ levels ih =>
    have harray := readList?_reads ih (.inr (.inl rfl)) (by decide) (opens_spells levels)
    have hobject := readList?_reads (readMember?_reads ih) (.inr (.inr rfl)) (by decide)
      (opens_member _)
    constructor
    · intro s rest value h
      rw [readValue?] at h
      split at h
      · next after hskip =>
        obtain ⟨⟨items, _⟩, hread, h⟩ := Option.map_eq_some_iff.mp h
        obtain ⟨rfl, rfl⟩ := Prod.mk.inj h
        obtain ⟨_, ⟨inner, hinner, rfl⟩, rfl⟩ := harray.sound hread
        exact led_of_skipBlank (.inr (.inl ⟨items, rfl, inner, hinner, rfl⟩)) hskip
      · next after hskip =>
        simp only [Option.bind_eq_bind, Option.bind_eq_some_iff, Prod.exists, Option.pure_def] at h
        obtain ⟨entries, _, hread, v, hv, h⟩ := h
        obtain ⟨rfl, rfl⟩ := Prod.mk.inj (Option.some.inj h)
        obtain ⟨_, ⟨inner, hinner, rfl⟩, rfl⟩ := hobject.sound hread
        exact led_of_skipBlank
          (.inr (.inr ⟨entries, ofMembers?_eq_some_iff.mp hv, inner, hinner, rfl⟩)) hskip
      · obtain ⟨t, ht, hs⟩ := readScalar?_reads.sound h
        exact led_of_skipBlank (.inl ht) hs
    · rintro t rest value ⟨before, s, hbefore, hs, rfl⟩ hrest
      rw [List.append_assoc, readValue?, skipBlank_append hbefore]
      rcases hs with hs | ⟨items, rfl, inner, hinner, rfl⟩ | ⟨entries, hvalue, inner, hinner, rfl⟩
      · -- A scalar opens with neither bracket, so the reader leaves it to the scalars.
        obtain ⟨c, t, rfl, hblank, -, hbracket, hbrace⟩ := hs.exists_cons
        have hread := readScalar?_reads.complete hs hrest
        rw [List.cons_append, skipBlank_cons hblank]
        split
        · next heq => exact absurd (List.cons.inj heq).1 hbracket
        · next heq => exact absurd (List.cons.inj heq).1 hbrace
        · exact hread
      · have hread : readList? (readValue? levels) ']' (inner ++ [']'] ++ rest) =
            some (items, rest) := harray.complete ⟨inner, hinner, rfl⟩ trivial
        rw [List.cons_append, List.cons_append, skipBlank_cons rfl]
        simp only [hread, Option.map_some]
      · have hread := readValue?_bracketed ih ⟨inner, hinner, rfl⟩ rest
        rw [ofMembers?_eq_some_iff.mpr hvalue] at hread
        rwa [readValue?, List.cons_append, List.cons_append, skipBlank_cons rfl] at hread

/-- **Reading finds the value of every text of the language, and of no other
text.** -/
theorem read?_eq_some_iff {text : String} {value : Json} :
    read? text = some value ↔ IsText value text := by
  constructor
  · intro h
    simp only [read?, Option.bind_eq_bind, Option.bind_eq_some_iff, Prod.exists] at h
    obtain ⟨v, rest, hread, h⟩ := h
    split at h
    · next hblank =>
      rw [← Option.some.inj h]
      obtain ⟨_, ⟨before, s, hbefore, hs, rfl⟩, htext⟩ := (readValue?_reads levels).sound hread
      exact ⟨before, s, rest, hbefore, hs, skipBlank_eq_nil_iff.mp hblank, htext⟩
    · cases h
  · rintro ⟨before, s, after, hbefore, hs, hafter, htext⟩
    -- Blanks carry no number on, so the value ends where they begin.
    have hread := (readValue?_reads levels).complete (a := value) ⟨before, s, hbefore, hs, rfl⟩
      hafter.noNumeral
    rw [read?, htext, hread]
    exact if_pos (skipBlank_eq_nil_iff.mpr hafter)

end EscrowFeed.Json
