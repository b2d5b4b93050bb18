/-
The reader of settings files reads the language of settings files, all of it and
nothing else.

The reader stops at the first thing that is wrong and never sees a value, so it
is followed step by step. A path is read to its closing quote, a member to the
end of its value, and what a member does to the draft of the settings is
`Draft.Takes`. Along an object soundness is an induction on the members that are
still open, as the reader's own recursion, and completeness one on the entries
of the object.

What the entries make of a draft is then a matter of lists. `Draft.Holds` says
what a draft remembers of the entries before it; one entry keeps it, and an
entry can be taken exactly when its key is new. So an object is read to its end
when its entries state settings, and the draft at the end holds these.
-/
import EscrowFeed.Proofs.Command.Stages
import EscrowFeed.Proofs.Json.Language
import EscrowFeed.Proofs.Settings.Grammar
import Mathlib.Data.List.Nodup

set_option autoImplicit false

namespace EscrowFeed.Settings

open Success
open Json (Blank Led Quoted Series Spells skipBlank skipBlank_append skipBlank_cons
  exists_blank_append_skipBlank)

/-- A reader takes exactly the forms of a relation from the front of a text. -/
structure Reads {α : Type} (read : List Char → Except SettingsError (α × List Char))
    (Form : α → List Char → Prop) : Prop where
  sound : ∀ {s rest : List Char} {a : α}, read s = .ok (a, rest) → ∃ t, Form a t ∧ s = t ++ rest
  complete : ∀ {t : List Char} {a : α}, Form a t → ∀ rest, read (t ++ rest) = .ok (a, rest)

variable {levels : Nat}

/-! ## Paths -/

theorem readPath_reads : Reads readPath (Led Quoted) where
  sound := by
    intro s rest path h
    obtain ⟨before, hbefore, hs⟩ := exists_blank_append_skipBlank s
    rw [readPath] at h
    split at h
    · next after hskip =>
      split at h
      · cases h
      · next content _ hread =>
        obtain ⟨rfl, rfl⟩ := Prod.mk.inj (Except.ok.inj h)
        obtain ⟨t, ht, hafter⟩ := Json.exists_quoted_of_readText? hread
        refine ⟨_, ⟨before, t, hbefore, ht, rfl⟩, ?_⟩
        rw [hs, hskip, hafter, List.append_assoc]
    · cases h
  complete := by
    rintro _ path ⟨before, s, hbefore, hs, rfl⟩ rest
    obtain ⟨t, rfl, hread⟩ := hs.exists_readText?
    rw [List.append_assoc, readPath, skipBlank_append hbefore, List.cons_append,
      skipBlank_cons rfl]
    simp only [hread, String.ofList_toList]

/-- The spellings of a path or null. -/
def OptionalPathSpelling (levels : Nat) (path : Option String) (s : List Char) : Prop :=
  ∃ value, IsOptionalPath path value ∧ Spells levels value s

theorem readOptionalPath_reads (levels : Nat) :
    Reads readOptionalPath (Led (OptionalPathSpelling levels)) where
  sound := by
    intro s rest path h
    obtain ⟨before, hbefore, hs⟩ := exists_blank_append_skipBlank s
    rw [readOptionalPath] at h
    split at h
    · next after hskip =>
      split at h
      · cases h
      · next hword =>
        obtain ⟨rfl, rfl⟩ := Prod.mk.inj (Except.ok.inj h)
        refine ⟨_, ⟨before, _, hbefore, ⟨.null, .null, Json.spells_null_iff.mpr rfl⟩, rfl⟩, ?_⟩
        rw [hs, hskip, Json.readWord?_eq_some_iff.mp hword, List.append_assoc]
    · split at h
      · cases h
      · next path _ hread =>
        obtain ⟨rfl, rfl⟩ := Prod.mk.inj (Except.ok.inj h)
        obtain ⟨_, ⟨blanks, t, hblanks, ht, rfl⟩, hskip⟩ := readPath_reads.sound hread
        refine ⟨_, ⟨before ++ blanks, t, hbefore.append hblanks,
          ⟨.string path, .path path, Json.spells_string_iff.mpr ht⟩, rfl⟩, ?_⟩
        rw [hs, hskip]
        simp only [List.append_assoc]
  complete := by
    rintro t path ⟨before, s, hbefore, ⟨value, hvalue, hs⟩, rfl⟩ rest
    rw [List.append_assoc, readOptionalPath, skipBlank_append hbefore]
    cases hvalue with
    | path path =>
      have hquoted := Json.spells_string_iff.mp hs
      have hread := readPath_reads.complete (a := path) ⟨[], s, Json.blank_nil, hquoted, rfl⟩ rest
      -- The quote in front is no blank, nor the first letter of null.
      obtain ⟨t, rfl, -⟩ := hquoted.exists_readText?
      rw [List.nil_append, List.cons_append] at hread
      rw [List.cons_append, skipBlank_cons rfl]
      split
      · next h => exact absurd (List.cons.inj h).1 (by decide)
      · rw [hread]
    | null =>
      obtain rfl := Json.spells_null_iff.mp hs
      rfl

/-! ## Lists -/

/-- What stands behind the opening bracket of a list that states settings. -/
def ItemsSpelling (levels : Nat) (settings : Settings) (s : List Char) : Prop :=
  ∃ items inner, StatedByItems settings items ∧ Series (Spells levels) items inner
    ∧ s = inner ++ [']']

/-- What is read as a list of settings is one of one or two elements, up to its
closing bracket. -/
theorem readElements_sound {s rest : List Char} {settings : Settings}
    (h : readElements s = .ok (settings, rest)) :
    ∃ t, ItemsSpelling levels settings t ∧ s = t ++ rest := by
  rw [readElements] at h
  -- After the first path comes the closing bracket or a comma with the second one.
  split at h
  · cases h
  · simp only [bind_eq_ok, Prod.exists] at h
    obtain ⟨envelopePath, afterPath, hpath, h⟩ := h
    obtain ⟨_, ⟨before, t, hbefore, ht, rfl⟩, rfl⟩ := readPath_reads.sound hpath
    have ht : Spells levels (.string envelopePath) t := Json.spells_string_iff.mpr ht
    obtain ⟨after, hafter, hs⟩ := exists_blank_append_skipBlank afterPath
    split at h
    · next hclose =>
      obtain ⟨rfl, rfl⟩ := Prod.mk.inj (pure_eq_ok.mp h)
      refine ⟨_, ⟨_, _, .one envelopePath, .one hbefore ht hafter, rfl⟩, ?_⟩
      rw [hs, hclose]
      simp only [List.append_assoc, List.cons_append, List.nil_append]
    · next afterComma hcomma =>
      simp only [bind_eq_ok, Prod.exists] at h
      obtain ⟨outputPath, afterSecond, hsecond, h⟩ := h
      obtain ⟨_, ⟨before', t', hbefore', ⟨value, hvalue, ht'⟩, rfl⟩, rfl⟩ :=
        (readOptionalPath_reads levels).sound hsecond
      obtain ⟨after', hafter', hs'⟩ := exists_blank_append_skipBlank afterSecond
      split at h
      · next hclose =>
        obtain ⟨rfl, rfl⟩ := Prod.mk.inj (pure_eq_ok.mp h)
        refine ⟨_, ⟨_, _, .two envelopePath hvalue,
          .more hbefore ht hafter (.one hbefore' ht' hafter'), rfl⟩, ?_⟩
        rw [hs, hcomma, hs', hclose]
        simp only [List.append_assoc, List.cons_append, List.nil_append]
      · cases h
    · cases h

/-- Every list of one or two elements is read, whatever stands behind its
bracket. -/
theorem readElements_complete {t : List Char} {settings : Settings}
    (h : ItemsSpelling levels settings t) (rest : List Char) :
    readElements (t ++ rest) = .ok (settings, rest) := by
  obtain ⟨items, inner, hstated, hseries, rfl⟩ := h
  rw [List.append_assoc, List.singleton_append, readElements,
    if_neg (hseries.head?_skipBlank_ne (Json.opens_spells levels) (']' :: rest))]
  cases hstated with
  | one envelopePath =>
    obtain ⟨before, s, after, hbefore, hs, hafter, rfl⟩ := hseries.singleton
    have hpath := readPath_reads.complete (a := envelopePath)
      ⟨before, s, hbefore, Json.spells_string_iff.mp hs, rfl⟩ (after ++ ']' :: rest)
    rw [List.append_assoc (before ++ s)]
    refine bind_eq_ok.mpr ⟨_, hpath, ?_⟩
    dsimp only
    rw [skipBlank_append hafter, skipBlank_cons rfl]
    rfl
  | two envelopePath hvalue =>
    cases hseries with
    | @more _ _ before s after inner hbefore hs hafter hseries =>
      obtain ⟨before', s', after', hbefore', hs', hafter', rfl⟩ := hseries.singleton
      -- The parts regrouped: what the first reader leaves is one text that begins with blanks.
      have hshape : before ++ s ++ after ++ ',' :: (before' ++ s' ++ after') ++ ']' :: rest
          = before ++ s ++ (after ++ ',' :: (before' ++ s' ++ (after' ++ ']' :: rest))) := by
        simp only [List.append_assoc, List.cons_append]
      have hpath := readPath_reads.complete (a := envelopePath)
        ⟨before, s, hbefore, Json.spells_string_iff.mp hs, rfl⟩
        (after ++ ',' :: (before' ++ s' ++ (after' ++ ']' :: rest)))
      have hsecond := (readOptionalPath_reads levels).complete
        ⟨before', s', hbefore', ⟨_, hvalue, hs'⟩, rfl⟩ (after' ++ ']' :: rest)
      rw [hshape]
      refine bind_eq_ok.mpr ⟨_, hpath, ?_⟩
      dsimp only
      rw [skipBlank_append hafter, skipBlank_cons rfl]
      refine bind_eq_ok.mpr ⟨_, hsecond, ?_⟩
      dsimp only
      rw [skipBlank_append hafter', skipBlank_cons rfl]
      rfl

/-- The reader of lists, both ways. -/
theorem readElements_reads : Reads readElements (ItemsSpelling levels) :=
  ⟨readElements_sound, readElements_complete⟩

/-! ## Members -/

/-- A draft takes a value for a member that is open in it: the draft before the
value, and the draft after it. -/
inductive Draft.Takes : Draft → Member → Json → Draft → Prop where
  | envelopePath {draft : Draft} (path : String) : draft.envelopePath = none →
      Takes draft .envelopePath (.string path) { draft with envelopePath := some path }
  | outputPath {draft : Draft} {path : Option String} {value : Json} :
      draft.outputPath = none → IsOptionalPath path value →
      Takes draft .outputPath value { draft with outputPath := some path }

/-- A colon is found behind any blanks, and behind nothing else. -/
theorem readColon_eq_ok_iff {s rest : List Char} :
    readColon s = .ok rest ↔ ∃ before, Blank before ∧ s = before ++ ':' :: rest := by
  constructor
  · intro h
    obtain ⟨before, hbefore, hs⟩ := exists_blank_append_skipBlank s
    rw [readColon] at h
    split at h
    · next hskip =>
      rw [hskip, Except.ok.inj h] at hs
      exact ⟨before, hbefore, hs⟩
    · cases h
  · rintro ⟨before, hbefore, rfl⟩
    rw [readColon, skipBlank_append hbefore, skipBlank_cons rfl]
    rfl

/-- A value behind a colon is read as the value is. -/
theorem readBehindColon_eq_ok_iff {α : Type}
    {read : List Char → Except SettingsError (α × List Char)} {Form : α → List Char → Prop}
    (hread : Reads read (Led Form)) (f : α → Draft) {s rest : List Char} {after : Draft} :
    (do
      let (a, rest) ← read (← readColon s)
      return (f a, rest)) = .ok (after, rest) ↔
      ∃ a before t, f a = after ∧ Blank before ∧ Led Form a t ∧ s = before ++ ':' :: t ++ rest := by
  simp only [bind_eq_ok, Prod.exists, pure_eq_ok, Prod.mk.injEq]
  constructor
  · rintro ⟨_, hcolon, a, _, ha, hafter, rfl⟩
    obtain ⟨before, hbefore, rfl⟩ := readColon_eq_ok_iff.mp hcolon
    obtain ⟨t, ht, rfl⟩ := hread.sound ha
    exact ⟨a, before, t, hafter, hbefore, ht, (List.append_assoc before (':' :: t) _).symm⟩
  · rintro ⟨a, before, t, hafter, hbefore, ht, rfl⟩
    exact ⟨t ++ rest, readColon_eq_ok_iff.mpr ⟨before, hbefore, List.append_assoc ..⟩, a, rest,
      hread.complete ht rest, hafter, rfl⟩

/-- The spellings of what follows the key of a member. -/
def ValueSpelling (levels : Nat) (draft : Draft) (member : Member) (after : Draft)
    (s : List Char) : Prop :=
  ∃ value before t, draft.Takes member value after ∧ Blank before
    ∧ Led (Spells levels) value t ∧ s = before ++ ':' :: t

/-- The value of a member is read if the member is still open, and fills it. -/
theorem readMemberValue_reads (levels : Nat) (draft : Draft) (member : Member) :
    Reads (readMemberValue draft member) (ValueSpelling levels draft member) where
  sound := by
    intro s rest after h
    -- One case a member: they differ in the values they take.
    cases member with
    | envelopePath =>
      rw [readMemberValue] at h
      split at h
      · cases h
      · next hopen =>
        obtain ⟨path, before, _, rfl, hbefore, ⟨blanks, t, hblanks, ht, rfl⟩, rfl⟩ :=
          (readBehindColon_eq_ok_iff readPath_reads
            fun path => { draft with envelopePath := some path }).mp h
        have htakes := Draft.Takes.envelopePath path (Option.not_isSome_iff_eq_none.mp hopen)
        exact ⟨_, ⟨_, before, _, htakes, hbefore,
          ⟨blanks, t, hblanks, Json.spells_string_iff.mpr ht, rfl⟩, rfl⟩, rfl⟩
    | outputPath =>
      rw [readMemberValue] at h
      split at h
      · cases h
      · next hopen =>
        obtain ⟨path, before, _, rfl, hbefore, ⟨blanks, t, hblanks, ⟨value, hvalue, ht⟩, rfl⟩,
          rfl⟩ := (readBehindColon_eq_ok_iff (readOptionalPath_reads levels)
            fun path => { draft with outputPath := some path }).mp h
        have htakes := Draft.Takes.outputPath (Option.not_isSome_iff_eq_none.mp hopen) hvalue
        exact ⟨_, ⟨_, before, _, htakes, hbefore, ⟨blanks, t, hblanks, ht, rfl⟩, rfl⟩, rfl⟩
  complete := by
    rintro _ after ⟨value, before, _, htakes, hbefore, ⟨blanks, t, hblanks, ht, rfl⟩, rfl⟩ rest
    cases htakes with
    | envelopePath path hopen =>
      rw [readMemberValue, hopen]
      exact (readBehindColon_eq_ok_iff readPath_reads
        fun path => { draft with envelopePath := some path }).mpr
          ⟨path, before, _, rfl, hbefore,
            ⟨blanks, t, hblanks, Json.spells_string_iff.mp ht, rfl⟩, rfl⟩
    | outputPath hopen hvalue =>
      rw [readMemberValue, hopen]
      exact (readBehindColon_eq_ok_iff (readOptionalPath_reads levels)
        fun path => { draft with outputPath := some path }).mpr
          ⟨_, before, _, rfl, hbefore, ⟨blanks, t, hblanks, ⟨_, hvalue, ht⟩, rfl⟩, rfl⟩

theorem ofKey?_eq_some_iff {key : String} {member : Member} :
    Member.ofKey? key = some member ↔ member.key = key := by
  constructor
  · intro h
    rw [Member.ofKey?] at h
    have hkey := List.find?_some h
    exact of_decide_eq_true hkey
  · rintro rfl
    cases member <;> rfl

/-- The spellings of a member that a draft takes. -/
def MemberSpelling (levels : Nat) (draft after : Draft) (s : List Char) : Prop :=
  ∃ member value, draft.Takes member value after
    ∧ Led (Json.Member (Spells levels)) (member.key, value) s

/-- One entry is read behind any blanks: a key of settings, a colon, and a value
for the member of that key. -/
theorem readMember_reads (levels : Nat) (draft : Draft) :
    Reads (readMember draft) (MemberSpelling levels draft) where
  sound := by
    intro s rest after h
    obtain ⟨before, hbefore, hs⟩ := exists_blank_append_skipBlank s
    rw [readMember] at h
    split at h
    · next afterQuote hskip =>
      split at h
      · cases h
      · next content afterKey hread =>
        obtain ⟨key, hkey, hafter⟩ := Json.exists_quoted_of_readText? hread
        split at h
        · cases h
        · next member hmember =>
          obtain ⟨_, ⟨value, blanks, _, htakes, hblanks, ⟨blanks', t, hblanks', ht, rfl⟩, rfl⟩,
            rfl⟩ := (readMemberValue_reads levels draft member).sound h
          rw [← ofKey?_eq_some_iff.mp hmember] at hkey
          refine ⟨_, ⟨member, value, htakes, before, _, hbefore,
            ⟨key, blanks, blanks', t, hkey, hblanks, hblanks', ht, rfl⟩, rfl⟩, ?_⟩
          rw [hs, hskip, hafter]
          simp only [List.append_assoc, List.cons_append]
    · cases h
  complete := by
    rintro _ after ⟨member, value, htakes, before, _, hbefore,
      ⟨_, blanks, blanks', t, hkey, hblanks, hblanks', ht, rfl⟩, rfl⟩ rest
    obtain ⟨key, rfl, hread⟩ := hkey.exists_readText?
    have hvalue := (readMemberValue_reads levels draft member).complete
      ⟨value, blanks, blanks' ++ t, htakes, hblanks, ⟨blanks', t, hblanks', ht, rfl⟩, rfl⟩ rest
    -- The reader takes the parts off one by one, so the text is bracketed its way.
    have hshape : before ++ ('"' :: key ++ blanks ++ ':' :: blanks' ++ t) ++ rest
        = before ++ '"' :: (key ++ (blanks ++ ':' :: (blanks' ++ t) ++ rest)) := by
      simp only [List.append_assoc, List.cons_append]
    rw [hshape, readMember, skipBlank_append hbefore, skipBlank_cons rfl]
    simp only [hread, String.ofList_toList, ofKey?_eq_some_iff.mpr rfl, hvalue]

/-! ## Objects -/

/-- A draft takes entry after entry. -/
inductive Draft.TakesAll : Draft → List (String × Json) → Draft → Prop where
  | nil {draft : Draft} : TakesAll draft [] draft
  | cons {draft next after : Draft} {member : Member} {value : Json}
      {entries : List (String × Json)} :
      draft.Takes member value next → TakesAll next entries after →
      TakesAll draft ((member.key, value) :: entries) after

/-- The spellings of entries that complete a draft, up to the closing brace. -/
def MembersSpelling (levels : Nat) (draft : Draft) (settings : Settings) (s : List Char) : Prop :=
  ∃ entries after inner, draft.TakesAll entries after ∧ after.complete = .ok settings
    ∧ Series (Json.Member (Spells levels)) entries inner ∧ s = inner ++ ['\x7d']

/-- Behind an entry stands the end of the object or a comma with more. -/
theorem readMembers_of_readMember {draft next : Draft} {s rest : List Char}
    (h : readMember draft s = .ok (next, rest)) :
    readMembers draft s =
      match skipBlank rest with
      | [] => .error .malformed
      | c :: rest =>
        if c = '\x7d' then
          match next.complete with
          | .error error => .error error
          | .ok settings => .ok (settings, rest)
        else if c = ',' then readMembers next rest
        else .error .malformed := by
  -- The reader matches under the name of its own equation, which is compared with `h`.
  rw [readMembers]
  split
  · next herror =>
    rw [h] at herror
    cases herror
  · next hok =>
    rw [h] at hok
    obtain ⟨rfl, rfl⟩ := Prod.mk.inj (Except.ok.inj hok)
    rfl

/-- What is read as the rest of an object is entries that fill open members, one
after the other, up to the closing brace. -/
theorem readMembers_sound (levels : Nat) {draft : Draft} {s rest : List Char} {settings : Settings}
    (h : readMembers draft s = .ok (settings, rest)) :
    ∃ t, MembersSpelling levels draft settings t ∧ s = t ++ rest := by
  -- Along the reader: only a closing brace and a comma are no failure.
  induction draft, s using readMembers.induct with
  | case1 draft s error herror =>
    rw [readMembers] at h
    split at h
    · cases h
    · next hok =>
      rw [herror] at hok
      cases hok
  | case2 draft s next after hread hskip =>
    rw [readMembers_of_readMember hread, hskip] at h
    cases h
  | case3 draft s next after hread afterBrace error herror hskip =>
    rw [readMembers_of_readMember hread, hskip] at h
    simp only [if_true, herror, reduceCtorEq] at h
  | case4 draft s next after hread afterBrace stated hcomplete hskip =>
    rw [readMembers_of_readMember hread, hskip] at h
    simp only [if_true, hcomplete, Except.ok.injEq, Prod.mk.injEq] at h
    obtain ⟨rfl, rfl⟩ := h
    obtain ⟨_, ⟨member, value, htakes, before, t, hbefore, ht, rfl⟩, rfl⟩ :=
      (readMember_reads levels draft).sound hread
    obtain ⟨blanks, hblanks, hafter⟩ := exists_blank_append_skipBlank after
    refine ⟨_, ⟨_, next, _, .cons htakes .nil, hcomplete, .one hbefore ht hblanks, rfl⟩, ?_⟩
    rw [hafter, hskip]
    simp only [List.append_assoc, List.cons_append, List.nil_append]
  | case5 draft s next after hread afterComma hskip hne ih =>
    rw [readMembers_of_readMember hread, hskip] at h
    simp only [hne, if_false, if_true] at h
    obtain ⟨_, ⟨entries, final, inner, hmore, hcomplete, hseries, rfl⟩, rfl⟩ := ih h
    obtain ⟨_, ⟨member, value, htakes, before, t, hbefore, ht, rfl⟩, rfl⟩ :=
      (readMember_reads levels draft).sound hread
    obtain ⟨blanks, hblanks, hafter⟩ := exists_blank_append_skipBlank after
    refine ⟨_, ⟨_, final, _, .cons htakes hmore, hcomplete,
      .more hbefore ht hblanks hseries, rfl⟩, ?_⟩
    rw [hafter, hskip]
    simp only [List.append_assoc, List.cons_append]
  | case6 draft s next after hread c afterMark hskip hbrace hcomma =>
    rw [readMembers_of_readMember hread, hskip] at h
    simp only [hbrace, hcomma, if_false, reduceCtorEq] at h

/-- Entries that fill open members are read to the closing brace. -/
theorem readMembers_complete {t : List Char} {draft : Draft} {settings : Settings}
    (h : MembersSpelling levels draft settings t) (rest : List Char) :
    readMembers draft (t ++ rest) = .ok (settings, rest) := by
  obtain ⟨entries, after, inner, htakes, hcomplete, hseries, rfl⟩ := h
  rw [List.append_assoc, List.singleton_append]
  -- The draft changes from entry to entry, so it is general in the induction.
  induction hseries generalizing draft with
  | @one entry before s blanks hbefore hs hblanks =>
    cases htakes with
    | @cons _ next _ member value _ hmember hnil =>
      cases hnil
      have hread := (readMember_reads levels draft).complete
        ⟨member, value, hmember, before, s, hbefore, hs, rfl⟩ (blanks ++ '\x7d' :: rest)
      rw [List.append_assoc (before ++ s), readMembers_of_readMember hread,
        skipBlank_append hblanks, skipBlank_cons rfl]
      simp only [if_true, hcomplete]
  | @more entry entries before s blanks inner hbefore hs hblanks hseries ih =>
    cases htakes with
    | @cons _ next _ member value _ hmember hmore =>
      have hread := (readMember_reads levels draft).complete
        ⟨member, value, hmember, before, s, hbefore, hs, rfl⟩
        (blanks ++ ',' :: (inner ++ '\x7d' :: rest))
      have hshape : before ++ s ++ blanks ++ ',' :: inner ++ '\x7d' :: rest
          = before ++ s ++ (blanks ++ ',' :: (inner ++ '\x7d' :: rest)) := by
        simp only [List.append_assoc, List.cons_append]
      rw [hshape, readMembers_of_readMember hread, skipBlank_append hblanks, skipBlank_cons rfl]
      exact ih hmore

/-! ## What a draft holds -/

/-- The draft of an object's first entries: the entries are such as settings may
have, no two have the same key, and their values are those of the draft. -/
structure Draft.Holds (draft : Draft) (entries : List (String × Json)) : Prop where
  isEntry : ∀ entry ∈ entries, IsEntry entry
  nodup : (entries.map Prod.fst).Nodup
  envelopePath : ∀ path, draft.envelopePath = some path ↔
    ("envelope_path", .string path) ∈ entries
  outputPath : ∀ path, draft.outputPath = some path ↔
    ∃ value, IsOptionalPath path value ∧ ("output_path", value) ∈ entries

namespace Draft

variable {draft after : Draft} {settings : Settings}
variable {entries done : List (String × Json)}

/-- Nothing stands under the member yet. -/
def IsOpen (draft : Draft) : Member → Prop
  | .envelopePath => draft.envelopePath = none
  | .outputPath => draft.outputPath = none

theorem Takes.isOpen {member : Member} {value : Json} (h : draft.Takes member value after) :
    draft.IsOpen member := by
  cases h with
  | envelopePath _ hopen => exact hopen
  | outputPath hopen => exact hopen

theorem holds_nil : Draft.Holds {} [] where
  isEntry _ hentry := nomatch hentry
  nodup := List.nodup_nil
  envelopePath _ := by simp only [List.not_mem_nil, reduceCtorEq]
  outputPath _ := by simp only [List.not_mem_nil, and_false, exists_false, reduceCtorEq]

/-- A member is open as long as no entry had its key. -/
theorem Holds.isOpen_iff (h : draft.Holds done) (member : Member) :
    draft.IsOpen member ↔ member.key ∉ done.map Prod.fst := by
  -- A member is filled exactly by an entry under its key, of the form that it takes.
  cases member with
  | envelopePath =>
    refine Option.eq_none_iff_forall_ne_some.trans ⟨?_, ?_⟩
    · rintro hopen hkey
      obtain ⟨⟨_, value⟩, hentry, rfl⟩ := List.mem_map.mp hkey
      obtain ⟨path, rfl⟩ := isEntry_envelopePath_iff.mp (h.isEntry _ hentry)
      exact hopen path ((h.envelopePath path).mpr hentry)
    · intro hkey path hpath
      exact hkey (List.mem_map_of_mem ((h.envelopePath path).mp hpath))
  | outputPath =>
    refine Option.eq_none_iff_forall_ne_some.trans ⟨?_, ?_⟩
    · rintro hopen hkey
      obtain ⟨⟨_, value⟩, hentry, rfl⟩ := List.mem_map.mp hkey
      obtain ⟨path, hvalue⟩ := isEntry_outputPath_iff.mp (h.isEntry _ hentry)
      exact hopen path ((h.outputPath path).mpr ⟨value, hvalue, hentry⟩)
    · intro hkey path hpath
      obtain ⟨value, -, hentry⟩ := (h.outputPath path).mp hpath
      exact hkey (List.mem_map_of_mem hentry)

/-- **One entry keeps what a draft holds.** -/
theorem Holds.take {member : Member} {value : Json} (h : draft.Holds done)
    (htakes : draft.Takes member value after) : after.Holds (done ++ [(member.key, value)]) := by
  have hnew := (h.isOpen_iff member).mp htakes.isOpen
  have hnodup : ((done ++ [(member.key, value)]).map Prod.fst).Nodup := by
    rw [List.map_append, List.map_singleton, ← List.concat_eq_append]
    exact h.nodup.concat hnew
  cases htakes with
  | envelopePath path hopen =>
    have hnone : ∀ other, ("envelope_path", Json.string other) ∉ done := fun other hmem =>
      hnew (List.mem_map_of_mem hmem)
    refine ⟨?_, hnodup, fun other => ?_, fun other => ?_⟩
    · rw [List.forall_mem_append, List.forall_mem_singleton]
      exact ⟨h.isEntry, .envelopePath path⟩
    · simp [hnone, Member.key, eq_comm]
    · simp [h.outputPath, Member.key]
  | @outputPath path _ hopen hvalue =>
    have hnone : ∀ other, ("output_path", other) ∉ done := fun other hmem =>
      hnew (List.mem_map_of_mem hmem)
    refine ⟨?_, hnodup, fun other => ?_, fun other => ?_⟩
    · rw [List.forall_mem_append, List.forall_mem_singleton]
      exact ⟨h.isEntry, .outputPath hvalue⟩
    · simp [h.envelopePath, Member.key]
    · -- What the value stands for, it stands for alone.
      have hother : some path = some other ↔ IsOptionalPath other value :=
        ⟨fun heq => Option.some.inj heq ▸ hvalue,
          fun hother => congrArg some (hvalue.unique hother)⟩
      simp [hnone, Member.key, hother]

/-- An entry can be taken when its key is new. -/
theorem Holds.exists_takes {entry : String × Json} (h : draft.Holds done) (hentry : IsEntry entry)
    (hnew : entry.1 ∉ done.map Prod.fst) :
    ∃ member value after, entry = (member.key, value) ∧ draft.Takes member value after := by
  cases hentry with
  | envelopePath path =>
    exact ⟨.envelopePath, _, _, rfl, .envelopePath path ((h.isOpen_iff .envelopePath).mpr hnew)⟩
  | outputPath hvalue =>
    exact ⟨.outputPath, _, _, rfl, .outputPath ((h.isOpen_iff .outputPath).mpr hnew) hvalue⟩

/-- A run of entries keeps what the draft holds in step with the entries taken. -/
theorem TakesAll.holds (htakes : draft.TakesAll entries after) (h : draft.Holds done) :
    after.Holds (done ++ entries) := by
  induction htakes generalizing done with
  | nil => rwa [List.append_nil]
  | cons htake _ ih =>
    rw [List.append_cons]
    exact ih (h.take htake)

/-- Entries of settings without a repeated key can all be taken. -/
theorem Holds.exists_takesAll (h : draft.Holds done) (hentries : ∀ entry ∈ entries, IsEntry entry)
    (hnodup : ((done ++ entries).map Prod.fst).Nodup) :
    ∃ after, draft.TakesAll entries after := by
  induction entries generalizing draft done with
  | nil => exact ⟨draft, .nil⟩
  | cons entry entries ih =>
    have hnew : entry.1 ∉ done.map Prod.fst := by
      rw [List.map_append, List.nodup_append] at hnodup
      exact fun hmem => hnodup.2.2 _ hmem _ List.mem_cons_self rfl
    rw [List.forall_mem_cons] at hentries
    obtain ⟨member, value, next, rfl, htake⟩ := h.exists_takes hentries.1 hnew
    rw [List.append_cons] at hnodup
    obtain ⟨after, hafter⟩ := ih (h.take htake) hentries.2 hnodup
    exact ⟨after, .cons htake hafter⟩

/-- A draft is complete when its entries state settings. -/
theorem Holds.complete_eq_ok_iff (h : draft.Holds entries) :
    draft.complete = .ok settings ↔ StatedByEntries settings entries := by
  have hcomplete : draft.complete = .ok settings ↔
      draft.envelopePath = some settings.envelopePath
        ∧ draft.outputPath.join = settings.outputPath := by
    rw [complete]
    cases draft.envelopePath with
    | none => simp only [reduceCtorEq, false_and]
    | some path =>
      cases settings
      simp only [Except.ok.injEq, Settings.mk.injEq, Option.some.injEq]
  -- A null fills the member and states no path.
  have houtput : ∀ path, draft.outputPath.join = some path ↔
      ("output_path", .string path) ∈ entries := by
    intro path
    rw [Option.join_eq_some_iff, h.outputPath]
    constructor
    · rintro ⟨value, hvalue, hmem⟩
      cases hvalue
      exact hmem
    · exact fun hmem => ⟨_, .path path, hmem⟩
  rw [hcomplete, h.envelopePath, Option.ext_iff]
  simp only [houtput]
  constructor
  · rintro ⟨henvelope, hpaths⟩
    exact ⟨h.isEntry, h.nodup, henvelope, fun path => (hpaths path).symm⟩
  · rintro ⟨-, -, henvelope, hpaths⟩
    exact ⟨henvelope, fun path => (hpaths path).symm⟩

end Draft

/-- Entries are taken to the end, and complete the settings that they state. -/
theorem takesAll_complete_iff {entries : List (String × Json)} {settings : Settings} :
    (∃ after, Draft.TakesAll {} entries after ∧ after.complete = .ok settings) ↔
      StatedByEntries settings entries := by
  constructor
  · rintro ⟨after, htakes, hcomplete⟩
    exact (htakes.holds Draft.holds_nil).complete_eq_ok_iff.mp hcomplete
  · intro hstated
    obtain ⟨after, htakes⟩ := Draft.holds_nil.exists_takesAll hstated.isEntry hstated.nodup
    exact ⟨after, htakes, (htakes.holds Draft.holds_nil).complete_eq_ok_iff.mpr hstated⟩

/-- What stands behind the opening brace of an object that states settings. -/
def EntriesSpelling (levels : Nat) (settings : Settings) (s : List Char) : Prop :=
  ∃ entries inner, StatedByEntries settings entries
    ∧ Series (Json.Member (Spells levels)) entries inner ∧ s = inner ++ ['\x7d']

/-- An object is read by its entries; an empty one is not settings. -/
theorem readObject_reads : Reads readObject (EntriesSpelling levels) where
  sound := by
    intro s rest settings h
    rw [readObject] at h
    split at h
    · cases h
    · obtain ⟨_, ⟨entries, after, inner, htakes, hcomplete, hseries, rfl⟩, hs⟩ :=
        readMembers_sound levels h
      exact ⟨_, ⟨entries, inner, takesAll_complete_iff.mp ⟨after, htakes, hcomplete⟩, hseries, rfl⟩,
        hs⟩
  complete := by
    rintro _ settings ⟨entries, inner, hstated, hseries, rfl⟩ rest
    obtain ⟨after, htakes, hcomplete⟩ := takesAll_complete_iff.mpr hstated
    -- The closing brace does not come first, since there is an entry.
    have hhead := hseries.head?_skipBlank_ne (Json.opens_member _) (['\x7d'] ++ rest)
    rw [← List.append_assoc] at hhead
    rw [readObject, if_neg hhead]
    exact readMembers_complete ⟨entries, after, inner, htakes, hcomplete, hseries, rfl⟩ rest

/-! ## Texts -/

/-- No settings are stated by nothing: the envelope is always named. -/
theorem StatedByEntries.ne_nil {settings : Settings} {entries : List (String × Json)}
    (h : StatedByEntries settings entries) : entries ≠ [] :=
  List.ne_nil_of_mem h.envelopePath

theorem StatedByItems.ne_nil {settings : Settings} {items : List Json}
    (h : StatedByItems settings items) : items ≠ [] := by
  cases h <;> exact List.cons_ne_nil _ _

/-- Settings are never stated by nothing, so there is a series in the brackets. -/
theorem spelling_iff {settings : Settings} {s : List Char} :
    Spelling settings s ↔
      (∃ t, EntriesSpelling 126 settings t ∧ s = '\x7b' :: t)
        ∨ ∃ t, ItemsSpelling 126 settings t ∧ s = '[' :: t := by
  constructor
  · rintro (⟨entries, hstated, inner, ⟨hnil, -⟩ | hseries, rfl⟩
      | ⟨items, hstated, inner, ⟨hnil, -⟩ | hseries, rfl⟩)
    · -- An empty container states nothing.
      exact absurd hnil hstated.ne_nil
    · exact .inl ⟨_, ⟨entries, inner, hstated, hseries, rfl⟩, rfl⟩
    · exact absurd hnil hstated.ne_nil
    · exact .inr ⟨_, ⟨items, inner, hstated, hseries, rfl⟩, rfl⟩
  · rintro (⟨_, ⟨entries, inner, hstated, hseries, rfl⟩, rfl⟩
      | ⟨_, ⟨items, inner, hstated, hseries, rfl⟩, rfl⟩)
    · exact .inl ⟨entries, hstated, inner, .inr hseries, rfl⟩
    · exact .inr ⟨items, hstated, inner, .inr hseries, rfl⟩

/-- Behind the settings of a text there are blanks and nothing else. -/
theorem toEnd_eq_ok_iff {result : Except SettingsError (Settings × List Char)}
    {settings : Settings} :
    (do
      let (settings, rest) ← result
      if skipBlank rest = [] then return settings else throw SettingsError.malformed) =
        .ok settings ↔
      ∃ rest, result = .ok (settings, rest) ∧ Blank rest := by
  simp only [bind_eq_ok, Prod.exists]
  constructor
  · rintro ⟨stated, rest, hread, h⟩
    split at h
    · next hblank =>
      rw [pure_eq_ok.mp h] at hread
      exact ⟨rest, hread, Json.skipBlank_eq_nil_iff.mp hblank⟩
    · cases h
  · rintro ⟨rest, hread, hblank⟩
    exact ⟨settings, rest, hread, if_pos (Json.skipBlank_eq_nil_iff.mpr hblank)⟩

/-- **Reading finds the settings of every text that states some, and of no other
text.** -/
theorem read_eq_ok_iff {text : String} {settings : Settings} :
    read text = .ok settings ↔ IsText settings text := by
  constructor
  · intro h
    obtain ⟨before, hbefore, htext⟩ := exists_blank_append_skipBlank text.toList
    -- What the first character opens is a spelling, whichever of the two it is.
    have hspelling : ∃ s after, Spelling settings s ∧ Blank after
        ∧ skipBlank text.toList = s ++ after := by
      rw [read] at h
      split at h
      · cases h
      · next c rest hskip =>
        rw [hskip]
        split at h
        · next hopen =>
          obtain ⟨after, hread, hafter⟩ := toEnd_eq_ok_iff.mp h
          obtain ⟨t, ht, rfl⟩ := readElements_reads.sound hread
          rw [hopen]
          exact ⟨_, after, spelling_iff.mpr (.inr ⟨t, ht, rfl⟩), hafter, rfl⟩
        · split at h
          · next hopen =>
            obtain ⟨after, hread, hafter⟩ := toEnd_eq_ok_iff.mp h
            obtain ⟨t, ht, rfl⟩ := readObject_reads.sound hread
            rw [hopen]
            exact ⟨_, after, spelling_iff.mpr (.inl ⟨t, ht, rfl⟩), hafter, rfl⟩
          · cases h
    obtain ⟨s, after, hs, hafter, hskip⟩ := hspelling
    refine ⟨before, s, after, hbefore, hs, hafter, ?_⟩
    rw [List.append_assoc, ← hskip, ← htext]
  · rintro ⟨before, s, after, hbefore, hs, hafter, htext⟩
    rw [read, htext, List.append_assoc, skipBlank_append hbefore]
    rcases spelling_iff.mp hs with ⟨t, ht, rfl⟩ | ⟨t, ht, rfl⟩
    · rw [List.cons_append, skipBlank_cons rfl]
      exact toEnd_eq_ok_iff.mpr ⟨after, readObject_reads.complete ht after, hafter⟩
    · rw [List.cons_append, skipBlank_cons rfl]
      exact toEnd_eq_ok_iff.mpr ⟨after, readElements_reads.complete ht after, hafter⟩

/-- Loading a file is reading its text, with the paths seen from the file's
directory. -/
theorem run_loadSettings_eq {tree : FileTree} {path text : String} {bytes : Bytes}
    (hread : tree.read path = .ok bytes) (htext : Utf8.decode? bytes = some text) :
    (Command.loadSettings path : StateM FileTree (Except Command.Failure Settings)).run tree =
      (((read text).map (resolve ((Path.parent? path).getD "."))).mapError
        (Command.Failure.settingsRejected path), tree) := by
  rw [Command.loadSettings, Command.run_bind_of_run (Command.run_readText path tree), hread]
  dsimp only [Except.bind]
  rw [htext, Option.elim_some]
  dsimp only
  cases read text <;> rfl

/-- **Settings load from their language and from nothing else.** Loading gives
settings exactly for a text that states some, an object with its entries or a
list of one or two paths, and they are the stated ones with each path as seen
from the base. For every other text loading fails, so nothing in such a text is
passed over and nothing is filled in. The language is part of JSON, and a file
loads as its text does, from the directory that it is in. -/
theorem loading_language (base text : String) :
    (∀ loaded, (read text).map (resolve base) = .ok loaded ↔
        ∃ stated, IsText stated text
          ∧ Path.SeenFrom base stated.envelopePath loaded.envelopePath
          ∧ Option.Rel (Path.SeenFrom base) stated.outputPath loaded.outputPath)
      ∧ ((∃ error, (read text).map (resolve base) = .error error) ↔
        ∀ stated, ¬IsText stated text)
      ∧ (∀ stated, IsText stated text → ∃ value, Json.IsText value text)
      ∧ ∀ (tree : FileTree) (path : String) (bytes : Bytes),
        tree.read path = .ok bytes → Utf8.decode? bytes = some text →
        (Path.parent? path).getD "." = base →
        (Command.loadSettings path : StateM FileTree (Except Command.Failure Settings)).run tree =
          (((read text).map (resolve base)).mapError (Command.Failure.settingsRejected path),
            tree) := by
  refine ⟨fun loaded => ?_, ?_, fun _ => IsText.isText, ?_⟩
  · simp only [map_eq_ok, read_eq_ok_iff, resolve_eq_iff]
  · simp only [exists_error_iff, ne_eq, map_eq_ok, read_eq_ok_iff, not_exists, not_and]
    constructor
    · -- Every path can be seen from a base, so only the text can be at fault.
      exact fun h stated hstated => h _ stated hstated rfl
    · exact fun h _ stated hstated _ => h stated hstated
  · rintro tree path bytes hread htext rfl
    exact run_loadSettings_eq hread htext

/-- An escaped key is the key that it spells, and a key that stands twice makes
no settings, not even with one value. -/
theorem loading_language_keys :
    let text := "\x7b\"output_path\":null, \"envelope\\u005fpath\":\"/e.pb\"\x7d\n"
    let twice := "\x7b\"envelope_path\":\"e.pb\",\"envelope_path\":\"e.pb\"\x7d"
    (∃ stated, IsText stated text ∧ Path.SeenFrom "conf" stated.envelopePath "/e.pb"
        ∧ Option.Rel (Path.SeenFrom "conf") stated.outputPath none)
      ∧ ∀ stated, ¬IsText stated twice := by
  intro text twice
  obtain ⟨hloads, -⟩ := loading_language "conf" text
  obtain ⟨-, hfails, -⟩ := loading_language "conf" twice
  exact ⟨(hloads ⟨"/e.pb", none⟩).mp (by decide +kernel),
    hfails.mp ⟨.rejected (.duplicate .envelopePath), by decide +kernel⟩⟩

end EscrowFeed.Settings
