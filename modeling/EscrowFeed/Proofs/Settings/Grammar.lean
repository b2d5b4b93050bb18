/-
The language of settings files: which texts state which settings.

Settings are stated in JSON, by an object or by a list. What an object states is
said of its entries, in the order of the text and before any of them is dropped,
since an object of settings may not name a member twice. So the language is not
a set of JSON values, which remember the last entry of a key only, but stands
beside them on the same grammar.

The paths that a file states are seen from a base directory. `Path.SeenFrom`
says what that makes of a path.

The definitions mention no reader.
-/
import EscrowFeed.Proofs.Json.Grammar
import EscrowFeed.Settings.Basic

set_option autoImplicit false

namespace EscrowFeed

/-! ## Paths -/

namespace Path

/-- The path starts with a slash. -/
def Absolute (path : String) : Prop := ∃ rest, path = "/" ++ rest

/-- The base ends in a slash. -/
def EndsInSlash (base : String) : Prop := ∃ front, base = front ++ "/"

/-- What a path is as seen from a base: the path itself if it is absolute or the
base is empty, and else base and path with one slash between them, which is the
base's own if it ends in one. -/
inductive SeenFrom (base : String) : String → String → Prop where
  | absolute {path : String} : Absolute path → SeenFrom base path path
  | fromNothing {path : String} : base = "" → SeenFrom base path path
  | behindSlash {path : String} :
      ¬Absolute path → EndsInSlash base → SeenFrom base path (base ++ path)
  | below {path : String} :
      ¬Absolute path → base ≠ "" → ¬EndsInSlash base → SeenFrom base path (base ++ "/" ++ path)

theorem isRooted_iff {path : String} : isRooted path = true ↔ Absolute path := by
  simp only [isRooted, decide_eq_true_eq, List.head?_eq_some_iff, Absolute, String.ext_iff,
    String.toList_append]
  constructor
  · rintro ⟨rest, h⟩
    refine ⟨String.ofList rest, ?_⟩
    rw [h, @String.toList_ofList rest]
    rfl
  · rintro ⟨rest, h⟩
    exact ⟨rest.toList, h⟩

theorem getLast?_eq_slash_iff {base : String} :
    base.toList.getLast? = some '/' ↔ EndsInSlash base := by
  simp only [List.getLast?_eq_some_iff, EndsInSlash, String.ext_iff, String.toList_append]
  constructor
  · rintro ⟨front, h⟩
    refine ⟨String.ofList front, ?_⟩
    rw [h, @String.toList_ofList front]
    rfl
  · rintro ⟨front, h⟩
    exact ⟨front.toList, h⟩

theorem EndsInSlash.ne_empty {base : String} (h : EndsInSlash base) : base ≠ "" := by
  rintro rfl
  rw [← getLast?_eq_slash_iff] at h
  cases h

/-- **Joining finds the path as seen from the base.** -/
theorem join_eq_iff {base path joined : String} :
    join base path = joined ↔ SeenFrom base path joined := by
  rw [join]
  constructor
  · rintro rfl
    split
    · next h =>
      rcases h with habsolute | hbase
      · exact .absolute (isRooted_iff.mp habsolute)
      · exact .fromNothing hbase
    · next h =>
      obtain ⟨habsolute, hbase⟩ := not_or.mp h
      have habsolute : ¬Absolute path := fun h => habsolute (isRooted_iff.mpr h)
      split
      · next hslash => exact .behindSlash habsolute (getLast?_eq_slash_iff.mp hslash)
      · next hslash =>
        exact .below habsolute hbase fun h => hslash (getLast?_eq_slash_iff.mpr h)
  · -- The four ways to see a path exclude each other, and each is one branch.
    intro h
    cases h with
    | absolute habsolute => rw [if_pos (.inl (isRooted_iff.mpr habsolute))]
    | fromNothing hbase => rw [if_pos (.inr hbase)]
    | behindSlash habsolute hslash =>
      rw [if_neg (not_or.mpr ⟨fun h => habsolute (isRooted_iff.mp h), hslash.ne_empty⟩),
        if_pos (getLast?_eq_slash_iff.mpr hslash)]
    | below habsolute hbase hslash =>
      rw [if_neg (not_or.mpr ⟨fun h => habsolute (isRooted_iff.mp h), hbase⟩),
        if_neg fun h => hslash (getLast?_eq_slash_iff.mp h)]

end Path

/-! ## Settings -/

namespace Settings

open Json (Blank Bracketed Spells)

/-- Settings as seen from a base are the settings with both paths seen from
there. -/
theorem resolve_eq_iff {base : String} {stated loaded : Settings} :
    stated.resolve base = loaded ↔
      Path.SeenFrom base stated.envelopePath loaded.envelopePath
        ∧ Option.Rel (Path.SeenFrom base) stated.outputPath loaded.outputPath := by
  have houtput : stated.outputPath.map (Path.join base) = loaded.outputPath ↔
      Option.Rel (Path.SeenFrom base) stated.outputPath loaded.outputPath := by
    cases stated.outputPath <;> cases loaded.outputPath <;> simp [Path.join_eq_iff]
  rw [← houtput, ← Path.join_eq_iff, resolve]
  cases loaded
  rw [Settings.mk.injEq]

/-- A path, or null in the place of one. -/
inductive IsOptionalPath : Option String → Json → Prop where
  | path (path : String) : IsOptionalPath (some path) (.string path)
  | null : IsOptionalPath none .null

/-- A value states one path, or none. -/
theorem IsOptionalPath.unique {path other : Option String} {value : Json}
    (h : IsOptionalPath path value) (hother : IsOptionalPath other value) : path = other := by
  cases h <;> cases hother <;> rfl

/-- An entry that an object of settings may have. -/
inductive IsEntry : String × Json → Prop where
  | envelopePath (path : String) : IsEntry ("envelope_path", .string path)
  | outputPath {path : Option String} {value : Json} :
      IsOptionalPath path value → IsEntry ("output_path", value)

/-- Under the key of the envelope stands a path. -/
theorem isEntry_envelopePath_iff {value : Json} :
    IsEntry ("envelope_path", value) ↔ ∃ path, value = .string path := by
  constructor
  · intro h
    generalize hkey : "envelope_path" = key at h
    cases h with
    | envelopePath path => exact ⟨path, rfl⟩
    | outputPath => exact absurd hkey (by decide)
  · rintro ⟨path, rfl⟩
    exact .envelopePath path

/-- Under the key of the output stands a path or null. -/
theorem isEntry_outputPath_iff {value : Json} :
    IsEntry ("output_path", value) ↔ ∃ path, IsOptionalPath path value := by
  constructor
  · intro h
    generalize hkey : "output_path" = key at h
    cases h with
    | envelopePath => exact absurd hkey (by decide)
    | outputPath hvalue => exact ⟨_, hvalue⟩
  · rintro ⟨_, hvalue⟩
    exact .outputPath hvalue

/-- The settings that an object with these entries states. -/
structure StatedByEntries (settings : Settings) (entries : List (String × Json)) : Prop where
  isEntry : ∀ entry ∈ entries, IsEntry entry
  nodup : (entries.map Prod.fst).Nodup
  envelopePath : ("envelope_path", .string settings.envelopePath) ∈ entries
  /-- There is an output path when one is stated, and none when it is null or
  left out. -/
  outputPath : ∀ path, settings.outputPath = some path ↔ ("output_path", .string path) ∈ entries

/-- The settings that a list of these elements states. -/
inductive StatedByItems : Settings → List Json → Prop where
  | one (envelopePath : String) : StatedByItems { envelopePath } [.string envelopePath]
  | two (envelopePath : String) {outputPath : Option String} {value : Json} :
      IsOptionalPath outputPath value →
      StatedByItems { envelopePath, outputPath } [.string envelopePath, value]

/-- A spelling of settings: an object or a list, as JSON spells them. -/
def Spelling (settings : Settings) (s : List Char) : Prop :=
  (∃ entries, StatedByEntries settings entries
      ∧ Bracketed (Json.Member (Spells 126)) '\x7b' '\x7d' entries s)
    ∨ ∃ items, StatedByItems settings items ∧ Bracketed (Spells 126) '[' ']' items s

/-- A text of the language: settings, and blanks around them. -/
def IsText (settings : Settings) (text : String) : Prop :=
  ∃ before s after, Blank before ∧ Spelling settings s ∧ Blank after
    ∧ text.toList = before ++ s ++ after

/-- **Texts of settings are texts of JSON.** -/
theorem IsText.isText {settings : Settings} {text : String} (h : IsText settings text) :
    ∃ value, Json.IsText value text := by
  obtain ⟨before, s, after, hbefore, hs, hafter, htext⟩ := h
  rcases hs with ⟨entries, hstated, hs⟩ | ⟨items, -, hs⟩
  · -- No key of settings is the one that stands for a number.
    have hfirst : ∀ entry, entries.head? = some entry → entry.1 ≠ Json.numberKey := by
      intro entry hentry
      cases hstated.isEntry entry (List.mem_of_head? hentry) with
      | envelopePath => exact show "envelope_path" ≠ Json.numberKey by decide
      | outputPath => exact show "output_path" ≠ Json.numberKey by decide
    exact ⟨_, before, s, after, hbefore, .inr (.inr ⟨entries,
      .object hfirst (Members.lastOfEach_iff.mpr rfl), hs⟩), hafter, htext⟩
  · exact ⟨_, before, s, after, hbefore, .inr (.inl ⟨items, rfl, hs⟩), hafter, htext⟩

end Settings

end EscrowFeed
