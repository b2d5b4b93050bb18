/-
When two keys are written as one text.

A table finds a row by the texts of its key columns, one beside the other. A
line has room for one text, in which the same texts are joined with dashes, and
nothing marks a dash that was in a text already. `dashParts` is all that is left
of a key in its line: the pieces between the dashes, whoever the dashes belong
to. So two rows of a table have one text when their keys have the same pieces,
and they can differ in where one key column ends and the next begins.

They cannot if at most one of the key columns may hold a dash. The columns
before it and after it then take up one piece each, in both keys, and what
remains is the column itself. This covers every key of one column, and the
records that the feed writes have no other; of the keys of several columns it
leaves out those with dashes in two of them, and `rows_merged_when_loaded` are
two rows of that kind.
-/
import EscrowFeed.Proofs.Store.Loading

set_option autoImplicit false

namespace EscrowFeed

/-! ## Texts joined with dashes -/

/-- The pieces of a text between its dashes. -/
def dashParts (text : String) : List (List Char) := text.toList.splitOn '-'

/-- A text can be told from its pieces. -/
theorem dashParts_inj {s t : String} : dashParts s = dashParts t ↔ s = t := by
  refine ⟨fun h => ?_, congrArg dashParts⟩
  have hjoined := congrArg (['-'].intercalate ·) h
  simp only [dashParts, List.intercalate_splitOn] at hjoined
  exact String.toList_inj.mp hjoined

theorem dashParts_of_not_mem {text : String} (h : '-' ∉ text.toList) :
    dashParts text = [text.toList] := by
  have hone : (['-'].intercalate [text.toList]).splitOn '-' = [text.toList] :=
    List.splitOn_intercalate '-' (by simpa using h) (List.cons_ne_nil _ _)
  rwa [List.intercalate_singleton] at hone

/-- Texts without a dash are the pieces of themselves. -/
theorem flatMap_dashParts_of_not_mem {texts : List String} (h : ∀ text ∈ texts, '-' ∉ text.toList) :
    texts.flatMap dashParts = texts.map String.toList := by
  rw [List.flatMap_congr fun text htext => dashParts_of_not_mem (h text htext),
    ← List.map_eq_flatMap]

/-- **Joining keeps the pieces** and nothing else. -/
theorem dashParts_intercalate {texts : List String} (h : texts ≠ []) :
    dashParts ("-".intercalate texts) = texts.flatMap dashParts := by
  induction texts with
  | nil => exact absurd rfl h
  | cons text rest ih =>
    cases rest with
    | nil => rw [String.intercalate_singleton, List.flatMap_cons, List.flatMap_nil, List.append_nil]
    | cons next rest =>
      -- A dash that joins splits, and all others were in the texts.
      have hcons : ("-".intercalate (text :: next :: rest)).toList =
          text.toList ++ '-' :: ("-".intercalate (next :: rest)).toList := by
        simp only [String.toList_intercalate, List.map_cons, List.intercalate_cons_cons,
          List.append_assoc]
        rfl
      rw [List.flatMap_cons, ← ih (List.cons_ne_nil _ _), dashParts, hcons,
        List.splitOn_append_cons_self, dashParts, dashParts]

/-- Where one text at most may hold a dash, and it is the same one on both
sides, the pieces tell the texts. -/
theorem eq_of_flatMap_dashParts_eq {front front' back back' : List String} {s t : String}
    (hfront : front.length = front'.length) (hback : back.length = back'.length)
    (h : ∀ text ∈ front ++ back, '-' ∉ text.toList)
    (h' : ∀ text ∈ front' ++ back', '-' ∉ text.toList)
    (heq : (front ++ s :: back).flatMap dashParts = (front' ++ t :: back').flatMap dashParts) :
    front ++ s :: back = front' ++ t :: back' := by
  rw [List.forall_mem_append] at h h'
  rw [List.flatMap_append, List.flatMap_append, List.flatMap_cons, List.flatMap_cons,
    flatMap_dashParts_of_not_mem h.1, flatMap_dashParts_of_not_mem h.2,
    flatMap_dashParts_of_not_mem h'.1, flatMap_dashParts_of_not_mem h'.2] at heq
  -- The lengths on both sides of the middle are known, so they leave it as long as it is.
  obtain ⟨hfronts, hrest⟩ := List.append_inj heq (by rw [List.length_map, List.length_map, hfront])
  obtain ⟨hparts, hbacks⟩ :=
    List.append_inj' hrest (by rw [List.length_map, List.length_map, hback])
  have hinjective : Function.Injective String.toList := fun _ _ => String.toList_inj.mp
  rw [List.map_injective_iff.mpr hinjective hfronts, dashParts_inj.mp hparts,
    List.map_injective_iff.mpr hinjective hbacks]

/-! ## Keys of an upsert -/

namespace Upsert

/-- The texts that some columns add to a key. -/
def keyTexts (op : Upsert) (columns : List String) : List String :=
  (columns.filterMap op.value?).map Cell.keyText

/-- Every one of some columns has a value. -/
def HasValues (op : Upsert) (columns : List String) : Prop :=
  ∀ column ∈ columns, (op.value? column).isSome

instance (op : Upsert) (columns : List String) : Decidable (op.HasValues columns) :=
  inferInstanceAs (Decidable (∀ column ∈ columns, (op.value? column).isSome))

/-- The column adds no dash to a key. -/
def Dashless (op : Upsert) (column : String) : Prop :=
  ∀ value, op.value? column = some value → '-' ∉ value.keyText.toList

variable {op other : Upsert} {columns : List String}

theorem keyTexts_append (op : Upsert) (front back : List String) :
    op.keyTexts (front ++ back) = op.keyTexts front ++ op.keyTexts back := by
  rw [keyTexts, List.filterMap_append, List.map_append, keyTexts, keyTexts]

theorem keyTexts_cons {column : String} {value : Cell} (h : op.value? column = some value) :
    op.keyTexts (column :: columns) = value.keyText :: op.keyTexts columns := by
  rw [keyTexts, List.filterMap_cons_some h, List.map_cons, keyTexts]

theorem length_keyTexts (h : op.HasValues columns) :
    (op.keyTexts columns).length = columns.length := by
  induction columns with
  | nil => rfl
  | cons column columns ih =>
    obtain ⟨hfirst, hrest⟩ := List.forall_mem_cons.mp h
    obtain ⟨value, hvalue⟩ := Option.isSome_iff_exists.mp hfirst
    rw [keyTexts_cons hvalue, List.length_cons, ih hrest, List.length_cons]

theorem dash_not_mem_of_mem_keyTexts (h : ∀ column ∈ columns, op.Dashless column) {text : String}
    (htext : text ∈ op.keyTexts columns) : '-' ∉ text.toList := by
  obtain ⟨value, hvalue, rfl⟩ := List.mem_map.mp htext
  obtain ⟨column, hcolumn, hsome⟩ := List.mem_filterMap.mp hvalue
  exact h column hcolumn value hsome

theorem rowKey_ne_nil (h : op.HasValues op.conflict) (hne : op.conflict ≠ []) :
    op.rowKey ≠ [] := by
  rw [← List.length_pos_iff] at hne ⊢
  have hlength : op.rowKey.length = op.conflict.length := length_keyTexts h
  rw [hlength]
  exact hne

/-- **Two texts of a line are one when their keys have the same pieces.** -/
theorem lineId_eq_iff_parts (hempty : op.rowKey = [] ↔ other.rowKey = []) :
    op.lineId = other.lineId ↔ op.rowKey.flatMap dashParts = other.rowKey.flatMap dashParts := by
  by_cases hnil : op.rowKey = []
  · rw [lineId, lineId, hnil, hempty.mp hnil]
    exact iff_of_true rfl rfl
  · rw [← dashParts_inj, lineId, lineId, dashParts_intercalate hnil,
      dashParts_intercalate fun h => hnil (hempty.mpr h)]

/-- With dashes in one key column at most, the text of a line tells the key. -/
theorem rowKey_eq_of_parts_eq {front back : List String} {column : String}
    (hsplit : op.conflict = front ++ column :: back) (hconflict : op.conflict = other.conflict)
    (hvalues : op.HasValues op.conflict) (hothers : other.HasValues op.conflict)
    (hdashless : ∀ c ∈ front ++ back, op.Dashless c ∧ other.Dashless c)
    (h : op.rowKey.flatMap dashParts = other.rowKey.flatMap dashParts) :
    op.rowKey = other.rowKey := by
  have hkey : op.rowKey = op.keyTexts op.conflict := rfl
  have hother : other.rowKey = other.keyTexts other.conflict := rfl
  rw [hsplit] at hvalues hothers
  obtain ⟨hfront, hrest⟩ := List.forall_mem_append.mp hvalues
  obtain ⟨hfront', hrest'⟩ := List.forall_mem_append.mp hothers
  obtain ⟨hmiddle, hback⟩ := List.forall_mem_cons.mp hrest
  obtain ⟨hmiddle', hback'⟩ := List.forall_mem_cons.mp hrest'
  obtain ⟨value, hvalue⟩ := Option.isSome_iff_exists.mp hmiddle
  obtain ⟨value', hvalue'⟩ := Option.isSome_iff_exists.mp hmiddle'
  rw [hkey, hother, ← hconflict, hsplit, keyTexts_append, keyTexts_append, keyTexts_cons hvalue,
    keyTexts_cons hvalue'] at h ⊢
  -- Only the middle text may hold dashes: the texts in front of it and behind it are one piece each,
  -- so counting them tells where it stands.
  refine eq_of_flatMap_dashParts_eq ?_ ?_ ?_ ?_ h
  · rw [length_keyTexts hfront, length_keyTexts hfront']
  · rw [length_keyTexts hback, length_keyTexts hback']
  · rw [← keyTexts_append]
    exact fun _ => dash_not_mem_of_mem_keyTexts fun c hc => (hdashless c hc).1
  · rw [← keyTexts_append]
    exact fun _ => dash_not_mem_of_mem_keyTexts fun c hc => (hdashless c hc).2

end Upsert

/-! ## Rows of a table and rows of the lines -/

/-- Of two rows saved one after the other, the second stands at the place of the
first if the place is its own, and else the first does. -/
theorem TableStore.row?_save_save {op other : Upsert} (hkey : op.rowKey ≠ [])
    (hother : other.rowKey ≠ []) (store : TableStore) :
    ((store.save op).2.save other).2.row? op.place =
      if other.place = op.place then some other else some op := by
  have hsave : (store.save op).2 = store.put op.place op := by
    rw [save, if_neg hkey]
  have hsave' : ((store.put op.place op).save other).2 =
      (store.put op.place op).put other.place other := by
    rw [save, if_neg hother]
  rw [hsave, hsave', row?_put, row?_put, if_pos rfl]

/-- Of two rows saved one after the other the second takes the place of the
first exactly when their places are one. -/
theorem TableStore.row?_save_save_iff {op other : Upsert} (hkey : op.rowKey ≠ [])
    (hother : other.rowKey ≠ []) (store : TableStore) :
    ((store.save op).2.save other).2.row? op.place = some other ↔ op.place = other.place := by
  rw [row?_save_save hkey hother]
  by_cases hplace : other.place = op.place
  · rw [if_pos hplace]
    exact iff_of_true rfl hplace.symm
  · rw [if_neg hplace, Option.some.injEq]
    exact ⟨congrArg Upsert.place, fun heq => absurd heq.symm hplace⟩

/-- Two lines are loaded into one row when they name one table and one text. -/
theorem load?_two_lines {op other : Upsert} (hkey : op.rowKey ≠ []) (hother : other.rowKey ≠ [])
    (hcolumns : Json.numberKey ∉ op.columns) (hcolumns' : Json.numberKey ∉ other.columns) :
    ∃ loaded, load? ((({} : LineStore).save op).2.save other).2.outlet.content = some loaded
      ∧ (loaded.keys.length = 1 ↔ (op.table, op.lineId) = (other.table, other.lineId)) := by
  have hcontent : ((({} : LineStore).save op).2.save other).2.outlet.content =
      Utf8.encode (linesText [op, other]) := by
    rw [LineStore.save_of_limit_eq_none hkey rfl, LineStore.save_of_limit_eq_none hother rfl,
      encode_linesText_cons, encode_linesText_cons, encode_linesText_nil, List.append_nil,
      List.nil_append]
    simp only [List.append_assoc]
  have hload : load? (Utf8.encode (linesText [op, other])) =
      some (([op, other].map Upsert.lineRow).foldl LoadedRows.upsert ∅) :=
    load?_linesText (by simp [hcolumns, hcolumns'])
  refine ⟨_, hcontent ▸ hload, ?_⟩
  generalize hloaded : ([op, other].map Upsert.lineRow).foldl LoadedRows.upsert ∅ = loaded
  have hmem : ∀ row, row ∈ loaded.keys ↔
      row = (other.table, other.lineId) ∨ row = (op.table, op.lineId) := by
    intro row
    rw [← hloaded, ← AList.mem_keys]
    simp only [List.map_cons, List.map_nil, List.foldl_cons, List.foldl_nil, LoadedRows.upsert,
      AList.mem_insert, AList.notMem_empty, or_false, Upsert.lineRow]
  -- No row is there twice, so the rows are as many as their names.
  by_cases hsame : (op.table, op.lineId) = (other.table, other.lineId)
  · have hperm : loaded.keys.Perm [(other.table, other.lineId)] :=
      (List.perm_ext_iff_of_nodup loaded.keys_nodup (List.nodup_singleton _)).mpr
        (by simp [hmem, hsame])
    exact iff_of_true hperm.length_eq hsame
  · have hperm : loaded.keys.Perm [(other.table, other.lineId), (op.table, op.lineId)] :=
      (List.perm_ext_iff_of_nodup loaded.keys_nodup (by simpa [eq_comm] using hsame)).mpr
        (by simp [hmem])
    rw [hperm.length_eq]
    exact iff_of_false (Nat.succ_ne_self 1) hsame

/-- **When lines and a table take two upserts for one row.** The upserts are of
one table and name the same key columns, and all of these have values. A table
overwrites the first with the second when they have one place, and a loader of
their lines does when they have one text. One place is one text, always. The
other way round one text is only the same pieces between dashes, which is one
place as long as no two of the key columns may hold a dash. -/
theorem same_lineId_iff_same_parts {op other : Upsert} (htable : op.table = other.table)
    (hconflict : op.conflict = other.conflict) (hvalues : op.HasValues op.conflict)
    (hothers : other.HasValues op.conflict) :
    (op.conflict ≠ [] → ∀ store : TableStore,
        (((store.save op).2.save other).2.row? op.place = some other ↔ op.place = other.place))
      ∧ (op.conflict ≠ [] → Json.numberKey ∉ op.columns → Json.numberKey ∉ other.columns →
          ∃ loaded, load? ((({} : LineStore).save op).2.save other).2.outlet.content = some loaded
            ∧ (loaded.keys.length = 1 ↔ op.lineId = other.lineId))
      ∧ (op.place = other.place → op.lineId = other.lineId)
      ∧ (op.lineId = other.lineId ↔
          op.rowKey.flatMap dashParts = other.rowKey.flatMap dashParts)
      ∧ ∀ front column back, op.conflict = front ++ column :: back →
          (∀ c ∈ front ++ back, op.Dashless c ∧ other.Dashless c) →
          (op.lineId = other.lineId ↔ op.place = other.place) := by
  have hothers' : other.HasValues other.conflict := hconflict ▸ hothers
  -- All key columns have values, so both keys have as many texts as there are columns.
  have hlength : op.rowKey.length = other.rowKey.length := by
    have hkey : op.rowKey.length = op.conflict.length := Upsert.length_keyTexts hvalues
    have hother : other.rowKey.length = other.conflict.length := Upsert.length_keyTexts hothers'
    rw [hkey, hother, hconflict]
  have hempty : op.rowKey = [] ↔ other.rowKey = [] := by
    rw [← List.length_eq_zero_iff, hlength, List.length_eq_zero_iff]
  have hparts := Upsert.lineId_eq_iff_parts hempty
  have hid : op.place = other.place → op.lineId = other.lineId := by
    intro hplace
    have hkey : op.rowKey = other.rowKey := congrArg RowPlace.key hplace
    rw [Upsert.lineId, Upsert.lineId, hkey]
  refine ⟨fun hne store => ?_, fun hne hcolumns hcolumns' => ?_, hid, hparts,
    fun front column back hsplit hdashless => ⟨fun h => ?_, hid⟩⟩
  · have hkey := Upsert.rowKey_ne_nil hvalues hne
    exact TableStore.row?_save_save_iff hkey (fun h => hkey (hempty.mpr h)) store
  · have hkey := Upsert.rowKey_ne_nil hvalues hne
    obtain ⟨loaded, hload, hrows⟩ :=
      load?_two_lines hkey (fun h => hkey (hempty.mpr h)) hcolumns hcolumns'
    exact ⟨loaded, hload, by rw [hrows, htable, Prod.mk.injEq, and_iff_right rfl]⟩
  · have hkey := Upsert.rowKey_eq_of_parts_eq hsplit hconflict hvalues hothers hdashless
      (hparts.mp h)
    rw [Upsert.place, Upsert.place, htable, hkey]

/-- A dash in the first key column and none in the second, and values of other
types with the same texts. -/
theorem same_lineId_iff_same_parts_dash_in_one :
    let op : Upsert := ⟨"t", ["a", "b", "c"], [.text "x-y", .bytes [0xab], .text "1"], ["a", "b"],
      ["c"]⟩
    let other : Upsert := ⟨"t", ["a", "b", "c"], [.numeric "x-y", .text "ab", .text "2"],
      ["a", "b"], ["c"]⟩
    op.HasValues op.conflict ∧ other.HasValues op.conflict
      ∧ (op.Dashless "b" ∧ other.Dashless "b")
      ∧ op.lineId = other.lineId ∧ op.place = other.place
      ∧ (∀ store : TableStore, ((store.save op).2.save other).2.row? op.place = some other)
      ∧ ∃ loaded, load? ((({} : LineStore).save op).2.save other).2.outlet.content = some loaded
          ∧ loaded.keys.length = 1 := by
  intro op other
  have hvalues : op.HasValues op.conflict := by decide
  have hothers : other.HasValues op.conflict := by decide
  have hdashless : op.Dashless "b" ∧ other.Dashless "b" := by
    constructor
    · rintro value ⟨⟩
      decide
    · rintro value ⟨⟩
      decide
  have hid : op.lineId = other.lineId := by decide
  obtain ⟨htable, hlines, -, -, hplace⟩ :=
    @same_lineId_iff_same_parts op other rfl rfl hvalues hothers
  have hsame : op.place = other.place :=
    (hplace [] "a" ["b"] rfl (by simpa using hdashless)).mp hid
  obtain ⟨loaded, hload, hrows⟩ := hlines (by decide) (by decide) (by decide)
  exact ⟨hvalues, hothers, hdashless, hid, hsame, fun store => (htable (by decide) store).mpr hsame,
    loaded, hload, hrows.mpr hid⟩

/-- With dashes in two of the key columns, two rows of a table have one text and
are loaded as one. -/
theorem rows_merged_when_loaded :
    ∃ op other : Upsert, op.table = other.table ∧ op.conflict = other.conflict
      ∧ op.HasValues op.conflict ∧ other.HasValues op.conflict
      ∧ op.lineId = other.lineId ∧ op.place ≠ other.place
      ∧ (∀ store : TableStore, ((store.save op).2.save other).2.row? op.place = some op)
      ∧ ∃ loaded, load? ((({} : LineStore).save op).2.save other).2.outlet.content = some loaded
          ∧ loaded.keys.length = 1 := by
  let op : Upsert := ⟨"t", ["a", "b"], [.text "a-b", .text "c"], ["a", "b"], []⟩
  let other : Upsert := ⟨"t", ["a", "b"], [.text "a", .text "b-c"], ["a", "b"], []⟩
  have hkey : op.rowKey ≠ [] := by decide
  have hother : other.rowKey ≠ [] := by decide
  have hid : op.lineId = other.lineId := by decide
  have hplace : op.place ≠ other.place := by decide
  obtain ⟨loaded, hload, hrows⟩ := load?_two_lines hkey hother (by decide) (by decide)
  refine ⟨op, other, rfl, rfl, by decide, by decide, hid, hplace, fun store => ?_, loaded, hload,
    hrows.mpr (Prod.ext rfl hid)⟩
  rw [TableStore.row?_save_save hkey hother, if_neg hplace.symm]

end EscrowFeed
