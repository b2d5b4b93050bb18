/-
The lines of a store of lines: what is written for an upsert and for a run of
them, and what a reader of a line gets.
-/
import EscrowFeed.Store.Lines
import EscrowFeed.Proofs.Json.Nested
import EscrowFeed.Proofs.Json.OneLine
import EscrowFeed.Proofs.Store.Saving

set_option autoImplicit false

namespace EscrowFeed

/-! ## Writing -/

/-- An outlet without a limit takes everything. -/
theorem Outlet.write_of_limit_eq_none {outlet : Outlet} (h : outlet.limit = none) (bytes : Bytes) :
    outlet.write bytes = (.ok (), { outlet with content := outlet.content ++ bytes }) := by
  have hfits : outlet.fitting bytes = bytes := by
    rw [fitting, h]
  rw [write, hfits, if_pos rfl]

/-- **Where nothing is refused, an upsert with a key is one more line.** -/
theorem LineStore.save_of_limit_eq_none {op : Upsert} {store : LineStore}
    (hkey : op.rowKey ≠ []) (h : store.outlet.limit = none) :
    store.save op =
      (.ok (),
        { outlet :=
            { store.outlet with
              content := store.outlet.content ++ Utf8.encode op.line ++ Utf8.encode "\n" }
          written := store.written + 1 }) := by
  simp only [save, if_neg hkey, Outlet.write_of_limit_eq_none, h]

/-! ## Runs of lines -/

theorem Utf8.encode_append (s t : String) : encode (s ++ t) = encode s ++ encode t := by
  rw [encode, String.toByteArray_append, ByteArray.toList_data_append, encode, encode]

/-- The lines of upserts, each with its line feed. -/
def linesText (ops : List Upsert) : String := String.join (ops.map fun op => op.line ++ "\n")

theorem encode_linesText_cons (op : Upsert) (rest : List Upsert) :
    Utf8.encode (linesText (op :: rest)) =
      Utf8.encode op.line ++ Utf8.encode "\n" ++ Utf8.encode (linesText rest) := by
  rw [linesText, List.map_cons, String.join_cons, Utf8.encode_append, Utf8.encode_append,
    linesText]

theorem encode_linesText_nil : Utf8.encode (linesText []) = [] := rfl

namespace LineStore

/-- The store with upserts written behind what it has. -/
def addLines (ops : List Upsert) (store : LineStore) : LineStore where
  outlet := { store.outlet with content := store.outlet.content ++ Utf8.encode (linesText ops) }
  written := store.written + ops.length

theorem addLines_nil (store : LineStore) : store.addLines [] = store := by
  rw [addLines, encode_linesText_nil, List.append_nil]
  rfl

theorem addLines_cons (op : Upsert) (rest : List Upsert) (store : LineStore) :
    store.addLines (op :: rest) = (store.addLines [op]).addLines rest := by
  simp only [addLines, encode_linesText_cons, encode_linesText_nil, List.append_nil,
    List.append_assoc, List.length_cons, List.length_nil, Nat.zero_add, Nat.add_assoc,
    Nat.add_comm 1]

/-- Whether the outlet can be flushed is no matter to the lines, and stays as it is. -/
theorem takesAll (fails : Bool) :
    RowStore.TakesAll
      (fun store : LineStore => store.outlet.limit = none ∧ store.outlet.flushFails = fails)
      fun store op => store.addLines [op] where
  save_eq {store op} hstore hkey := by
    rw [addLines, encode_linesText_cons, encode_linesText_nil, List.append_nil, ← List.append_assoc]
    exact save_of_limit_eq_none hkey hstore.1
  good_next hstore _ := hstore

/-- **Upserts are written one behind the other.** -/
theorem foldl_addLines (ops : List Upsert) (store : LineStore) :
    ops.foldl (fun store op => store.addLines [op]) store = store.addLines ops := by
  induction ops generalizing store with
  | nil => exact store.addLines_nil.symm
  | cons op rest ih =>
    rw [List.foldl_cons, ih]
    exact (store.addLines_cons op rest).symm

theorem flush_of_flushFails_eq_false {store : LineStore} (h : store.outlet.flushFails = false) :
    RowStore.flush store = (.ok (), store) := by
  have hflush : RowStore.flush store =
      (store.outlet.flush.mapError fun error => .medium error.message, store) := rfl
  rw [hflush, Outlet.flush, h]
  rfl

end LineStore

/-! ## Reading -/

/-- Every cell is written as a string. -/
theorem Cell.exists_toJson_eq_string (cell : Cell) : ∃ content, cell.toJson = .string content := by
  cases cell <;> exact ⟨_, rfl⟩

/-- Under every key of an upsert's fields stands a text, and the key is a
column. -/
theorem Upsert.mem_fields {op : Upsert} {m : String × Json} (h : m ∈ op.fields) :
    m.1 ∈ op.columns ∧ ∃ content, m.2 = .string content := by
  rw [fields] at h
  have hentry := Members.mem_of_mem_ofList h
  obtain ⟨column, hcolumn, rfl⟩ := List.mem_map.mp hentry
  have hzip := (List.mem_filter.mp hcolumn).1
  exact ⟨(List.of_mem_zip hzip).1, column.2.exists_toJson_eq_string⟩

/-- An upsert is written on one line, whatever its texts are. -/
theorem Upsert.newline_not_mem_line (op : Upsert) : '\n' ∉ op.line.toList := by
  have hfields : '\n' ∉ Json.print (.object op.fields) := by
    apply Json.newline_not_mem_print_object
    intro m hm
    obtain ⟨-, content, hcontent⟩ := op.mem_fields hm
    rw [hcontent]
    exact Json.newline_not_mem_print_string content
  -- One member of the line is an object itself, so there are two objects to print.
  rw [line, Json.text, String.toList_ofList, toJson]
  apply Json.newline_not_mem_print_object
  intro m hm
  simp only [List.mem_cons, List.not_mem_nil, or_false] at hm
  rcases hm with rfl | rfl | rfl
  · exact hfields
  · exact Json.newline_not_mem_print_string op.lineId
  · exact Json.newline_not_mem_print_string op.table

/-- Members with texts under their keys are an object that reads back. -/
theorem Json.readable_object_of_strings {members : List (String × Json)} (levels : Nat)
    (hsorted : Members.Sorted members)
    (h : ∀ m ∈ members, m.1 ≠ numberKey ∧ ∃ content, m.2 = .string content) :
    (Json.object members).Readable (levels + 1) := by
  rw [Readable]
  refine ⟨hsorted, fun m hm => (h m (List.mem_of_head? hm)).1, fun m hm => ?_⟩
  obtain ⟨-, content, hcontent⟩ := h m hm
  rw [hcontent, Readable]
  trivial

/-- **A line reads as the row that it is of**, with what the fields make under
their key. -/
theorem Upsert.read?_line_eq (op : Upsert) :
    Json.read? op.line =
      (Json.ofMembers? op.fields).map fun fields =>
        .object [("fields", fields), ("id", .string op.lineId), ("table", .string op.table)] := by
  rw [line, toJson]
  apply Json.read?_text_nested (by decide : "fields" ≠ Json.numberKey)
  · exact Members.sorted_of_keys ["fields", "id", "table"] (by decide) rfl
  · intro m hm
    obtain ⟨-, content, hcontent⟩ := op.mem_fields hm
    rw [hcontent, Json.Readable]
    trivial
  · intro m hm
    simp only [List.mem_cons, List.not_mem_nil, or_false] at hm
    rcases hm with rfl | rfl <;> exact trivial

/-- The fields make the object that they are, unless a column has the name that
stands for a number. -/
theorem Upsert.read?_line {op : Upsert} (h : Json.numberKey ∉ op.columns) :
    Json.read? op.line = some op.toJson := by
  have hfields : Json.ofMembers? op.fields = some (.object op.fields) := by
    refine Json.ofMembers?_eq_some_iff.mpr (.object ?_ (Members.sorted_ofList _).lastOfEach)
    intro m hm heq
    exact h (heq ▸ (op.mem_fields (List.mem_of_head? hm)).1)
  rw [read?_line_eq, hfields, toJson]
  rfl

end EscrowFeed
