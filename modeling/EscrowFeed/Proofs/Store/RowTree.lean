/-
The field tree of a written line.

Whoever reads a line as a description gets the table, the key and the fields,
each text as it was: the line escapes what has to be escaped, whatever the
characters are. There is one name of a column that does not come through. If it
is the smallest one, then it opens the object of the fields, and an object that
opens with it is a number or an error. Behind a smaller name it is a column like
any other.
-/
import EscrowFeed.Proofs.Field.Coercion
import EscrowFeed.Proofs.Store.Limit

set_option autoImplicit false

namespace EscrowFeed

/-! ## Fields of texts -/

/-- Members that are all strings are texts under keys. -/
theorem exists_map_string {members : List (String × Json)}
    (h : ∀ m ∈ members, ∃ content, m.2 = .string content) :
    ∃ texts : List (String × String), members = texts.map fun t => (t.1, .string t.2) := by
  induction members with
  | nil => exact ⟨[], rfl⟩
  | cons m rest ih =>
    obtain ⟨⟨content, hcontent⟩, hrest⟩ := List.forall_mem_cons.mp h
    obtain ⟨texts, rfl⟩ := ih hrest
    exact ⟨(m.1, content) :: texts, by rw [List.map_cons, ← hcontent]⟩

theorem Field.ofMembers_strings (texts : List (String × String)) :
    ofMembers (texts.map fun t => (t.1, .string t.2)) = texts.map fun t => (t.1, .text t.2) := by
  induction texts with
  | nil => rw [List.map_nil, ofMembers, List.map_nil]
  | cons t rest ih => rw [List.map_cons, ofMembers, ih, ofJson, List.map_cons]

/-- Members in order make the object that they are, unless the key that stands
for a number is the smallest. -/
theorem Json.ofMembers?_of_not_isSmallest {members : List (String × Json)}
    (hsorted : Members.Sorted members) (h : ¬Members.IsSmallest numberKey members) :
    ofMembers? members = some (.object members) := by
  refine ofMembers?_eq_some_iff.mpr (.object ?_ hsorted.lastOfEach)
  rintro ⟨key, value⟩ hfirst rfl
  cases members with
  | nil => cases hfirst
  | cons first rest =>
    obtain rfl := Option.some.inj hfirst
    exact h (hsorted.isSmallest_iff.mpr ⟨value, rest, rfl⟩)

/-- If it is, they are a number that is written out, or make nothing. -/
theorem Json.ofMembers?_of_isSmallest {members : List (String × Json)}
    (hsorted : Members.Sorted members) (h : Members.IsSmallest numberKey members) :
    ofMembers? members = none
      ∨ ∃ literal, Numeral literal.toList ∧ members = [(numberKey, .string literal)]
        ∧ ofMembers? members = some (.number literal) := by
  -- The key stands first, so it is tried as that of a number, and nothing may follow it.
  obtain ⟨first, rest, rfl⟩ := hsorted.isSmallest_iff.mp h
  cases hvalue : ofMembers? ((numberKey, first) :: rest) with
  | none => exact .inl rfl
  | some value =>
    cases ofMembers?_eq_some_iff.mp hvalue with
    | @number s hs =>
      refine .inr ⟨String.ofList s, ?_, rfl, rfl⟩
      rw [String.toList_ofList]
      exact hs
    | object hfirst => exact absurd rfl (hfirst (numberKey, first) rfl)

/-! ## The tree of a line -/

theorem Upsert.line_ne_empty (op : Upsert) : op.line ≠ "" := by
  intro h
  refine op.encode_line_ne_nil ?_
  rw [h]
  rfl

/-- A line is an object unless its fields make nothing. -/
theorem Upsert.parse_line (op : Upsert) :
    Description.parse op.line =
      match Json.ofMembers? op.fields with
      | none => .error .notAnObject
      | some fields =>
        .ok ⟨[("fields", .ofJson fields), ("id", .text op.lineId), ("table", .text op.table)]⟩ := by
  rw [Description.parse, if_neg op.line_ne_empty, read?_line_eq]
  cases Json.ofMembers? op.fields with
  | none => rfl
  | some fields => simp only [Option.map_some, Field.ofJson, Field.ofMembers]

/-! ## Saving -/

/-- A write that succeeds has passed on everything. -/
theorem Outlet.write_of_eq_ok {outlet : Outlet} {bytes : Bytes}
    (h : (outlet.write bytes).1 = .ok ()) :
    outlet.write bytes = (.ok (), { outlet with content := outlet.content ++ bytes }) := by
  have hlength : (outlet.fitting bytes).length = bytes.length := by
    rw [write] at h
    dsimp only at h
    split at h
    · assumption
    · cases h
  have hfits : outlet.fitting bytes = bytes := by
    rw [fitting] at hlength ⊢
    split
    · rfl
    · next limit hlimit =>
      rw [hlimit] at hlength
      exact (List.take_prefix _ bytes).eq_of_length hlength
  rw [write, hfits, if_pos rfl]

namespace LineStore

/-- **A save that succeeds has written the whole line.** -/
theorem content_save_of_eq_ok {op : Upsert} {store : LineStore}
    (h : (store.save op).1 = .ok ()) :
    (store.save op).2.outlet.content =
      store.outlet.content ++ Utf8.encode op.line ++ Utf8.encode "\n" := by
  rw [save] at h ⊢
  split at h
  · cases h
  · next hkey =>
    rw [if_neg hkey]
    -- Two writes, and a success of the save is one of both.
    cases hline : store.outlet.write (Utf8.encode op.line) with
    | mk outcome outlet =>
      rw [hline] at h
      cases outcome with
      | error error => cases h
      | ok =>
        have hcontent := Outlet.write_of_eq_ok (congrArg Prod.fst hline)
        rw [hline] at hcontent
        obtain rfl := (Prod.mk.inj hcontent).2
        dsimp only at h ⊢
        cases hfeed : ({ store.outlet with
            content := store.outlet.content ++ Utf8.encode op.line } : Outlet).write
              (Utf8.encode "\n") with
        | mk outcome outlet =>
          rw [hfeed] at h
          cases outcome with
          | error error => cases h
          | ok =>
            have hcontent := Outlet.write_of_eq_ok (congrArg Prod.fst hfeed)
            rw [hfeed] at hcontent
            obtain rfl := (Prod.mk.inj hcontent).2
            rfl

/-- **What a save writes is one line, and it reads back.** A save of an upsert
with a key succeeds wherever nothing is refused, and one that succeeds has
written the upsert's line and the one line feed behind it. The line's tree has
the table, the key and every field with its text, whatever characters these are
made of. The exception is a smallest field of the name that stands for a number:
then the fields read as a number, or the line as no object. -/
theorem save_reads_back (op : Upsert) (store : LineStore) :
    (op.rowKey ≠ [] → store.outlet.limit = none → (store.save op).1 = .ok ())
      ∧ ((store.save op).1 = .ok () →
          (store.save op).2.outlet.content = store.outlet.content ++ Utf8.encode op.line ++ [10]
            ∧ 10 ∉ Utf8.encode op.line)
      ∧ ∃ texts : List (String × String), op.fields = (texts.map fun t => (t.1, .string t.2))
        ∧ (Description.parse op.line =
              .ok ⟨[("fields", .object (texts.map fun t => (t.1, .text t.2))),
                ("id", .text op.lineId), ("table", .text op.table)]⟩ ↔
            ¬Members.IsSmallest Json.numberKey op.fields)
        ∧ (Members.IsSmallest Json.numberKey op.fields →
            Description.parse op.line = .error .notAnObject
              ∨ ∃ literal field, Json.Numeral literal.toList
                ∧ op.fields = [(Json.numberKey, .string literal)]
                ∧ Field.Coerces (.number literal) field
                ∧ Description.parse op.line =
                    .ok ⟨[("fields", field), ("id", .text op.lineId),
                      ("table", .text op.table)]⟩) := by
  have hsorted : Members.Sorted op.fields := Members.sorted_ofList _
  obtain ⟨texts, htexts⟩ := exists_map_string fun m hm => (op.mem_fields hm).2
  -- The fields come first in the line, so they are what may be taken for a number.
  have hnumber : Members.IsSmallest Json.numberKey op.fields →
      Description.parse op.line = .error .notAnObject
        ∨ ∃ literal field, Json.Numeral literal.toList
          ∧ op.fields = [(Json.numberKey, .string literal)]
          ∧ Field.Coerces (.number literal) field
          ∧ Description.parse op.line =
              .ok ⟨[("fields", field), ("id", .text op.lineId), ("table", .text op.table)]⟩ := by
    intro hsmallest
    rcases Json.ofMembers?_of_isSmallest hsorted hsmallest with
      hnone | ⟨literal, hliteral, hfields, hvalue⟩
    · exact .inl (by rw [op.parse_line, hnone])
    · exact .inr ⟨literal, _, hliteral, hfields, Field.coerces_ofJson _,
        by rw [op.parse_line, hvalue]⟩
  refine ⟨fun hkey hlimit => ?_, fun hok => ⟨?_, ?_⟩, texts, htexts, ⟨fun hparse hsmallest => ?_,
    fun hsmallest => ?_⟩, hnumber⟩
  · rw [save_of_limit_eq_none hkey hlimit]
  · exact content_save_of_eq_ok hok
  · exact Utf8.newline_not_mem_encode op.newline_not_mem_line
  · -- Neither an error nor the tree of a number is an object.
    rcases hnumber hsmallest with herror | ⟨literal, field, -, -, hfield, hok⟩
    · rw [herror] at hparse
      cases hparse
    · rw [hok, Except.ok.injEq, Description.mk.injEq, List.cons.injEq, Prod.mk.injEq] at hparse
      obtain rfl := hparse.1.2
      cases hfield
  · rw [op.parse_line, Json.ofMembers?_of_not_isSmallest hsorted hsmallest]
    dsimp only
    rw [Field.ofJson, htexts, Field.ofMembers_strings]

/-- A line feed, quotes, a control character and one beyond the first 65536, with
the name that stands for a number behind a smaller one, and then on its own. -/
theorem save_reads_back_note :
    let op : Upsert := ⟨"note\n", ["id", Json.numberKey, "#"],
      [.text "k\n", .numeric "1", .text "\"a\\\n\u0001\" 𝄞"], ["id"], []⟩
    let bare : Upsert :=
      ⟨"note\n", ["id", Json.numberKey], [.text "k\n", .numeric "1"], ["id"], []⟩
    (LineStore.save op {}).1 = .ok ()
      ∧ (LineStore.save op {}).2.outlet.content.count 10 = 1
      ∧ Description.parse op.line =
          .ok ⟨[("fields", .object
              [("#", .text "\"a\\\n\u0001\" 𝄞"), (Json.numberKey, .text "1")]),
            ("id", .text "k\n"), ("table", .text "note\n")]⟩
      ∧ Members.IsSmallest Json.numberKey bare.fields
      ∧ ∀ fields, Description.parse bare.line ≠
          .ok ⟨[("fields", .object fields), ("id", .text "k\n"), ("table", .text "note\n")]⟩ := by
  have hfields : (⟨"note\n", ["id", Json.numberKey, "#"],
      [.text "k\n", .numeric "1", .text "\"a\\\n\u0001\" 𝄞"], ["id"], []⟩ : Upsert).fields =
        [("#", .string "\"a\\\n\u0001\" 𝄞"), (Json.numberKey, .string "1")] := by rfl
  intro op bare
  obtain ⟨hsave, hwritten, texts, htexts, hparse, -⟩ := save_reads_back op {}
  obtain ⟨-, -, -, -, -, hbare⟩ := save_reads_back bare {}
  have hok : (LineStore.save op {}).1 = .ok () := hsave (by decide) rfl
  obtain ⟨hcontent, hnewline⟩ := hwritten hok
  have htree : (texts.map fun t => (t.1, Field.text t.2)) =
      [("#", .text "\"a\\\n\u0001\" 𝄞"), (Json.numberKey, .text "1")] := by
    rw [← Field.ofMembers_strings, ← htexts, hfields]
    simp only [Field.ofMembers, Field.ofJson]
  have hsmaller : ¬Members.IsSmallest Json.numberKey op.fields := by
    rw [hfields]
    exact fun h => absurd (h.2 "#" List.mem_cons_self) (by decide)
  have hsmallest : Members.IsSmallest Json.numberKey bare.fields :=
    (Members.sorted_ofList _).isSmallest_iff.mpr ⟨.string "1", [], rfl⟩
  refine ⟨hok, ?_, ?_, hsmallest, fun fields heq => ?_⟩
  · rw [hcontent, List.nil_append, List.count_append, List.count_eq_zero.mpr hnewline]
    rfl
  · rw [hparse.mpr hsmaller, htree]
    rfl
  · rcases hbare hsmallest with herror | ⟨literal, field, -, -, hfield, hnumber⟩
    · rw [herror] at heq
      cases heq
    · rw [hnumber, Except.ok.injEq, Description.mk.injEq, List.cons.injEq, Prod.mk.injEq] at heq
      obtain rfl := heq.1.2
      cases hfield

end LineStore

end EscrowFeed
