/-
Lines into an outlet that fills up.

Such an outlet passes on the beginning of what it is given and nothing else, so
its content can be told from the bytes that were given and the limit, without a
look at the writes they came in. For lines this says what is there in the end.
What a save answers is a matter of where its line ends: within the limit, one
byte behind it, so that only the line feed is lost, or further on. Every save
moves that end, also one that fails, since its line was given to the outlet like
any other; a save without a key gives nothing and moves nothing.

Complete lines are counted twice, once by the store and once by the line feeds
in the content. The two agree because a line has no line feed of its own, not as
a character and not as a byte, and so the piece of a line at the end of a full
outlet has none.
-/
import EscrowFeed.Proofs.Store.Lines

set_option autoImplicit false

namespace EscrowFeed

open RowStore

/-! ## Line feeds among the bytes of a text -/

namespace Utf8

/-- The bytes of a text are those of its characters, one after the other. -/
theorem encode_eq_flatMap (text : String) :
    encode text = text.toList.flatMap String.utf8EncodeChar := by
  rw [encode, ← String.ofList_toList (s := text), String.toByteArray_ofList, List.utf8Encode,
    List.toList_data_toByteArray, String.toList_ofList]

/-- In a character of several bytes every byte has the top bit. -/
theorem le_toNat_of_mem_utf8EncodeChar {c : Char} (hc : 128 ≤ c.val.toNat) :
    ∀ b ∈ String.utf8EncodeChar c, 128 ≤ b.toNat := by
  have hbyte : ∀ n, 128 ≤ n → n < 256 → 128 ≤ (UInt8.ofNat n).toNat := by
    intro n hn hlt
    rwa [UInt8.toNat_ofNat_of_lt' hlt]
  simp only [String.utf8EncodeChar]
  rw [if_neg (by omega)]
  split
  on_goal 2 => split
  all_goals
    simp only [List.forall_mem_cons]
    and_intros
    any_goals exact hbyte _ (by omega) (by omega)
    exact List.forall_mem_nil _

/-- The byte of a line feed is no part of another character. -/
theorem eq_newline_of_mem {c : Char} (h : 10 ∈ String.utf8EncodeChar c) : c = '\n' := by
  have hone : c.val.toNat < 128 := by
    by_contra hmany
    exact absurd (le_toNat_of_mem_utf8EncodeChar (by omega) 10 h) (by decide)
  simp only [String.utf8EncodeChar] at h
  rw [if_pos (by omega), List.mem_singleton] at h
  apply Char.toNat_inj.mp
  show c.val.toNat = 10
  rw [← UInt8.toNat_ofNat_of_lt' (show c.val.toNat < 256 by omega), ← h]
  rfl

theorem newline_not_mem_encode {text : String} (h : '\n' ∉ text.toList) : 10 ∉ encode text := by
  rw [encode_eq_flatMap, List.mem_flatMap]
  rintro ⟨c, hc, hbyte⟩
  rw [eq_newline_of_mem hbyte] at hc
  exact h hc

end Utf8

/-! ## One write -/

/-- **What has been passed on is the beginning of what was given**, and a write
succeeds if its last byte was still within the limit. -/
theorem Outlet.write_of_limit {outlet : Outlet} {limit : Nat} {given bytes : Bytes}
    (hlimit : outlet.limit = some limit) (hcontent : outlet.content = given.take limit)
    (hbytes : bytes ≠ []) :
    outlet.write bytes =
      (if given.length + bytes.length ≤ limit then .ok () else .error .full,
        { outlet with content := (given ++ bytes).take limit }) := by
  have hpos := List.length_pos_iff.mpr hbytes
  -- The content is what fitted of all that was given, so the room left is counted from there.
  have hfits : outlet.fitting bytes = bytes.take (limit - given.length) := by
    rw [fitting, hlimit]
    dsimp only
    rw [hcontent, List.length_take]
    congr 1
    omega
  have hlength : (bytes.take (limit - given.length)).length = bytes.length ↔
      given.length + bytes.length ≤ limit := by
    rw [List.length_take]
    omega
  simp only [write, hfits, hlength, hcontent, List.take_append]

/-- A line feed is one byte, so it is taken whole or not at all. -/
theorem Outlet.write_newline_of_limit (outlet : Outlet) {limit : Nat} {given : Bytes}
    (hlimit : outlet.limit = some limit) (hcontent : outlet.content = given.take limit) :
    outlet.write (Utf8.encode "\n") =
      (if given.length + 1 ≤ limit then .ok () else .error .full,
        { outlet with content := (given ++ Utf8.encode "\n").take limit }) := by
  have hnewline : (Utf8.encode "\n").length = 1 := by decide
  rw [write_of_limit hlimit hcontent (by decide), hnewline]

/-! ## One save -/

theorem encode_linesText_append (front rest : List Upsert) :
    Utf8.encode (linesText (front ++ rest)) =
      Utf8.encode (linesText front) ++ Utf8.encode (linesText rest) := by
  rw [linesText, List.map_append, String.join_append, Utf8.encode_append, linesText, linesText]

/-- How many bytes the lines of upserts are, line feeds included. -/
def linesSize (ops : List Upsert) : Nat := (Utf8.encode (linesText ops)).length

theorem linesSize_append (front rest : List Upsert) :
    linesSize (front ++ rest) = linesSize front + linesSize rest := by
  rw [linesSize, encode_linesText_append, List.length_append, linesSize, linesSize]

theorem linesSize_take_le (n : Nat) (ops : List Upsert) :
    linesSize (ops.take n) ≤ linesSize ops := by
  have hsplit := linesSize_append (ops.take n) (ops.drop n)
  rw [List.take_append_drop] at hsplit
  omega

theorem linesSize_singleton (op : Upsert) :
    linesSize [op] = (Utf8.encode op.line).length + 1 := by
  rw [linesSize, encode_linesText_cons, encode_linesText_nil, List.append_nil, List.length_append]
  rfl

/-- A line has bytes before its line feed: the row is an object. -/
theorem Upsert.encode_line_ne_nil (op : Upsert) : Utf8.encode op.line ≠ [] := by
  have hopen : '{' ∈ op.line.toList := by
    rw [line, Json.text, String.toList_ofList, toJson, Json.print]
    exact List.mem_cons_self
  rw [Utf8.encode_eq_flatMap, ne_eq, List.flatMap_eq_nil_iff]
  intro hall
  exact absurd (hall '{' hopen) (by decide)

namespace LineStore

/-- What a store of lines answers to an upsert with a key whose line ends at the
byte `size`, if its outlet has room for `limit` bytes. -/
def answerAt (limit size : Nat) : Except StoreError Unit :=
  if size ≤ limit then .ok ()
  else if size = limit + 1 then .error (.medium OutletError.full.message)
  else .error (.rowText OutletError.full.message)

/-- What it answers to an upsert after others, if it was fresh in the beginning:
the lines in front are those of the upserts that had a key. -/
def answer (limit : Nat) (before : List Upsert) (op : Upsert) : Except StoreError Unit :=
  if op.rowKey = [] then .error (.missingKey op.table)
  else answerAt limit (linesSize (keyed (before ++ [op])))

/-- **A save gives the outlet its line**, and where that ends decides the rest. -/
theorem save_of_limit {op : Upsert} {store : LineStore} {limit : Nat} {given : Bytes}
    (hkey : op.rowKey ≠ []) (hlimit : store.outlet.limit = some limit)
    (hcontent : store.outlet.content = given.take limit) :
    RowStore.save op store =
      (answerAt limit (given.length + linesSize [op]),
        { outlet :=
            { store.outlet with content := (given ++ Utf8.encode (linesText [op])).take limit }
          written :=
            if given.length + linesSize [op] ≤ limit then store.written + 1
            else store.written }) := by
  have hbody := Outlet.write_of_limit hlimit hcontent op.encode_line_ne_nil
  have hline : Utf8.encode (linesText [op]) = Utf8.encode op.line ++ Utf8.encode "\n" := by
    rw [encode_linesText_cons, encode_linesText_nil, List.append_nil]
  show store.save op = _
  rw [save, if_neg hkey, hbody, linesSize_singleton, hline]
  generalize Utf8.encode op.line = body
  by_cases hfits : given.length + body.length ≤ limit
  · -- The body is in, and the line feed is the one byte that may still be too much.
    have hfeed := Outlet.write_newline_of_limit
      { store.outlet with content := (given ++ body).take limit } hlimit rfl
    rw [List.length_append, Nat.add_assoc, List.append_assoc] at hfeed
    rw [if_pos hfits]
    dsimp only
    rw [hfeed]
    by_cases hall : given.length + (body.length + 1) ≤ limit
    · rw [if_pos hall, answerAt, if_pos hall, if_pos hall]
    · rw [if_neg hall, answerAt, if_neg hall, if_pos (by omega), if_neg hall]
  · -- A body that does not fit has filled the outlet, so its line feed would change nothing.
    have hfull : (given ++ (body ++ Utf8.encode "\n")).take limit = (given ++ body).take limit := by
      rw [← List.append_assoc, List.take_append_of_le_length]
      rw [List.length_append]
      omega
    rw [if_neg hfits, answerAt, if_neg (by omega), if_neg (by omega), if_neg (by omega), hfull]

/-- An upsert without a key is refused before anything is written. -/
theorem save_of_rowKey_eq_nil {op : Upsert} (hkey : op.rowKey = []) (store : LineStore) :
    RowStore.save op store = (.error (.missingKey op.table), store) :=
  if_pos hkey

/-- However full the outlet is, a line is counted exactly if its save succeeds. -/
theorem written_save (op : Upsert) (store : LineStore) :
    (RowStore.save op store).2.written =
      store.written + if (RowStore.save op store).1 = .ok () then 1 else 0 := by
  show (store.save op).2.written = store.written + if (store.save op).1 = .ok () then 1 else 0
  by_cases hkey : op.rowKey = []
  · simp [save, hkey]
  · rcases hbody : store.outlet.write (Utf8.encode op.line) with ⟨_ | _, outlet⟩
    · simp [save, hkey, hbody]
    · rcases hfeed : outlet.write (Utf8.encode "\n") with ⟨_ | _, _⟩
      · simp [save, hkey, hbody, hfeed]
      · simp [save, hkey, hbody, hfeed]

/-- A run counts the saves that succeed, whatever happens between them. -/
theorem written_saveEach (ops : List Upsert) (store : LineStore) :
    (saveEach ops store).2.written =
      store.written + (saveEach ops store).1.countP fun result => result = .ok () := by
  induction ops generalizing store with
  | nil => rfl
  | cons op rest ih =>
    rw [saveEach, List.countP_cons, ih, written_save]
    simp only [decide_eq_true_eq]
    omega

/-! ## A run of saves -/

/-- A store whose outlet has room for `limit` bytes, after it was given the lines
of some upserts. The lines that it counts are as many of the first as fit. -/
structure Given (limit : Nat) (ops : List Upsert) (store : LineStore) : Prop where
  limit_eq : store.outlet.limit = some limit
  content_eq : store.outlet.content = (Utf8.encode (linesText ops)).take limit
  written_le : store.written ≤ ops.length
  le_written_iff : ∀ n ≤ ops.length, n ≤ store.written ↔ linesSize (ops.take n) ≤ limit

theorem given_nil (limit : Nat) : Given limit [] { outlet := { limit := some limit } } where
  limit_eq := rfl
  content_eq := List.take_nil.symm
  written_le := Nat.le_refl 0
  le_written_iff n hn := by
    rw [Nat.le_zero.mp hn]
    exact iff_of_true (Nat.le_refl 0) (Nat.zero_le limit)

/-- **One more line.** -/
theorem Given.save {limit : Nat} {ops : List Upsert} {store : LineStore}
    (h : Given limit ops store) {op : Upsert} (hkey : op.rowKey ≠ []) :
    (RowStore.save op store).1 = answerAt limit (linesSize (ops ++ [op]))
      ∧ Given limit (ops ++ [op]) (RowStore.save op store).2 := by
  have hsize : linesSize (ops ++ [op]) = linesSize ops + linesSize [op] := linesSize_append ops [op]
  rw [save_of_limit hkey h.limit_eq h.content_eq, ← linesSize, ← hsize, ← encode_linesText_append]
  have hlength : (ops ++ [op]).length = ops.length + 1 := List.length_append
  have hle := h.written_le
  by_cases hfits : linesSize (ops ++ [op]) ≤ limit
  · -- If this line fits, then those in front of it did, and all of them are counted.
    have hall := (h.le_written_iff ops.length (Nat.le_refl _)).mpr (by rw [List.take_length]; omega)
    rw [if_pos hfits]
    refine ⟨rfl, h.limit_eq, rfl, by dsimp only; omega, fun n hn => iff_of_true ?_ ?_⟩
    · dsimp only
      omega
    · exact Nat.le_trans (linesSize_take_le n _) hfits
  · rw [if_neg hfits]
    refine ⟨rfl, h.limit_eq, rfl, by dsimp only; omega, fun n hn => ?_⟩
    dsimp only
    by_cases hbefore : n ≤ ops.length
    · rw [List.take_append_of_le_length hbefore]
      exact h.le_written_iff n hbefore
    · rw [List.take_of_length_le (by omega)]
      exact iff_of_false (by omega) hfits

/-- **Many more lines**, those of the upserts that have a key. -/
theorem Given.saveEach {limit : Nat} {before : List Upsert} {store : LineStore}
    (h : Given limit (keyed before) store) (ops : List Upsert) :
    (saveEach ops store).1 = ops.mapIdx (fun place op => answer limit (before ++ ops.take place) op)
      ∧ Given limit (keyed (before ++ ops)) (saveEach ops store).2 := by
  induction ops generalizing before store with
  | nil =>
    rw [List.append_nil]
    exact ⟨rfl, h⟩
  | cons op rest ih =>
    have hstep : (RowStore.save op store).1 = answer limit before op
        ∧ Given limit (keyed (before ++ [op])) (RowStore.save op store).2 := by
      rw [answer, keyed_append]
      by_cases hkey : op.rowKey = []
      · rw [if_pos hkey, keyed_cons_of_eq_nil hkey, save_of_rowKey_eq_nil hkey]
        exact ⟨rfl, (List.append_nil (keyed before)).symm ▸ h⟩
      · rw [if_neg hkey, keyed_cons_of_ne_nil hkey]
        exact h.save hkey
    obtain ⟨hanswers, hafter⟩ := ih hstep.2
    -- The head is in front of all that follow.
    simp only [List.append_assoc, List.singleton_append] at hanswers hafter
    rw [RowStore.saveEach]
    refine ⟨?_, hafter⟩
    rw [hanswers, hstep.1, List.mapIdx_cons]
    simp only [List.take_zero, List.append_nil, List.take_succ_cons]

/-! ## Complete lines -/

/-- There are as many line feeds as lines. -/
theorem count_newline_encode_linesText (ops : List Upsert) :
    (Utf8.encode (linesText ops)).count 10 = ops.length := by
  induction ops with
  | nil => rfl
  | cons op rest ih =>
    have hline : (Utf8.encode op.line).count 10 = 0 :=
      List.count_eq_zero_of_not_mem (Utf8.newline_not_mem_encode op.newline_not_mem_line)
    have hfeed : (Utf8.encode "\n").count 10 = 1 := by decide
    rw [encode_linesText_cons, List.count_append, List.count_append, hline, hfeed, ih,
      List.length_cons]
    omega

/-- Lines that are cut off before the first of them ends have no line feed. -/
theorem newline_not_mem_take {n : Nat} {ops : List Upsert}
    (h : ∀ op ∈ ops.head?, n < linesSize [op]) : 10 ∉ (Utf8.encode (linesText ops)).take n := by
  cases ops with
  | nil =>
    rw [encode_linesText_nil, List.take_nil]
    exact List.not_mem_nil
  | cons op rest =>
    have hn := h op rfl
    rw [linesSize_singleton] at hn
    rw [encode_linesText_cons, List.append_assoc, List.take_append_of_le_length (by omega)]
    exact fun hmem =>
      Utf8.newline_not_mem_encode op.newline_not_mem_line (List.mem_of_mem_take hmem)

/-- **What is behind the lines that are counted is a piece of one line**, and its
line feed is not in it. -/
theorem Given.exists_piece {limit : Nat} {ops : List Upsert} {store : LineStore}
    (h : Given limit ops store) :
    ∃ piece, store.outlet.content =
        Utf8.encode (linesText (ops.take store.written)) ++ piece ∧ 10 ∉ piece := by
  have hcounted := (h.le_written_iff store.written h.written_le).mp (Nat.le_refl _)
  have hsplit := encode_linesText_append (ops.take store.written) (ops.drop store.written)
  rw [List.take_append_drop] at hsplit
  rw [h.content_eq, hsplit, List.take_append, List.take_of_length_le hcounted]
  refine ⟨_, rfl, newline_not_mem_take fun op hnext => ?_⟩
  rw [List.head?_drop] at hnext
  -- The first line that is not counted ends behind the limit.
  have hmore : store.written < ops.length := (List.getElem?_eq_some_iff.mp hnext).1
  have hover := mt (h.le_written_iff (store.written + 1) hmore).mpr (by omega)
  rw [List.take_add_one, hnext, Option.toList_some, linesSize_append] at hover
  rw [← linesSize]
  omega

/-- **Of the lines, a full outlet has the beginning.** If an outlet takes `limit`
bytes in all, then whatever upserts are saved, it is left with the first `limit`
bytes of the lines of those that have a key, each with its line feed, whether
their saves failed or not. A save fails for want of a key exactly if there is
none, and then it writes nothing, however much room there is. Any other save
succeeds if its line ends within the limit, fails outside the row's text if its
line ends one byte behind it, and inside the text if it ends further on. As many
lines are counted as saves succeeded and as line feeds were written; so behind
the lines that are counted there is at most a piece of one. -/
theorem saveEach_limited (limit : Nat) (ops : List Upsert) :
    let run := RowStore.saveEach ops ({ outlet := { limit := some limit } } : LineStore)
    run.2.outlet.content = (Utf8.encode (linesText (keyed ops))).take limit
      ∧ run.1 = ops.mapIdx (fun place op =>
          if op.rowKey = [] then .error (.missingKey op.table)
          else
            let size := (Utf8.encode (linesText (keyed (ops.take place ++ [op])))).length
            if size ≤ limit then .ok ()
            else if size = limit + 1 then .error (.medium "disk full")
            else .error (.rowText "disk full"))
      ∧ (∀ (op : Upsert) (store : LineStore), op.rowKey = [] →
          RowStore.save op store = (.error (.missingKey op.table), store))
      ∧ run.2.written = (run.1.countP fun result => result = .ok ())
      ∧ run.2.written = run.2.outlet.content.count 10
      ∧ ∃ piece, run.2.outlet.content =
            Utf8.encode (linesText ((keyed ops).take run.2.written)) ++ piece ∧ 10 ∉ piece := by
  intro run
  have hfresh : Given limit (keyed []) { outlet := { limit := some limit } } := given_nil limit
  obtain ⟨hanswers, hgiven⟩ := hfresh.saveEach ops
  obtain ⟨piece, hpiece, hnewline⟩ := hgiven.exists_piece
  have hsuccesses := written_saveEach ops { outlet := { limit := some limit } }
  rw [Nat.zero_add] at hsuccesses
  refine ⟨hgiven.content_eq, hanswers, fun op store hkey => save_of_rowKey_eq_nil hkey store,
    hsuccesses, ?_, piece, hpiece, hnewline⟩
  -- Line feeds end the lines that are whole, and the piece behind them has none.
  have hcount : run.2.outlet.content.count 10 =
      ((keyed ops).take run.2.written).length + piece.count 10 := by
    rw [← count_newline_encode_linesText, ← List.count_append]
    exact congrArg (List.count 10) hpiece
  have hlength : ((keyed ops).take run.2.written).length = run.2.written :=
    List.length_take_of_le hgiven.written_le
  rw [hcount, hlength, List.count_eq_zero_of_not_mem hnewline, Nat.add_zero]

/-- Room for two lines but for the last line feed: of four upserts the first is
written, the second has no key, the third misses its line feed and the last is
lost. -/
theorem saveEach_limited_note :
    let note : String → Upsert := fun id =>
      ⟨"notes", ["id", "text"], [.text id, .text "é\n"], ["id"], ["text"]⟩
    let keyless : Upsert := ⟨"notes", ["text"], [.text "x"], ["id"], []⟩
    ∃ run, run = RowStore.saveEach [note "a", keyless, note "b", note "c"]
        ({ outlet := { limit := some 103 } } : LineStore)
      ∧ run.1 = [.ok (), .error (.missingKey "notes"), .error (.medium "disk full"),
          .error (.rowText "disk full")]
      ∧ run.2.outlet.content =
          (Utf8.encode (linesText [note "a", note "b", note "c"])).take 103
      ∧ RowStore.save keyless run.2 = (.error (.missingKey "notes"), run.2)
      ∧ run.2.written = 1
      ∧ run.2.outlet.content.count 10 = 1 := by
  intro note keyless
  have hlimited := saveEach_limited 103 [note "a", keyless, note "b", note "c"]
  obtain ⟨run, hrun⟩ : ∃ run, run = RowStore.saveEach [note "a", keyless, note "b", note "c"]
      ({ outlet := { limit := some 103 } } : LineStore) := ⟨_, rfl⟩
  dsimp only at hlimited
  rw [← hrun] at hlimited
  obtain ⟨hcontent, hresults, hkeyless, hsuccesses, hcount, -⟩ := hlimited
  have hanswers : run.1 = [.ok (), .error (.missingKey "notes"), .error (.medium "disk full"),
      .error (.rowText "disk full")] := hresults.trans (by decide +kernel)
  have hwritten : run.2.written = 1 := by
    rw [hsuccesses, hanswers]
    rfl
  exact ⟨run, hrun, hanswers, hcontent.trans (by decide +kernel),
    hkeyless keyless run.2 (by decide), hwritten, hcount.symm.trans hwritten⟩

end LineStore

end EscrowFeed
