/-
The language of envelopes, and that the decoder accepts it, all of it and
nothing else.

An envelope is a message whose known fields are its entries, and an entry is a
message whose known fields are texts. The limits are the two of the format: an
unknown field may stand in fewer than 100 groups in an envelope and in fewer
than 99 in an entry.

The decoder checks a length against the bytes of the whole envelope, so nothing
keeps a field of an entry from reading on behind the entry, and the grammar has
no place for such a field. What makes them agree is the limit of
`readEntryFields`: an entry is accepted only if its fields end where the entry
does, so the bytes that they took are the body that its length announced.
-/
import EscrowFeed.Envelope.Decoder
import EscrowFeed.Proofs.Wire.Readers

set_option autoImplicit false

namespace EscrowFeed.Envelope

open Success Wire

/-! ## The language -/

/-- The forms of a description inside an entry. -/
def IsDescription (text : String) (s : Bytes) : Prop := IsTagged (Utf8.encode text) s

/-- What an entry may hold: its description is the last one in it, or empty. -/
def IsBody (description : String) (body : Bytes) : Prop :=
  ∃ texts, IsMessage IsDescription 99 texts body ∧ description = texts.getLast?.getD ""

/-- The forms of an entry. -/
def IsEntry (description : String) (s : Bytes) : Prop :=
  ∃ body, IsBody description body ∧ IsTagged body s

/-- The forms of an envelope. -/
def IsEnvelope (descriptions : List String) (s : Bytes) : Prop :=
  IsMessage IsEntry 100 descriptions s

/-! ## Fields -/

theorem requireBlock_eq_ok {key : Key} :
    requireBlock key = .ok () ↔ key.type = .lengthDelimited := by
  unfold requireBlock
  split <;> simp_all

/-- A known field is read as a key of the known tag that calls for a block, and
the block. -/
theorem isTagged_reads {block s rest : Bytes} :
    (∃ t, IsTagged block t ∧ s = t ++ rest) ↔
      ∃ key s', readKey s = .ok (key, s') ∧ key.tag = knownTag ∧ key.type = .lengthDelimited
        ∧ ∃ content, IsBlock block content ∧ s' = content ++ rest := by
  constructor
  · rintro ⟨_, ⟨head, content, hhead, hcontent, rfl⟩, rfl⟩
    rw [List.append_assoc]
    exact ⟨_, _, readKey_reads.complete hhead _, rfl, rfl, content, hcontent, rfl⟩
  · rintro ⟨⟨tag, type⟩, _, hread, rfl, rfl, content, hcontent, rfl⟩
    obtain ⟨head, hhead, rfl⟩ := readKey_reads.sound hread
    exact ⟨_, ⟨head, content, hhead, hcontent, rfl⟩, (List.append_assoc head content rest).symm⟩

/-- An unknown field is read as a key of another tag, and passed over. -/
theorem isUnknown_reads {depth : Nat} {s rest : Bytes} :
    (∃ t, IsUnknown depth t ∧ s = t ++ rest) ↔
      ∃ key s', readKey s = .ok (key, s') ∧ key.tag ≠ knownTag
        ∧ skipField depth key s' = .ok rest := by
  constructor
  · rintro ⟨_, ⟨key, head, content, hhead, htag, hcontent, rfl⟩, rfl⟩
    obtain ⟨depth, rfl⟩ := Nat.exists_eq_add_one.mpr hcontent.lt
    rw [List.append_assoc]
    exact ⟨key, _, readKey_reads.complete hhead _, Nat.ne_of_gt htag,
      skipField_complete hcontent (Nat.zero_add _) rest⟩
  · rintro ⟨key, _, hread, htag, hskip⟩
    obtain ⟨head, hhead, rfl⟩ := readKey_reads.sound hread
    obtain ⟨content, hcontent, rfl⟩ := skipField_sound (Nat.zero_add depth) hskip
    have htag : 2 ≤ key.tag := Nat.lt_of_le_of_ne hhead.1 (Ne.symm htag)
    exact ⟨_, ⟨key, head, content, hhead, htag, hcontent, rfl⟩,
      (List.append_assoc head content rest).symm⟩

/-- A description is read as the text of a block of UTF-8. -/
theorem readDescription_reads (key : Key) :
    Reads (readDescription key)
      (fun text t => key.type = .lengthDelimited ∧ IsBlock (Utf8.encode text) t) where
  sound := by
    intro s rest text h
    simp only [readDescription, bind_eq_ok] at h
    obtain ⟨_, hkey, ⟨block, after⟩, hread, h⟩ := h
    split at h
    · simp only [throw_eq_ok] at h
    · next htext =>
      obtain ⟨rfl, rfl⟩ := Prod.mk.inj (pure_eq_ok.mp h)
      obtain ⟨t, ht, hs⟩ := readBlock_reads.sound hread
      rw [show block = _ from Utf8.decode?_eq_some_iff.mp htext] at ht
      exact ⟨t, ⟨requireBlock_eq_ok.mp hkey, ht⟩, hs⟩
  complete := by
    rintro t text ⟨hkey, ht⟩ rest
    refine bind_eq_ok.mpr ⟨(), requireBlock_eq_ok.mpr hkey, bind_eq_ok.mpr
      ⟨(Utf8.encode text, rest), readBlock_reads.complete ht rest, ?_⟩⟩
    simp only [Utf8.decode?_encode]
    rfl

/-- A field of an entry is a description or leaves the one before it standing. -/
theorem readEntryField_reads (before : String) :
    Reads (readEntryField before)
      (fun after t => IsDescription after t ∨ after = before ∧ IsUnknown 99 t) where
  sound := by
    intro s rest after h
    simp only [readEntryField, bind_eq_ok, locate_eq_ok] at h
    obtain ⟨⟨key, s'⟩, hread, h⟩ := h
    -- The tag decides: the known one announces a description, any other is skipped.
    split at h
    · next htag =>
      obtain ⟨content, ⟨htype, hcontent⟩, hs'⟩ :=
        (readDescription_reads key).sound (locate_eq_ok.mp h)
      obtain ⟨t, ht, hs⟩ :=
        isTagged_reads.mpr ⟨key, s', hread, htag, htype, content, hcontent, hs'⟩
      exact ⟨t, .inl ht, hs⟩
    · next htag =>
      simp only [bind_eq_ok, locate_eq_ok, pure_eq_ok, Prod.mk.injEq] at h
      obtain ⟨_, hskip, rfl, rfl⟩ := h
      obtain ⟨t, ht, hs⟩ := isUnknown_reads.mpr ⟨key, s', hread, htag, hskip⟩
      exact ⟨t, .inr ⟨rfl, ht⟩, hs⟩
  complete := by
    rintro t after (ht | ⟨rfl, ht⟩) rest
    · obtain ⟨key, _, hread, htag, htype, content, hcontent, rfl⟩ :=
        isTagged_reads.mp ⟨t, ht, rfl⟩
      refine bind_eq_ok.mpr ⟨_, locate_eq_ok.mpr hread, ?_⟩
      simp only [htag, if_true]
      exact locate_eq_ok.mpr ((readDescription_reads key).complete ⟨htype, hcontent⟩ rest)
    · obtain ⟨key, s', hread, htag, hskip⟩ := isUnknown_reads.mp ⟨t, ht, rfl⟩
      refine bind_eq_ok.mpr ⟨_, locate_eq_ok.mpr hread, ?_⟩
      simp only [htag, if_false]
      exact bind_eq_ok.mpr ⟨rest, locate_eq_ok.mpr hskip, rfl⟩

/-! ## Entries -/

/-- One field of an entry that goes on. -/
theorem readEntryFields_of_field {limit : Nat} {before after : String} {s rest : Bytes}
    (hlimit : limit < s.length) (hread : readEntryField before s = .ok (after, rest)) :
    readEntryFields limit before s = readEntryFields limit after rest := by
  rw [readEntryFields, if_neg (Nat.ne_of_gt hlimit), if_neg (Nat.lt_asymm hlimit)]
  split
  · next h => rw [hread] at h; cases h
  · next h =>
    rw [hread] at h
    obtain ⟨rfl, rfl⟩ := Prod.mk.inj (Except.ok.inj h)
    rfl

/-- What is read up to the end of an entry is a message of descriptions, of
which the last one stands. -/
theorem readEntryFields_sound {limit : Nat} {before after : String} {s rest : Bytes}
    (h : readEntryFields limit before s = .ok (after, rest)) :
    ∃ texts t, IsMessage IsDescription 99 texts t ∧ after = texts.getLast?.getD before
      ∧ s = t ++ rest := by
  fun_induction readEntryFields limit before s with
  | case1 =>
    obtain ⟨rfl, rfl⟩ := Prod.mk.inj (Except.ok.inj h)
    exact ⟨[], [], .nil, rfl, rfl⟩
  | case2 => cases h
  | case3 => cases h
  | case4 before s _ _ text after' hread ih =>
    obtain ⟨texts, t, ht, rfl, rfl⟩ := ih h
    obtain ⟨s, hs | ⟨rfl, hs⟩, rfl⟩ := (readEntryField_reads before).sound hread
    · refine ⟨text :: texts, s ++ t, .known hs ht, ?_, (List.append_assoc s t rest).symm⟩
      -- The description read here stands only if none follows.
      rw [List.getLast?_cons]
      rfl
    · exact ⟨texts, s ++ t, .unknown hs ht, rfl, (List.append_assoc s t rest).symm⟩

/-- Every message of descriptions is read, and its last one stands. -/
theorem readEntryFields_complete {texts : List String} {t : Bytes}
    (h : IsMessage IsDescription 99 texts t) (before : String) (rest : Bytes) :
    readEntryFields rest.length before (t ++ rest) =
      .ok (texts.getLast?.getD before, rest) := by
  induction h generalizing before with
  | nil =>
    rw [List.nil_append, readEntryFields, if_pos rfl]
    rfl
  | @known text texts s t hs _ ih =>
    have hread := (readEntryField_reads before).complete (.inl hs) (t ++ rest)
    -- The reader goes on because the field took something.
    have hlength := readEntryField_length hread
    rw [List.length_append] at hlength
    rw [List.append_assoc, readEntryFields_of_field (by omega) hread, ih, List.getLast?_cons]
    rfl
  | @unknown texts s t hs _ ih =>
    have hread := (readEntryField_reads before).complete (.inr ⟨rfl, hs⟩) (t ++ rest)
    have hlength := readEntryField_length hread
    rw [List.length_append] at hlength
    rw [List.append_assoc, readEntryFields_of_field (by omega) hread, ih]

/-- The body of an entry is what its length says, however far its fields could
have read. -/
theorem readEntry_reads (key : Key) :
    Reads (readEntry key)
      (fun description t => key.type = .lengthDelimited
        ∧ ∃ body, IsBody description body ∧ IsBlock body t) where
  sound := by
    intro s rest description h
    simp only [readEntry, bind_eq_ok, locate_eq_ok] at h
    obtain ⟨_, hkey, ⟨length, s'⟩, hread, h⟩ := h
    obtain ⟨t, ht, rfl⟩ := readVarint_reads.sound hread
    split at h
    · simp only [bind_eq_ok, throw_eq_ok, false_and, exists_false] at h
    · next hle =>
      have hrest : rest.length = s'.length - length := readEntryFields_length h
      obtain ⟨texts, body, hbody, hdescription, rfl⟩ := readEntryFields_sound h
      -- The fields end where the entry does, so they are as long as it says.
      have hlength : body.length = length := by
        rw [List.length_append] at hrest hle
        omega
      refine ⟨t ++ body, ⟨requireBlock_eq_ok.mp hkey, body, ⟨texts, hbody, hdescription⟩,
        t, hlength ▸ ht, rfl⟩, (List.append_assoc t body rest).symm⟩
  complete := by
    rintro _ description ⟨hkey, body, ⟨texts, hbody, rfl⟩, length, hlength, rfl⟩ rest
    have hlimit : (body ++ rest).length - body.length = rest.length := by
      rw [List.length_append, Nat.add_sub_cancel_left]
    have hle : ¬ (body ++ rest).length < body.length := by
      rw [List.length_append]
      omega
    rw [List.append_assoc]
    refine bind_eq_ok.mpr ⟨(), locate_eq_ok.mpr (requireBlock_eq_ok.mpr hkey), bind_eq_ok.mpr
      ⟨_, locate_eq_ok.mpr (readVarint_reads.complete hlength _), ?_⟩⟩
    simp only [hle, if_false, hlimit]
    exact readEntryFields_complete hbody "" rest

/-! ## Envelopes -/

/-- A field of an envelope is an entry or leaves no trace. -/
theorem readField_reads :
    Reads readField (fun entry t =>
      (∃ description, entry = some description ∧ IsEntry description t)
        ∨ entry = none ∧ IsUnknown 100 t) where
  sound := by
    intro s rest entry h
    simp only [readField, bind_eq_ok, locate_eq_ok] at h
    obtain ⟨⟨key, s'⟩, hread, h⟩ := h
    split at h
    · next htag =>
      simp only [bind_eq_ok, pure_eq_ok, Prod.mk.injEq] at h
      obtain ⟨⟨description, _⟩, hentry, rfl, rfl⟩ := h
      obtain ⟨content, ⟨htype, body, hbody, hcontent⟩, hs'⟩ := (readEntry_reads key).sound hentry
      obtain ⟨t, ht, hs⟩ :=
        isTagged_reads.mpr ⟨key, s', hread, htag, htype, content, hcontent, hs'⟩
      exact ⟨t, .inl ⟨description, rfl, body, hbody, ht⟩, hs⟩
    · next htag =>
      simp only [bind_eq_ok, locate_eq_ok, pure_eq_ok, Prod.mk.injEq] at h
      obtain ⟨_, hskip, rfl, rfl⟩ := h
      obtain ⟨t, ht, hs⟩ := isUnknown_reads.mpr ⟨key, s', hread, htag, hskip⟩
      exact ⟨t, .inr ⟨rfl, ht⟩, hs⟩
  complete := by
    rintro t entry (⟨description, rfl, body, hbody, ht⟩ | ⟨rfl, ht⟩) rest
    · obtain ⟨key, _, hread, htag, htype, content, hcontent, rfl⟩ :=
        isTagged_reads.mp ⟨t, ht, rfl⟩
      refine bind_eq_ok.mpr ⟨_, locate_eq_ok.mpr hread, ?_⟩
      simp only [htag, if_true]
      exact bind_eq_ok.mpr
        ⟨_, (readEntry_reads key).complete ⟨htype, body, hbody, hcontent⟩ rest, rfl⟩
    · obtain ⟨key, s', hread, htag, hskip⟩ := isUnknown_reads.mp ⟨t, ht, rfl⟩
      refine bind_eq_ok.mpr ⟨_, locate_eq_ok.mpr hread, ?_⟩
      simp only [htag, if_false]
      exact bind_eq_ok.mpr ⟨rest, locate_eq_ok.mpr hskip, rfl⟩

/-- One field of an envelope. -/
theorem decode_of_field {s rest : Bytes} {entry : Option String}
    (hread : readField s = .ok (entry, rest)) :
    decode s = (decode rest).map (entry.toList ++ ·) := by
  have hne : s ≠ [] := by
    rintro rfl
    exact absurd (readField_length hread) (Nat.not_lt_zero _)
  rw [decode, if_neg hne]
  split
  · next h => rw [hread] at h; cases h
  · next h =>
    rw [hread] at h
    obtain ⟨rfl, rfl⟩ := Prod.mk.inj (Except.ok.inj h)
    cases decode rest <;> rfl

/-- **What decodes is an envelope** of the descriptions that are found. -/
theorem isEnvelope_of_decode {s : Bytes} {descriptions : List String}
    (h : decode s = .ok descriptions) : IsEnvelope descriptions s := by
  fun_induction decode s generalizing descriptions with
  | case1 =>
    obtain rfl := Except.ok.inj h
    exact .nil
  | case2 => cases h
  | case3 s _ entry rest hread ih =>
    obtain ⟨more, hmore, h⟩ := bind_eq_ok.mp h
    obtain rfl := pure_eq_ok.mp h
    obtain ⟨t, ⟨description, rfl, ht⟩ | ⟨rfl, ht⟩, rfl⟩ := readField_reads.sound hread
    · exact .known ht (ih hmore)
    · exact .unknown ht (ih hmore)

/-- **An envelope decodes** to its descriptions. -/
theorem decode_of_isEnvelope {s : Bytes} {descriptions : List String}
    (h : IsEnvelope descriptions s) : decode s = .ok descriptions := by
  induction h with
  | nil => rw [decode, if_pos rfl]
  | known hs _ ih =>
    rw [decode_of_field (readField_reads.complete (.inl ⟨_, rfl, hs⟩) _), ih]
    rfl
  | unknown hs _ ih =>
    rw [decode_of_field (readField_reads.complete (.inr ⟨rfl, hs⟩) _), ih]
    rfl

/-- **Bytes decode exactly when they are an envelope**, and then into the
descriptions of its entries. -/
theorem decode_language {s : Bytes} {descriptions : List String} :
    decode s = .ok descriptions ↔ IsEnvelope descriptions s :=
  ⟨isEnvelope_of_decode, decode_of_isEnvelope⟩

/-- A text that reads on behind its entry, to the very end of the envelope. -/
example : decode [0x0a, 0x02, 0x0a, 0x01, 0x78] = .error ⟨.entry, .lengthExceeded⟩ := by
  decide +kernel

end EscrowFeed.Envelope
