/-
Where the output of a run goes.

What is printed and what is written are the same lines, and which lines they are
is in the envelope. A run that comes to its output file empties it first. Since
the envelope is decoded only after that, there are two ways on from there that
leave a report of the envelope. Of one that decodes, the file gets the lines. Of
one that does not, the file stays empty, whatever an earlier run had put into it.
Either way everything else in the tree is as it was, but for directories that
may have been made on the way to the file.
-/
import EscrowFeed.Proofs.Command.Stages
import EscrowFeed.Proofs.Feed.Ingest
import EscrowFeed.Proofs.Files.Directories
import EscrowFeed.Proofs.Store.Lines

set_option autoImplicit false

namespace EscrowFeed.Command

open Envelope

/-! ## What is said of an envelope -/

/-- The result of a run that refuses nothing but the envelope. -/
def verdict (envelope : Bytes) : Except Failure Unit :=
  match decode envelope with
  | .error error => .error (.notTakenIn (.envelope error))
  | .ok _ => .ok ()

theorem verdict_eq_ok_iff {envelope : Bytes} :
    verdict envelope = .ok () ↔ ∃ descriptions, decode envelope = .ok descriptions := by
  rw [verdict]
  cases decode envelope <;> simp

theorem verdict_eq_error_iff {envelope : Bytes} {error : DecodeError} :
    verdict envelope = .error (.notTakenIn (.envelope error)) ↔ decode envelope = .error error := by
  rw [verdict]
  cases decode envelope <;> simp

/-- The verdict is what is said of the envelope, without the counts. -/
theorem verdict_eq_of_reportOf (envelope : Bytes) :
    ((reportOf envelope).mapError Failure.notTakenIn).map (fun _ => ()) = verdict envelope := by
  rw [reportOf, verdict]
  cases decode envelope <;> rfl

/-- The bytes of the lines of an envelope's records. -/
def linesOf (envelope : Bytes) : Bytes := Utf8.encode (linesText (upsertsIn envelope))

theorem linesOf_of_decode_eq_ok {envelope : Bytes} {descriptions : List String}
    (h : decode envelope = .ok descriptions) :
    linesOf envelope = Utf8.encode (linesText (upsertsOf descriptions)) := by
  rw [linesOf, upsertsIn_of_decode h]

theorem linesOf_of_decode_eq_error {envelope : Bytes} {error : DecodeError}
    (h : decode envelope = .error error) : linesOf envelope = [] := by
  rw [linesOf, upsertsIn, h]
  exact encode_linesText_nil

/-- **Printing gives the lines and the verdict**, of any envelope. -/
theorem print_eq (envelope : Bytes) : print envelope = ⟨linesOf envelope, verdict envelope⟩ := by
  obtain ⟨hstore, hresult⟩ := LineStore.ingest_eq envelope SkipWarnings.mk {} rfl
  rw [print, hstore, hresult rfl, verdict_eq_of_reportOf]
  rfl

theorem result_dryRun (envelope : Bytes) : (dryRun envelope).result = verdict envelope := by
  obtain ⟨-, hresult⟩ := TableStore.ingest_eq envelope ({} : CollectedSkips) {}
  rw [← verdict_eq_of_reportOf, dryRun]
  dsimp only
  rw [hresult]
  cases reportOf envelope <;> rfl

/-! ## Writing to a file -/

/-- A path leads to a file with some bytes, if not to a device, which takes them
and holds nothing, and at every other place there is what was there before, or
else a directory that is new. -/
structure Outputs (tree : FileTree) (path : String) (bytes : Bytes) (place : Place)
    (after : FileTree) : Prop where
  locate_eq : after.locate path = .ok place
  file_eq : tree.NoDeviceAt place → after.node? place = some (.file bytes)
  device_eq : ∀ device : Node, device.IsDevice → tree.node? place = some device →
    after.node? place = some device
  other_eq : ∀ other, other ≠ place → after.node? other = tree.node? other
    ∨ tree.node? other = none ∧ after.node? other = some .directory

/-- A file that is made among new directories is made where it should be, and a
device that it leads to was there before them. -/
theorem outputs_of_grows {tree grown after : FileTree} {path : String} {bytes : Bytes}
    {place : Place} (hgrows : tree.Grows grown) (h : grown.Rewritten path bytes place after) :
    Outputs tree path bytes place after where
  locate_eq := h.locate_eq
  file_eq hnone := by
    refine h.file_eq fun device hdevice hgrown => ?_
    -- What is new on the way to the file is a directory, and no device.
    rcases hgrows place with hsame | ⟨-, hnew⟩
    · exact hnone device hdevice (hsame ▸ hgrown)
    · rw [hgrown, Option.some.injEq] at hnew
      exact hdevice.ne_directory hnew
  device_eq device hdevice hnode := by
    refine h.device_eq device hdevice ?_
    rcases hgrows place with hsame | ⟨hnone, -⟩
    · rw [hsame, hnode]
    · rw [hnode] at hnone
      cases hnone
  other_eq other hother := by
    rw [h.other_eq other hother]
    exact hgrows other

/-- Beside the place of the output the files are those that there were. -/
theorem Outputs.file_iff_of_ne {tree after : FileTree} {path : String} {bytes : Bytes}
    {place other : Place} (h : Outputs tree path bytes place after) (hother : other ≠ place)
    {content : Bytes} :
    after.node? other = some (.file content) ↔ tree.node? other = some (.file content) := by
  rcases h.other_eq other hother with hsame | ⟨hnone, hnew⟩
  · rw [hsame]
  · -- A new directory is no file, and neither is what was not there.
    rw [hnone, hnew]
    simp only [Option.some.injEq, reduceCtorEq]

/-- **Lines that go to a device are in no file**: all files are as they were. -/
theorem Outputs.file_iff_of_isDevice {tree after : FileTree} {path : String} {bytes : Bytes}
    {place : Place} (h : Outputs tree path bytes place after) {device : Node}
    (hdevice : device.IsDevice) (hnode : tree.node? place = some device) (other : Place)
    (content : Bytes) :
    after.node? other = some (.file content) ↔ tree.node? other = some (.file content) := by
  by_cases hother : other = place
  · rw [hother, hnode, h.device_eq device hdevice hnode]
  · exact h.file_iff_of_ne hother

/-- All files keep their contents if there was nothing in the file to lose. -/
theorem Outputs.keeps_iff {tree after : FileTree} {path : String} {place : Place}
    (h : Outputs tree path [] place after) :
    (∀ other content, tree.node? other = some (.file content) →
        after.node? other = some (.file content)) ↔
      ∀ content, tree.node? place = some (.file content) → content = [] := by
  -- A file is no device, so what stands at the place is what was printed: nothing.
  have hemptied : ∀ content, tree.node? place = some (.file content) →
      after.node? place = some (.file []) := by
    intro content hfile
    exact h.file_eq (FileTree.noDeviceAt_of_eq_file hfile)
  constructor
  · intro hall content hfile
    have hlost := hemptied content hfile
    rw [hall place content hfile] at hlost
    exact Node.file.inj (Option.some.inj hlost)
  · intro hempty other content hfile
    by_cases hother : other = place
    · subst hother
      rw [hempty content hfile, hemptied content hfile]
    · exact (h.file_iff_of_ne hother).mpr hfile

/-- What comes of making an output file: it is refused, or the file is empty,
among directories of which some may be new. -/
def Opened (tree : FileTree) (path : String) (result : Except Failure Unit) (made : FileTree) :
    Prop :=
  (∃ failed cause, result = .error (.outputNotCreated failed cause))
    ∨ result = .ok () ∧ ∃ grown, tree.Grows grown
      ∧ FileTree.write path (fun _ => []) grown = (.ok (), made)

/-- Wherever the directories have led, the file is then made or is refused, and
the outcome is passed on. -/
theorem opened_of_grows {path : String} {tree grown : FileTree}
    {next : Except FileError Unit → StateM FileTree (Except Failure Unit)}
    (hgrows : tree.Grows grown)
    (herror : ∀ error, next (.error error) = pure (.error (.outputNotCreated path error)))
    (hok : next (.ok ()) = pure (.ok ())) :
    ∃ result made, (FileAccess.create path >>= next).run grown = (result, made)
      ∧ Opened tree path result made := by
  cases hwrite : FileTree.write path (fun _ => []) grown with
  | mk outcome made =>
    rw [run_bind_of_run ((run_create path grown).trans hwrite)]
    cases outcome with
    -- The tree is of no further interest once the file was refused.
    | error error =>
      rw [herror]
      exact ⟨_, _, rfl, .inl ⟨path, error, rfl⟩⟩
    | ok =>
      rw [hok]
      exact ⟨_, _, rfl, .inr ⟨rfl, grown, hgrows, hwrite⟩⟩

/-- Making an output file makes the directories above it first, and stops where
one is refused. -/
theorem run_createOutput (path : String) (tree : FileTree) :
    ∃ result made, (createOutput path : StateM FileTree (Except Failure Unit)).run tree =
        (result, made) ∧ Opened tree path result made := by
  rw [createOutput]
  dsimp only
  split
  · have hgrows := addsDirectories_createDirectories ((Path.parent? path).getD "") tree
    cases hrun : (FileAccess.createDirectories ((Path.parent? path).getD "") :
        StateM FileTree (Except FileError Unit)).run tree with
    | mk outcome grown =>
      rw [hrun] at hgrows
      rw [run_bind_of_run hrun]
      cases outcome with
      | error error => exact ⟨_, _, rfl, .inl ⟨_, error, rfl⟩⟩
      | ok => exact opened_of_grows hgrows (fun _ => rfl) rfl
  · -- Beside a bare name there is no directory to make.
    exact opened_of_grows tree.grows_refl (fun _ => rfl) rfl

/-- A file that can be made and filled gets the lines, and the report is what
there is to say of the envelope. -/
theorem run_writeTo_of_write {path : String} {envelope : Bytes} {tree made after : FileTree}
    (hmake : (createOutput path : StateM FileTree (Except Failure Unit)).run tree = (.ok (), made))
    (happend : FileTree.write path (· ++ linesOf envelope) made = (.ok (), after)) :
    (writeTo path envelope : StateM FileTree Report).run tree =
      (⟨[], verdict envelope⟩, after) := by
  rw [writeTo, run_bind_of_run hmake]
  dsimp only
  rw [print_eq, run_bind_of_run ((run_append path _ made).trans happend)]
  rfl

/-- **What becomes of an output file**: it could not be made or filled, which is
not for what is in the envelope, or it holds the envelope's lines, and the report
is what there is to say of the envelope. -/
theorem run_writeTo (path : String) (envelope : Bytes) (tree : FileTree) :
    ∃ report after, (writeTo path envelope : StateM FileTree Report).run tree = (report, after)
      ∧ ((∃ failure, report.result = .error failure
          ∧ ∀ error, failure ≠ .notTakenIn (.envelope error))
        ∨ report = ⟨[], verdict envelope⟩
          ∧ ∃ place, Outputs tree path (linesOf envelope) place after) := by
  obtain ⟨result, made, hrun, hopened⟩ := run_createOutput path tree
  rcases hopened with ⟨failed, cause, rfl⟩ | ⟨rfl, grown, hgrows, hmake⟩
  · rw [writeTo, run_bind_of_run hrun]
    exact ⟨_, _, rfl, .inl ⟨_, rfl, by simp⟩⟩
  · -- The file is open. What it takes is decided by one more write at the same place.
    cases happend : FileTree.write path (· ++ linesOf envelope) made with
    | mk outcome after =>
      cases outcome with
      | error error =>
        rw [writeTo, run_bind_of_run hrun]
        dsimp only
        rw [print_eq, run_bind_of_run ((run_append path _ made).trans happend)]
        exact ⟨_, _, rfl, .inl ⟨_, rfl, by simp⟩⟩
      | ok =>
        obtain ⟨place, hplace⟩ := FileTree.rewritten_of_write hmake happend
        exact ⟨_, _, run_writeTo_of_write hrun happend,
          .inr ⟨rfl, place, outputs_of_grows hgrows hplace⟩⟩

/-! ## Runs -/

/-- **A run that gets as far as the envelope's entries** says of the envelope
what there is to say, and prints its lines or writes them. -/
theorem exists_finds_of_reports {args : List String} {tree : FileTree}
    (hdry : "--dry-run" ∉ args)
    (h : ∀ failure, (runOn args tree).1.result = .error failure →
      ∃ error, failure = .notTakenIn (.envelope error)) :
    ∃ settings envelope, Finds tree args settings envelope
      ∧ (runOn args tree).1.result = verdict envelope
      ∧ (settings.outputPath = none → (runOn args tree).2 = tree)
      ∧ ∀ path, settings.outputPath = some path →
          (runOn args tree).1.output = []
            ∧ ∃ place, Outputs tree path (linesOf envelope) place (runOn args tree).2 := by
  obtain ⟨settings, envelope, hfinds⟩ : ∃ settings envelope, Finds tree args settings envelope := by
    refine exists_finds_of_result_ne fun failure hcause hresult => ?_
    obtain ⟨error, herror⟩ := h failure hresult
    exact hcause _ herror
  refine ⟨settings, envelope, hfinds, ?_⟩
  have hrun := runOn_of_finds hfinds
  rw [if_neg hdry] at hrun
  cases hpath : settings.outputPath with
  | none =>
    rw [hpath] at hrun
    dsimp only at hrun
    rw [hrun, print_eq]
    exact ⟨rfl, fun _ => rfl, nofun⟩
  | some path =>
    obtain ⟨report, after, hwrite, hcases⟩ := run_writeTo path envelope tree
    rw [hpath] at hrun
    dsimp only at hrun
    rw [hwrite] at hrun
    rw [hrun] at h ⊢
    rcases hcases with ⟨failure, hresult, hcause⟩ | ⟨rfl, place, houtputs⟩
    · -- A file that was refused is no fault of the envelope, and only those are reported here.
      obtain ⟨error, herror⟩ := h failure hresult
      exact absurd herror (hcause error)
    · refine ⟨rfl, nofun, fun other hother => ⟨rfl, place, ?_⟩⟩
      obtain rfl := Option.some.inj hother
      exact houtputs

/-- A dry run reads and reports. Only the envelope can make it fail once the
settings and the envelope are there. -/
theorem runOn_of_dry {args : List String} {tree : FileTree} (hdry : "--dry-run" ∈ args) :
    (runOn args tree).2 = tree
      ∧ ((runOn args tree).1.result = .ok () ↔
        ∃ settings envelope descriptions, Finds tree args settings envelope
          ∧ decode envelope = .ok descriptions) := by
  -- Without settings and envelope the run stops before it comes to the flag.
  by_cases hsome : ∃ settings envelope, Finds tree args settings envelope
  · obtain ⟨settings, envelope, hfinds⟩ := hsome
    have hrun := runOn_of_finds hfinds
    rw [if_pos hdry] at hrun
    rw [hrun, result_dryRun, verdict_eq_ok_iff]
    refine ⟨rfl, fun ⟨descriptions, hdecode⟩ => ?_, ?_⟩
    · exact ⟨settings, envelope, descriptions, hfinds, hdecode⟩
    · rintro ⟨settings', envelope', descriptions, hfinds', hdecode⟩
      obtain ⟨rfl, rfl⟩ := hfinds'.unique hfinds
      exact ⟨descriptions, hdecode⟩
  · simp only [not_exists] at hsome
    obtain ⟨failure, -, hrun⟩ := runOn_of_not_finds hsome
    rw [hrun]
    refine ⟨rfl, nofun, ?_⟩
    rintro ⟨settings, envelope, descriptions, hfinds, -⟩
    exact absurd hfinds (hsome settings envelope)

/-- **Output goes where the settings say, and nowhere else.** A run that succeeds
leaves the lines of the envelope's records in its output file, whatever was in
it, and prints nothing; a device at the file's place is no file, and takes the
lines without holding them. With the same settings less the output file a run
prints those lines and changes nothing. A dry run changes nothing either way, and
succeeds if settings and envelope are there and the envelope decodes. -/
theorem output_goes_where_configured (args : List String) (tree : FileTree) :
    ("--dry-run" ∉ args → (runOn args tree).1.result = .ok () →
      ∃ settings envelope descriptions, Finds tree args settings envelope
        ∧ decode envelope = .ok descriptions
        ∧ (∀ path, settings.outputPath = some path →
            (runOn args tree).1.output = []
              ∧ ∃ place, Outputs tree path (Utf8.encode (linesText (upsertsOf descriptions))) place
                  (runOn args tree).2)
        ∧ ∀ other, Finds other args { settings with outputPath := none } envelope →
            runOn args other =
              ({ output := Utf8.encode (linesText (upsertsOf descriptions)), result := .ok () },
                other))
    ∧ ("--dry-run" ∈ args →
        (runOn args tree).2 = tree
          ∧ ((runOn args tree).1.result = .ok () ↔
            ∃ settings envelope descriptions, Finds tree args settings envelope
              ∧ decode envelope = .ok descriptions)) := by
  refine ⟨fun hdry hresult => ?_, runOn_of_dry⟩
  obtain ⟨settings, envelope, hfinds, hverdict, -, hpath⟩ :=
    exists_finds_of_reports hdry fun failure hfailure => by
      rw [hresult] at hfailure
      cases hfailure
  rw [hresult, eq_comm] at hverdict
  obtain ⟨descriptions, hdecode⟩ := verdict_eq_ok_iff.mp hverdict
  rw [linesOf_of_decode_eq_ok hdecode] at hpath
  refine ⟨settings, envelope, descriptions, hfinds, hdecode, hpath, fun other hother => ?_⟩
  rw [runOn_of_finds hother, if_neg hdry]
  dsimp only
  rw [print_eq, hverdict, linesOf_of_decode_eq_ok hdecode]

set_option maxRecDepth 20000 in
/-- A payment, and in the output file something from before. -/
theorem output_goes_where_configured_funded :
    let funded := "\x7b\"eventType\":\"EscrowFunded\",\"block_timestamp\":1,\"block_number\":2,"
      ++ "\"transaction_hash\":\"0x\",\"depositor\":\"0x01\",\"amount\":5,"
      ++ "\"escrow_address\":\"0x02\"\x7d"
    let stated := "\x7b\"envelope_path\":\"e.pb\",\"output_path\":\"o.jsonl\"\x7d"
    let tree : FileTree :=
      ⟨[(["c.json"], .file (Utf8.encode stated)), (["e.pb"], .file (encode [funded])),
        (["o.jsonl"], .file (Utf8.encode "old\n"))], []⟩
    let args := ["--config", "c.json"]
    (runOn args tree).1.result = .ok ()
      ∧ (upsertsOf [funded]).length = 1
      ∧ (∃ place, Outputs tree "o.jsonl" (Utf8.encode (linesText (upsertsOf [funded]))) place
          (runOn args tree).2)
      ∧ (runOn (args ++ ["--dry-run"]) tree).2 = tree
      ∧ (runOn (args ++ ["--dry-run"]) tree).1.result = .ok () := by
  intro funded stated tree args
  have hlength : (upsertsOf [funded]).length = 1 := by decide +kernel
  have hloads : LoadsFrom tree "c.json" ⟨"e.pb", some "o.jsonl"⟩ :=
    ⟨Utf8.encode stated, stated, ⟨"e.pb", some "o.jsonl"⟩, by decide +kernel, by decide +kernel,
      by decide +kernel, Settings.resolve_eq_iff.mp (by decide +kernel)⟩
  have henvelope : tree.read "e.pb" = .ok (encode [funded]) := by decide +kernel
  have hdecode : decode (encode [funded]) = .ok [funded] := decode_encode (by decide +kernel)
  have hfinds : Finds tree args ⟨"e.pb", some "o.jsonl"⟩ (encode [funded]) :=
    ⟨⟨"c.json", rfl, hloads⟩, henvelope⟩
  -- The tree names the file, so making it is emptying it.
  have hmake : (createOutput "o.jsonl" : StateM FileTree (Except Failure Unit)).run tree =
      (.ok (), tree.put ["o.jsonl"] (.file [])) :=
    Prod.ext (by decide +kernel) (by decide +kernel)
  have hresult : (runOn args tree).1.result = .ok () := by
    rw [runOn_of_finds hfinds, if_neg (by decide)]
    dsimp only
    rw [run_writeTo_of_write hmake rfl]
    exact verdict_eq_ok_iff.mpr ⟨_, hdecode⟩
  have hdry : Finds tree (args ++ ["--dry-run"]) ⟨"e.pb", some "o.jsonl"⟩ (encode [funded]) :=
    ⟨⟨"c.json", rfl, hloads⟩, henvelope⟩
  obtain ⟨settings, envelope, descriptions, hfinds', hdecode', hpath, -⟩ :=
    (output_goes_where_configured args tree).1 (by decide) hresult
  obtain ⟨rfl, rfl⟩ := hfinds'.unique hfinds
  obtain rfl := Except.ok.inj (hdecode'.symm.trans hdecode)
  have hstill := (output_goes_where_configured (args ++ ["--dry-run"]) tree).2 (by decide)
  exact ⟨hresult, hlength, (hpath "o.jsonl" rfl).2, hstill.1, hstill.2.mpr ⟨_, _, _, hdry, hdecode⟩⟩

/-- **An envelope that does not decode empties the output file.** All that was
there before is still there if, and only if, nothing had been in that file. -/
theorem output_emptied_of_decode_error {args : List String} {tree : FileTree} {error : DecodeError}
    (hdry : "--dry-run" ∉ args)
    (h : (runOn args tree).1.result = .error (.notTakenIn (.envelope error))) :
    ∃ settings envelope, Finds tree args settings envelope ∧ decode envelope = .error error
      ∧ (settings.outputPath = none → (runOn args tree).2 = tree)
      ∧ ∀ path, settings.outputPath = some path →
          ∃ place, Outputs tree path [] place (runOn args tree).2
            ∧ ((∀ other content, tree.node? other = some (.file content) →
                  (runOn args tree).2.node? other = some (.file content)) ↔
                ∀ content, tree.node? place = some (.file content) → content = []) := by
  obtain ⟨settings, envelope, hfinds, hverdict, hnone, hpath⟩ :=
    exists_finds_of_reports hdry fun failure hfailure => by
      rw [h] at hfailure
      exact ⟨error, (Except.error.inj hfailure).symm⟩
  rw [h, eq_comm] at hverdict
  have hdecode := verdict_eq_error_iff.mp hverdict
  refine ⟨settings, envelope, hfinds, hdecode, hnone, fun path hsome => ?_⟩
  obtain ⟨-, place, houtputs⟩ := hpath path hsome
  rw [linesOf_of_decode_eq_error hdecode] at houtputs
  exact ⟨place, houtputs, houtputs.keeps_iff⟩

/-- An envelope that ends within its first entry, and what becomes of an output
file with something in it. -/
theorem output_emptied_of_decode_error_cut :
    let stated := "\x7b\"envelope_path\":\"e.pb\",\"output_path\":\"o.jsonl\"\x7d"
    let tree : FileTree :=
      ⟨[(["c.json"], .file (Utf8.encode stated)), (["e.pb"], .file [0x0a]),
        (["o.jsonl"], .file (Utf8.encode "old\n"))], []⟩
    ∃ run, run = runOn ["--config", "c.json"] tree
      ∧ run.1.result = .error (.notTakenIn (.envelope ⟨.entry, .invalidVarint⟩))
      ∧ ∃ place, Outputs tree "o.jsonl" [] place run.2 := by
  intro stated tree
  have hresult : (runOn ["--config", "c.json"] tree).1.result =
      .error (.notTakenIn (.envelope ⟨.entry, .invalidVarint⟩)) := by decide +kernel
  have hfinds : Finds tree ["--config", "c.json"] ⟨"e.pb", some "o.jsonl"⟩ [0x0a] := by
    refine ⟨⟨"c.json", rfl, Utf8.encode stated, stated, ⟨"e.pb", some "o.jsonl"⟩, ?_, ?_, ?_,
      Settings.resolve_eq_iff.mp ?_⟩, ?_⟩
    all_goals decide +kernel
  obtain ⟨settings, envelope, hfinds', -, -, hpath⟩ :=
    output_emptied_of_decode_error (by decide) hresult
  obtain ⟨rfl, rfl⟩ := hfinds'.unique hfinds
  obtain ⟨place, houtputs, -⟩ := hpath "o.jsonl" rfl
  exact ⟨_, rfl, hresult, place, houtputs⟩

/-- So what an earlier run has written can be lost to an envelope that does not
decode. -/
theorem earlier_output_lost :
    ∃ args tree error place content, "--dry-run" ∉ args
      ∧ (runOn args tree).1.result = .error (.notTakenIn (.envelope error))
      ∧ tree.node? place = some (.file content)
      ∧ (runOn args tree).2.node? place = some (.file []) ∧ content ≠ [] := by
  refine ⟨["--config", "c.json"], ⟨[(["c.json"], .file (Utf8.encode
    "\x7b\"envelope_path\":\"e.pb\",\"output_path\":\"o.jsonl\"\x7d")), (["e.pb"], .file [0x0a]),
    (["o.jsonl"], .file (Utf8.encode "old\n"))], []⟩, ⟨.entry, .invalidVarint⟩, ["o.jsonl"],
    Utf8.encode "old\n", ?_, ?_, ?_, ?_, ?_⟩
  all_goals decide +kernel

end EscrowFeed.Command
