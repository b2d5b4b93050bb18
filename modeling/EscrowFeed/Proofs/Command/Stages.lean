/-
The stages of a run of the command on a file tree.

Arguments, settings and envelope come first, and getting at them is reading and
nothing more. So whatever keeps a run from starting has left the tree alone, and
a run that starts is decided by what has been found: the settings and the bytes
of the envelope. How they were found is of no further matter.
-/
import EscrowFeed.Command
import EscrowFeed.Files.Tree
import EscrowFeed.Proofs.Settings.Grammar

set_option autoImplicit false

namespace EscrowFeed.Command

/-- A run of the command on a file tree: its report, and the tree after it. -/
def runOn (args : List String) (tree : FileTree) : Report × FileTree :=
  (run args : StateM FileTree Report).run tree

/-! ## What a run finds -/

/-- The file of a path holds settings, and these are they with both paths as seen
from the file's directory. -/
def LoadsFrom (tree : FileTree) (path : String) (settings : Settings) : Prop :=
  ∃ bytes text stated, tree.read path = .ok bytes ∧ Utf8.decode? bytes = some text
    ∧ Settings.read text = .ok stated
    ∧ Path.SeenFrom ((Path.parent? path).getD ".") stated.envelopePath settings.envelopePath
    ∧ Option.Rel (Path.SeenFrom ((Path.parent? path).getD ".")) stated.outputPath
        settings.outputPath

/-- The arguments name a file of settings. -/
def Loads (tree : FileTree) (args : List String) (settings : Settings) : Prop :=
  ∃ path, settingsPath args = .ok path ∧ LoadsFrom tree path settings

/-- The settings load, and the envelope that they name can be read. -/
def Finds (tree : FileTree) (args : List String) (settings : Settings) (envelope : Bytes) : Prop :=
  Loads tree args settings ∧ tree.read settings.envelopePath = .ok envelope

/-- A file holds one set of settings, and a base makes one path of each that
they state. -/
theorem LoadsFrom.unique {tree : FileTree} {path : String} {settings other : Settings}
    (h : LoadsFrom tree path settings) (hother : LoadsFrom tree path other) : settings = other := by
  obtain ⟨bytes, text, stated, hbytes, htext, hstated, hseen⟩ := h
  obtain ⟨bytes', text', stated', hbytes', htext', hstated', hseen'⟩ := hother
  rw [hbytes, Except.ok.injEq] at hbytes'
  subst hbytes'
  rw [htext, Option.some.injEq] at htext'
  subst htext'
  rw [hstated, Except.ok.injEq] at hstated'
  subst hstated'
  rw [← Settings.resolve_eq_iff.mpr hseen, ← Settings.resolve_eq_iff.mpr hseen']

/-- Arguments and tree determine what a run finds. -/
theorem Finds.unique {tree : FileTree} {args : List String} {settings other : Settings}
    {envelope envelope' : Bytes} (h : Finds tree args settings envelope)
    (hother : Finds tree args other envelope') : settings = other ∧ envelope = envelope' := by
  obtain ⟨⟨path, hpath, hloads⟩, henvelope⟩ := h
  obtain ⟨⟨path', hpath', hloads'⟩, henvelope'⟩ := hother
  rw [hpath, Except.ok.injEq] at hpath'
  subst hpath'
  obtain rfl := hloads.unique hloads'
  rw [henvelope, Except.ok.injEq] at henvelope'
  exact ⟨rfl, henvelope'⟩

/-! ## Computations on a tree -/

/-- A computation goes on in the tree that the one before it left. -/
theorem run_bind_of_run {α β : Type} {x : StateM FileTree α} {f : α → StateM FileTree β}
    {tree after : FileTree} {a : α} (h : x.run tree = (a, after)) :
    (x >>= f).run tree = (f a).run after := by
  rw [StateT.run_bind, h]
  rfl

theorem run_read (path : String) (tree : FileTree) :
    (FileAccess.read path : StateM FileTree (Except FileError Bytes)).run tree =
      (tree.read path, tree) := rfl

theorem run_create (path : String) (tree : FileTree) :
    (FileAccess.create path : StateM FileTree (Except FileError Unit)).run tree =
      FileTree.write path (fun _ => []) tree := rfl

theorem run_append (path : String) (bytes : Bytes) (tree : FileTree) :
    (FileAccess.append path bytes : StateM FileTree (Except FileError Unit)).run tree =
      FileTree.write path (· ++ bytes) tree := rfl

theorem run_readText (path : String) (tree : FileTree) :
    (FileAccess.readText path : StateM FileTree (Except FileError String)).run tree =
      ((tree.read path).bind fun bytes => (Utf8.decode? bytes).elim (.error .notText) .ok,
        tree) := by
  rw [FileAccess.readText, run_bind_of_run (run_read path tree)]
  cases tree.read path with
  | error error => rfl
  | ok bytes =>
    dsimp only [Except.bind]
    cases Utf8.decode? bytes with
    | none => rfl
    | some text => rfl

/-- Loading settings is reading, and what it fails for is not the envelope. -/
theorem run_loadSettings (path : String) (tree : FileTree) :
    ∃ result, (loadSettings path : StateM FileTree (Except Failure Settings)).run tree =
        (result, tree)
      ∧ (∀ settings, result = .ok settings ↔ LoadsFrom tree path settings)
      ∧ ∀ cause, result ≠ .error (.notTakenIn cause) := by
  -- One case for each stage of loading; each failure names the stage, never the envelope.
  rw [loadSettings, run_bind_of_run (run_readText path tree)]
  cases hread : tree.read path with
  | error error => exact ⟨_, rfl, by simp [LoadsFrom, hread], by simp⟩
  | ok bytes =>
    dsimp only [Except.bind]
    cases htext : Utf8.decode? bytes with
    | none => exact ⟨_, rfl, by simp [LoadsFrom, hread, htext], by simp⟩
    | some text =>
      dsimp only [Option.elim_some]
      cases hstated : Settings.read text with
      | error error => exact ⟨_, rfl, by simp [LoadsFrom, hread, htext, hstated], by simp⟩
      | ok stated =>
        refine ⟨_, rfl, fun settings => ?_, by simp⟩
        simp [LoadsFrom, hread, htext, hstated, Settings.resolve_eq_iff]

/-! ## What is found decides the run -/

theorem settingsPath_eq_error {args : List String} {failure : Failure}
    (h : settingsPath args = .error failure) : failure = .noSettingsPath := by
  induction args with
  | nil => cases h
  | cons arg rest ih =>
    unfold settingsPath at h
    split at h
    · split at h
      · exact (Except.error.inj h).symm
      · cases h
    · exact ih h

/-- Where the settings are found a dry run is asked for by its flag, anywhere. -/
theorem request_of_settingsPath {args : List String} {path : String}
    (h : settingsPath args = .ok path) : request args = .ok ⟨path, args.contains "--dry-run"⟩ := by
  rw [request, h]
  rfl

section

variable {args : List String} {tree : FileTree} {settings : Settings} {envelope : Bytes}

/-- **A dry run stops at what can be said of the envelope**, and another one
prints or writes, as the settings say. -/
theorem runOn_of_finds (h : Finds tree args settings envelope) :
    runOn args tree =
      if "--dry-run" ∈ args then (dryRun envelope, tree)
      else
        match settings.outputPath with
        | none => (print envelope, tree)
        | some path => (writeTo path envelope : StateM FileTree Report).run tree := by
  obtain ⟨⟨path, hpath, hloads⟩, henvelope⟩ := h
  obtain ⟨result, hrun, hresult, -⟩ := run_loadSettings path tree
  obtain rfl := (hresult settings).mpr hloads
  have hread := run_read settings.envelopePath tree
  rw [henvelope] at hread
  rw [runOn, run, request_of_settingsPath hpath]
  dsimp only
  rw [run_bind_of_run hrun]
  dsimp only
  rw [run_bind_of_run hread]
  dsimp only
  by_cases hdry : "--dry-run" ∈ args
  · rw [if_pos hdry, if_pos (List.contains_iff_mem.mpr hdry)]
    rfl
  · rw [if_neg hdry, if_neg (by simpa using hdry)]
    cases settings.outputPath with
    | none => rfl
    | some path => rfl

/-- Where something is missing the run fails before it has done anything, and
not for what is in the envelope. -/
theorem runOn_of_not_finds (h : ∀ settings envelope, ¬Finds tree args settings envelope) :
    ∃ failure, (∀ cause, failure ≠ .notTakenIn cause)
      ∧ runOn args tree = ({ result := .error failure }, tree) := by
  rw [runOn, run]
  cases hpath : settingsPath args with
  | error failure =>
    have hrequest : request args = .error failure := by
      rw [request, hpath]
      rfl
    refine ⟨failure, fun cause => ?_, by rw [hrequest]; rfl⟩
    rw [settingsPath_eq_error hpath]
    simp
  | ok path =>
    obtain ⟨result, hrun, hresult, hcause⟩ := run_loadSettings path tree
    rw [request_of_settingsPath hpath]
    dsimp only
    rw [run_bind_of_run hrun]
    cases result with
    | error failure => exact ⟨failure, fun cause heq => hcause cause (by rw [heq]), rfl⟩
    | ok settings =>
      have hloads : Loads tree args settings := ⟨path, hpath, (hresult settings).mp rfl⟩
      have hread := run_read settings.envelopePath tree
      dsimp only
      rw [run_bind_of_run hread]
      cases henvelope : tree.read settings.envelopePath with
      | error error => exact ⟨.envelopeUnreadable settings.envelopePath error, by simp, rfl⟩
      -- Everything was found after all.
      | ok envelope => exact absurd ⟨hloads, henvelope⟩ (h settings envelope)

/-- A run that gets anywhere has found its settings and its envelope. -/
theorem exists_finds_of_result_ne
    (h : ∀ failure, (∀ cause, failure ≠ .notTakenIn cause) →
      (runOn args tree).1.result ≠ .error failure) :
    ∃ settings envelope, Finds tree args settings envelope := by
  refine Classical.byContradiction fun hnone => ?_
  simp only [not_exists] at hnone
  obtain ⟨failure, hcause, hrun⟩ := runOn_of_not_finds hnone
  exact h failure hcause (by rw [hrun])

end

end EscrowFeed.Command
