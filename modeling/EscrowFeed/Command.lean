/-
The command: take in the envelope that a settings file names.

The files are reached through `FileAccess` and everything else is decided here,
so the command runs as well on a file tree that is a value as on the system's own
files. What is printed is part of the report.

The order of the work is fixed: settings, envelope, output file, and only then
the envelope's entries. So an output file is emptied before it is known whether
the envelope decodes, and a dry run, which stops short of the output file, does
not touch any file.
-/
import EscrowFeed.Feed.Ingest
import EscrowFeed.Files.Access
import EscrowFeed.Settings.Reader
import EscrowFeed.Store.Lines
import EscrowFeed.Store.Table

set_option autoImplicit false

namespace EscrowFeed.Command

/-- Why the command failed. -/
inductive Failure where
  | noSettingsPath
  | settingsUnreadable (path : String) (cause : FileError)
  | settingsRejected (path : String) (cause : SettingsError)
  | envelopeUnreadable (path : String) (cause : FileError)
  | outputNotCreated (path : String) (cause : FileError)
  | notTakenIn (cause : FeedError)
deriving DecidableEq

namespace Failure

/-- What failed. -/
def top : Failure → String
  | .noSettingsPath => "--config requires a path"
  | .settingsUnreadable path cause =>
    "Failed to read config file at " ++ path ++ ": " ++ cause.message
  | .settingsRejected path cause =>
    "Failed to parse config file at " ++ path ++ ": " ++ cause.message
  | .envelopeUnreadable path _ => "failed to read envelope " ++ path
  | .outputNotCreated path _ => "failed to create " ++ path
  | .notTakenIn _ => "envelope processing failed"

/-- What it failed for, outermost cause first. -/
def causes : Failure → List String
  | .noSettingsPath | .settingsRejected .. => []
  | .settingsUnreadable _ cause | .envelopeUnreadable _ cause | .outputNotCreated _ cause =>
    [cause.message]
  | .notTakenIn cause =>
    match cause with
    | .envelope error => [cause.message, error.message, error.detail]
    | .store error =>
      match error with
      | .medium reason | .rowText reason => [cause.message, error.message, reason]
      | .missingKey _ => [cause.message, error.message]

/-- The lines under a failure. Several causes are numbered. -/
def causeLines : List String → List String
  | [] => []
  | [cause] => ["", "Caused by:", "    " ++ cause]
  | causes =>
    "" :: "Caused by:" :: causes.mapIdx fun place cause => "    " ++ place.repr ++ ": " ++ cause

/-- The text of a failure. Of settings that are refused it tells the file and the
fault, and leaves the line open where the place of the fault would follow. -/
def report (failure : Failure) : String :=
  match failure with
  | .settingsRejected .. => "Error: " ++ failure.top
  | _ => String.join ((("Error: " ++ failure.top) :: causeLines failure.causes).map (· ++ "\n"))

end Failure

/-- What a run prints, and whether it succeeded. -/
structure Report where
  output : Bytes := []
  result : Except Failure Unit := .ok ()

namespace Report

/-- The text on the error stream. -/
def errorText (report : Report) : String :=
  match report.result with
  | .ok () => ""
  | .error failure => failure.report

/-- The exit code. -/
def exitCode (report : Report) : UInt8 :=
  match report.result with
  | .ok () => 0
  | .error _ => 1

end Report

/-! ## Arguments -/

/-- What the arguments ask for. -/
structure Request where
  settingsPath : String
  dryRun : Bool
deriving DecidableEq

/-- The settings file that is used if none is named. -/
def defaultSettingsPath : String := "config/config.json"

/-- The argument behind the first `--config`, whatever it looks like. -/
def settingsPath : List String → Except Failure String
  | [] => .ok defaultSettingsPath
  | arg :: rest =>
    if arg = "--config" then
      match rest with
      | [] => .error .noSettingsPath
      | path :: _ => .ok path
    else settingsPath rest

/-- Reads the arguments. A dry run may be asked for anywhere among them. -/
def request (args : List String) : Except Failure Request := do
  return { settingsPath := ← settingsPath args, dryRun := args.contains "--dry-run" }

/-! ## Work -/

section Work

variable {m : Type → Type} [Monad m] [FileAccess m]

/-- The settings of a file, with paths as seen from the directory it is in. -/
def loadSettings (path : String) : m (Except Failure Settings) := do
  match ← FileAccess.readText path with
  | .error error => return .error (.settingsUnreadable path error)
  | .ok text =>
    match Settings.read text with
    | .error error => return .error (.settingsRejected path error)
    | .ok settings => return .ok (settings.resolve ((Path.parent? path).getD "."))

/-- Makes an empty output file, and the directories above it. -/
def createOutput (path : String) : m (Except Failure Unit) := do
  let parent := (Path.parent? path).getD ""
  if parent ≠ "" then
    if let .error error ← FileAccess.createDirectories parent then
      return .error (.outputNotCreated parent error)
  match ← FileAccess.create path with
  | .error error => return .error (.outputNotCreated path error)
  | .ok () => return .ok ()

/-- What a dry run prints. -/
def dryRunLines (sink : CollectedSkips) (store : TableStore) (summary : Summary) : List String :=
  sink.messages.map ("skipped: " ++ ·)
    ++ summary.perKind.map (fun (kind, count) => kind.name ++ ": " ++ count.repr)
    ++ [summary.entries.repr ++ " entries, " ++ store.size.repr ++ " records, "
      ++ summary.skipped.repr ++ " skipped, " ++ summary.unrecognized.repr ++ " unrecognized"]

/-- Takes an envelope into memory and says what it holds. -/
def dryRun (envelope : Bytes) : Report :=
  let run := ingest envelope ({} : CollectedSkips) ({} : TableStore)
  match run.result with
  | .error error => { result := .error (.notTakenIn error) }
  | .ok summary =>
    let lines := dryRunLines run.sink run.store summary
    { output := Utf8.encode (String.join (lines.map (· ++ "\n"))) }

/-- Takes an envelope in and prints its lines. -/
def print (envelope : Bytes) : Report :=
  let run := ingest envelope SkipWarnings.mk ({} : LineStore)
  { output := run.store.outlet.content
    result := run.result.mapError .notTakenIn |>.map fun _ => () }

/-- How many bytes of output are kept back before they are passed on to a file. -/
def blockSize : Nat := 8192

/-- How a store reports that the file under it refused what was written. The file
hears of the lines a block at a time, so the refusal comes with the byte that no
longer fits in the first block, be it in a row's text or a line feed, or else
with the final flush. -/
def refusal (written : Bytes) (reason : String) : StoreError :=
  match written[blockSize]? with
  | none => .medium reason
  | some byte => if byte = 0x0a then .medium reason else .rowText reason

/-- Takes an envelope in and writes its lines to a file. -/
def writeTo (path : String) (envelope : Bytes) : m Report := do
  match ← createOutput path with
  | .error failure => return { result := .error failure }
  | .ok () =>
    let report := print envelope
    match ← FileAccess.append path report.output with
    | .error error =>
      return { result := .error (.notTakenIn (.store (refusal report.output error.message))) }
    | .ok () => return { report with output := [] }

/-- Runs the command. -/
def run (args : List String) : m Report := do
  match request args with
  | .error failure => return { result := .error failure }
  | .ok request =>
    match ← loadSettings request.settingsPath with
    | .error failure => return { result := .error failure }
    | .ok settings =>
      match ← FileAccess.read settings.envelopePath with
      | .error error =>
        return { result := .error (.envelopeUnreadable settings.envelopePath error) }
      | .ok envelope =>
        if request.dryRun then return dryRun envelope
        else
          match settings.outputPath with
          | none => return print envelope
          | some path => writeTo path envelope

end Work

end EscrowFeed.Command
