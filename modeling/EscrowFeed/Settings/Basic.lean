/-
The settings of a run, and what a settings file can be refused for.
-/
import EscrowFeed.Files.Path
import EscrowFeed.Text.Quoted

set_option autoImplicit false

namespace EscrowFeed

/-- The settings of a run. -/
structure Settings where
  /-- The envelope to take in. -/
  envelopePath : String
  /-- The file that the lines go to; they are printed if there is none. -/
  outputPath : Option String := none
deriving DecidableEq

namespace Settings

/-- The settings with their paths as seen from a base directory. -/
def resolve (base : String) (settings : Settings) : Settings where
  envelopePath := Path.join base settings.envelopePath
  outputPath := settings.outputPath.map (Path.join base)

/-- The members of a settings object. -/
inductive Member where
  | envelopePath
  | outputPath
deriving DecidableEq

namespace Member

/-- The key of a member. -/
def key : Member → String
  | .envelopePath => "envelope_path"
  | .outputPath => "output_path"

/-- The member of a key. -/
def ofKey? (key : String) : Option Member :=
  [envelopePath, outputPath].find? fun member => member.key = key

end Member

/-- What was found where something else has to stand. -/
inductive Found where
  | null
  | bool (value : Bool)
  /-- A whole number of 64 bits, by its text. -/
  | integer (text : String)
  /-- Any other number. -/
  | number
  | string (text : String)
  | sequence
  | map
deriving DecidableEq

/-- The text of what was found. -/
def Found.message : Found → String
  | .null => "null"
  | .bool value => "boolean `" ++ (if value then "true" else "false") ++ "`"
  | .integer text => "integer `" ++ text ++ "`"
  | .number => "number"
  | .string text => "string " ++ Quoted.text text
  | .sequence => "sequence"
  | .map => "map"

/-- What has to stand somewhere. -/
inductive Expected where
  | path
  | settings
deriving DecidableEq

/-- The text of what has to stand. -/
def Expected.message : Expected → String
  | .path => "path string"
  | .settings => "struct MapperConfigRaw"

/-- How a text that is so far JSON fails to be settings. -/
inductive Fault where
  | missing (member : Member)
  | duplicate (member : Member)
  | unknown (key : String)
  | mismatch (found : Found) (expected : Expected)
  /-- A list without any element. -/
  | emptyList
deriving DecidableEq

/-- The text of a fault. -/
def Fault.message : Fault → String
  | .missing member => "missing field `" ++ member.key ++ "`"
  | .duplicate member => "duplicate field `" ++ member.key ++ "`"
  | .unknown key =>
    "unknown field `" ++ key ++ "`, expected `" ++ Member.envelopePath.key ++ "` or `"
      ++ Member.outputPath.key ++ "`"
  | .mismatch found expected =>
    "invalid type: " ++ found.message ++ ", expected " ++ expected.message
  | .emptyList => "invalid length 0, expected " ++ Expected.settings.message ++ " with 2 elements"

end Settings

/-- Why a settings file is refused. -/
inductive SettingsError where
  /-- The text is no JSON, or a list that goes on after its second element. -/
  | malformed
  | rejected (fault : Settings.Fault)
deriving DecidableEq

/-- What is wrong with the text, without the place at which it is. Where the text
is no JSON, only the place would tell. -/
def SettingsError.message : SettingsError → String
  | .malformed => ""
  | .rejected fault => fault.message

end EscrowFeed
