import BoundSql.Error

/-!
The causes for which settings are refused, and their text.
-/

namespace BoundSql

/-- Why a document does not describe settings. -/
inductive DocumentFault where
  | missingField (name : String)
  | unknownVariant (name : String)
  /-- A value of one type where another was expected. -/
  | wrongType (found expected : String)
  | negativeSize (n : Int)
  /-- Anything else, such as a text that is no document at all. -/
  | other
  deriving DecidableEq

def DocumentFault.message : DocumentFault → String
  | .missingField name => "missing field `" ++ name ++ "`"
  | .unknownVariant name => "unknown variant `" ++ name ++ "`, expected `fast` or `verified`"
  | .wrongType found expected => "invalid type: " ++ found ++ ", expected " ++ expected
  | .negativeSize n => "invalid value: integer `" ++ toString n ++ "`, expected usize"
  | .other => "other"

/-- Why settings are refused. -/
inductive SettingsFault where
  | unset (name : String)
  /-- The text of a variable is no size. -/
  | notSize (name text : String)
  | blankUrl
  | zeroSize
  | document (fault : DocumentFault)
  | fileMissing (name : String)
  | fileNotText (name : String)
  /-- The settings in a file were refused. -/
  | inFile (name : String) (fault : SettingsFault)
  deriving DecidableEq

def SettingsFault.message : SettingsFault → String
  | .unset name => name ++ " is not set"
  | .notSize name text => name ++ " must be a positive integer, got '" ++ text ++ "'"
  | .blankUrl => "database.url must not be empty"
  | .zeroSize => "pool.max_size must be at least 1"
  | .document fault => "failed to parse config: " ++ fault.message
  | .fileMissing name =>
    "failed to read config file " ++ name ++ ": No such file or directory (os error 2)"
  | .fileNotText name =>
    "failed to read config file " ++ name ++ ": stream did not contain valid UTF-8"
  | .inFile name fault => fault.message ++ " (" ++ name ++ ")"

/-- The error that a caller sees. -/
def SettingsFault.toError (fault : SettingsFault) : Error := .config fault.message

end BoundSql
