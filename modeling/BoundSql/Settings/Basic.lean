import BoundSql.Settings.Fault
import BoundSql.Text.Blank
import BoundSql.Text.Numeral

/-!
The settings of a connection pool, and how the environment gives them.
-/

namespace BoundSql

/-- How a pooled connection is checked before it is used again. -/
inductive Recycling where
  | fast
  /-- By a test query. -/
  | verified
  deriving DecidableEq

/-- Where to connect and how many connections to keep. -/
structure Settings where
  url : String
  maxSize : Nat := 16
  recycling : Recycling := .fast
  deriving DecidableEq

namespace Settings

/-- Settings with a URL that is not blank and room for a connection. -/
def validate (s : Settings) : Except SettingsFault Settings :=
  if (Text.trimChars s.url.toList).isEmpty then .error .blankUrl
  else if s.maxSize = 0 then .error .zeroSize
  else .ok s

/-- The variable that holds the connection string. -/
def urlVariable : String := "DATABASE_URL"

/-- The variable that may hold the size of the pool. -/
def sizeVariable : String := "QUERYDB_MAX_POOL_SIZE"

/-- The size that the text of a variable gives, blanks around it apart. -/
def sizeOfText? (text : String) : Option Nat :=
  Text.unsigned? Text.maxWord64 (Text.trimChars text.toList)

/-- The settings that the two variables give. -/
def ofEnvironment (url size : Option String) : Except SettingsFault Settings :=
  match url, size with
  | none, _ => .error (.unset urlVariable)
  | some url, none => validate { url }
  | some url, some text =>
    match sizeOfText? text with
    | none => .error (.notSize sizeVariable text)
    | some maxSize => validate { url, maxSize }

end Settings

end BoundSql
