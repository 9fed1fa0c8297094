import SmallLisp.Error
import SmallLisp.Text.Blank
import SmallLisp.Text.Case

/-! # Settings

What a session takes from the machine it runs on: the files, the settings made
through environment variables, and the users. -/

namespace SmallLisp

structure Machine where
  files : FileSystem
  environment : List (String × String)
  /-- The home directories of users. -/
  users : List (String × String)

namespace Machine

variable (m : Machine)

/-- A setting without the blanks around it. A blank setting counts as absent. -/
def setting (variableName default : String) : String :=
  match m.environment.lookup variableName with
  | none => default
  | some raw =>
    match Text.trim raw.toList with
    | [] => default
    | cs => String.ofList cs

/-- What is appended to the name of an imported file; it starts with a dot. -/
def sourceExtension : String :=
  let extension := m.setting "SSLI_SOURCE_EXTENSION" ".ssli"
  if extension.toList.head? = some '.' then extension else "." ++ extension

/-- The least severity that a level name, in any case, lets through. -/
def thresholdOfName (name : String) : Int :=
  match String.ofList (Text.upper name.toList) with
  | "CRITICAL" | "FATAL" => 50
  | "ERROR" => 40
  | "WARN" | "WARNING" => 30
  | "INFO" => 20
  | "DEBUG" => 10
  | "NOTSET" => 0
  | _ => 30

def logThreshold : Int := thresholdOfName (m.setting "SSLI_LOG_LEVEL" "WARNING")

/-- The home directory of a user; no name stands for the user of the session. -/
def homeOf (user : String) : Option String :=
  if user = "" then some ((m.environment.lookup "HOME").getD "/") else m.users.lookup user

def historyFile : Except HostFault Path :=
  match (Path.ofText (m.setting "SSLI_HISTORY_FILE" "~/.ssli_history")).expandHome? m.homeOf with
  | some file => .ok file
  | none => .error .homeUnknown

end Machine

end SmallLisp
