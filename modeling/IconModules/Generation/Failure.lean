import IconModules.Files.FileError
import IconModules.Json.Fault
/-!
# Failures of a run

* A **`Failure`** is one of the reasons for which generating modules stops.
* **`Failure.message`** puts it in words.
-/

namespace IconModules

/-- Why generating modules stopped. -/
inductive Failure where
  | files (path : Path) (cause : FileError)
  | download (url reason : String)
  | catalogue (cause : Json.Error)
  /-- The name of an icon begins with a digit and is not in the table. -/
  | digitName (name : String)
  | tool (name text : String)
  | stillBroken (name : String) (attempts : Nat)
  | badRenaming
  | noProject (text : String)
  /-- A drawing was still broken when nobody waited any longer. -/
  | abandoned (name : String)
  deriving DecidableEq, Repr

def Failure.message : Failure → String
  | files p e => "I/O error on " ++ p.text ++ ": " ++ e.message
  | download url reason => "download failed for " ++ url ++ ": " ++ reason
  | catalogue e => "failed to parse icon index: " ++ e.message
  | digitName name =>
    "An icon can't have a number as the first character (icon: `" ++ name ++ "`)"
  | tool name text => name ++ " failed: " ++ text
  | stillBroken name n =>
    "`" ++ name ++ "` still invalid after " ++ toString n ++ " forced downloads"
  | badRenaming => "invalid pattern"
  | noProject text => "could not resolve project root: " ++ text
  | abandoned name => "`" ++ name ++ "` still invalid"

end IconModules
