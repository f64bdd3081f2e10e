import IconModules.Files.Path
import IconModules.Text.Terminal
/-!
# What happens during a run

* An **`Event`** is a request to a partner, a pause, or a note.
* A **`Note`** is one entry of the log; **`Note.line`** writes it.
-/

namespace IconModules

/-- How much a note matters. -/
inductive Level where
  | debug
  | info
  | warn
  deriving DecidableEq, Repr

def Level.word : Level → String
  | debug => "DEBUG"
  | info => "INFO"
  | warn => "WARN"

/-- One entry of the log. -/
inductive Note where
  | downloadingCatalogue (url : String)
  | catalogueLoaded (icons families categories : Nat)
  | processingFamily (family : String) (icons : Nat)
  | processingIcon (family symbol : String)
  | downloadingIcon (url : String) (force : Bool)
  /-- A drawing is broken; the pause is in milliseconds. -/
  | waiting (delay : Nat) (icon family : String)
  | moduleWritten (path : Path)
  | manualModuleMissing (path : Path)
  | moving (old new : Path)
  | installed (modules : Nat) (folder : Path)
  | formatting (folder : Path)
  deriving DecidableEq, Repr

namespace Note

/-- How much a note matters. -/
def level : Note → Level
  | downloadingCatalogue _ | catalogueLoaded .. | processingFamily .. | installed ..
  | formatting _ => .info
  | processingIcon .. | downloadingIcon .. | moduleWritten _ | moving .. => .debug
  | waiting .. | manualModuleMissing _ => .warn

/-- The note without its fields. -/
def text : Note → String
  | downloadingCatalogue _ => "downloading icon index"
  | catalogueLoaded .. => "loaded icon index"
  | processingFamily .. => "processing family"
  | processingIcon family symbol => "processing " ++ family ++ "/" ++ symbol
  | downloadingIcon .. => "downloading icon"
  | waiting delay .. =>
    "download failed, waiting " ++ toString (delay / 1000) ++ "s before fetching again"
  | moduleWritten _ => "module written"
  | manualModuleMissing _ => "auxiliary module not found, skipping"
  | moving .. => "moving"
  | installed .. => "installed generated modules"
  | formatting _ => "formatting sources"

/-- The fields of a note with their values as they are written. -/
def fields : Note → List (String × String)
  | downloadingCatalogue url => [("url", url)]
  | catalogueLoaded icons families categories =>
    [("icons", toString icons), ("families", toString families),
     ("categories", toString categories)]
  | processingFamily family icons =>
    [("family", Text.quoted family), ("icons", toString icons)]
  | processingIcon .. => []
  | downloadingIcon url force => [("url", url), ("force", toString force)]
  | waiting _ icon family => [("icon", icon), ("family", Text.quoted family)]
  | moduleWritten path => [("path", path.text)]
  | manualModuleMissing path => [("path", path.text)]
  | moving old new => [("from", old.text), ("to", new.text)]
  | installed modules folder => [("modules", toString modules), ("dest", folder.text)]
  | formatting folder => [("dir", folder.text)]

/-- The note as it is written: level, text and fields. No text steers a terminal. -/
def line (n : Note) : String :=
  n.fields.foldl (fun s f => s ++ " " ++ f.1 ++ "=" ++ f.2)
    (n.level.word ++ " " ++ Text.masked n.text)

/-- The lines that a note takes up in a log, without blanks in front. -/
def lines (n : Note) : List String :=
  (n.line.toList.splitOn '\n').map fun l => String.ofList (l.dropWhile (· == ' '))

end Note

/-- Something that happens during a run. -/
inductive Event where
  | fetched (url : String)
  /-- A pause was made, of so many milliseconds. -/
  | slept (delay : Nat)
  | translated (markup : String)
  | formatted (folder : Path)
  | noted (n : Note)
  deriving DecidableEq, Repr

end IconModules
