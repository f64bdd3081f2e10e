import IconModules.CommandLine.Choice
/-!
# Help

* **`programHelp`**, **`commandHelp`** and **`helpHelp`** are the texts that explain the program and
  its two commands. That of the command comes in a short and a long form.
-/

namespace IconModules.CommandLine

def margin : String := "          "

def listed (o : Choice) : String :=
  (match o.short? with
    | some c => "  -" ++ String.singleton c ++ ", "
    | none => "      ") ++ o.shown

/-- What is said about an option, where the help itself mentions its other form. -/
def explanation (long : Bool) (o : Choice) : String :=
  match o with
  | .help => o.purpose ++ if long then " (see a summary with '-h')" else " (see more with '--help')"
  | _ => o.purpose

/-- The values of an option, one a line, with their meanings below each other. -/
def valueLines (o : Choice) : List String :=
  let width := (o.values.map fun v => v.1.length).foldl max 0
  o.values.map fun v =>
    margin ++ "- " ++ v.1 ++ ":" ++ String.ofList (List.replicate (width - v.1.length) ' ') ++
      " " ++ v.2

/-- An option in the long form of help. -/
def longEntry (o : Choice) : List String :=
  [listed o, margin ++ explanation true o] ++
    (if o.values.isEmpty then [] else ["", margin ++ "Possible values:"] ++ valueLines o) ++
    match o.default? with
    | some v => [margin, margin ++ "[default: " ++ v ++ "]"]
    | none => []

def listWidth : Nat :=
  (Choice.all.map fun o => (listed o).length).foldl max 0

/-- An option in the short form of help: one line, with the explanations below each other. -/
def shortEntry (o : Choice) : String :=
  let default := match o.default? with
    | some v => " [default: " ++ v ++ "]"
    | none => ""
  let values :=
    if o.values.isEmpty then ""
    else " [possible values: " ++ ", ".intercalate (o.values.map (·.1)) ++ "]"
  listed o ++ String.ofList (List.replicate (listWidth - (listed o).length) ' ') ++ "  " ++
    explanation false o ++ default ++ values

def paragraph (lines : List String) : String :=
  String.join (lines.map (· ++ "\n"))

def programHelp : String :=
  paragraph [programPurpose, "", "Usage: " ++ programName ++ " <COMMAND>", "", "Commands:",
    "  " ++ commandName ++ "  " ++ commandPurpose, "  " ++ helpName ++ "      " ++ helpPurpose, "",
    "Options:", "  -h, --help  " ++ Choice.help.purpose]

/-- Explains the command that generates modules. -/
def commandHelp (long : Bool) : String :=
  let entries :=
    if long then [""].intercalate (Choice.all.map longEntry) else Choice.all.map shortEntry
  paragraph ([commandPurpose, "",
    "Usage: " ++ programName ++ " " ++ commandName ++ " [OPTIONS]", "", "Options:"] ++ entries)

/-- Explains the command that explains. -/
def helpHelp : String :=
  paragraph [helpPurpose, "", "Usage: " ++ programName ++ " " ++ helpName ++ " [COMMAND]...", "",
    "Arguments:", "  [COMMAND]...  Print help for the subcommand(s)"]

end IconModules.CommandLine
