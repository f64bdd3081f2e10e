import IconModules.Settings.Basic
/-!
# The options of the command line

* **`Choice`** lists the options. Its functions say how each is written and what it is for, so
  reading arguments and writing help use the same table.
-/

namespace IconModules.CommandLine

def programName : String := "svg2elm"

def programPurpose : String := "Generate Elm icon modules from the Material Icons catalogue"

def commandName : String := "generate"

def commandPurpose : String := "Download icons and regenerate every family module"

/-- The command that explains the others. -/
def helpName : String := "help"

/-- What the explaining command does. -/
def helpPurpose : String := "Print this message or the help of the given subcommand(s)"

/-- An option. -/
inductive Choice where
  | root
  | profile
  | purgeCache
  | keepCache
  | maxAttempts
  | retryDelay
  | translator
  | formatter
  | verbose
  | help
  deriving DecidableEq, Repr

namespace Choice

/-- All options, in the order in which they are explained. -/
def all : List Choice :=
  [root, profile, purgeCache, keepCache, maxAttempts, retryDelay, translator, formatter, verbose,
   help]

/-- The name behind two dashes. -/
def long : Choice → String
  | root => "root"
  | profile => "profile"
  | purgeCache => "purge-cache"
  | keepCache => "keep-cache"
  | maxAttempts => "max-attempts"
  | retryDelay => "retry-delay"
  | translator => "translator"
  | formatter => "formatter"
  | verbose => "verbose"
  | help => "help"

/-- The letter behind one dash. -/
def short? : Choice → Option Char
  | root => some 'r'
  | profile => some 'p'
  | verbose => some 'v'
  | help => some 'h'
  | _ => none

def valueName? : Choice → Option String
  | root => some "ROOT"
  | profile => some "PROFILE"
  | maxAttempts => some "MAX_ATTEMPTS"
  | retryDelay => some "RETRY_DELAY"
  | translator => some "TRANSLATOR"
  | formatter => some "FORMATTER"
  | _ => none

/-- The option as it is written in messages. -/
def shown (o : Choice) : String :=
  "--" ++ o.long ++ match o.valueName? with
    | some v => " <" ++ v ++ ">"
    | none => ""

/-- What the option is for. -/
def purpose : Choice → String
  | root => "Project root (defaults to the enclosing git checkout)"
  | profile => "Generator generation to reproduce"
  | purgeCache => "Delete the SVG cache before downloading"
  | keepCache => "Reuse the SVG cache from previous runs"
  | maxAttempts => "Give up on an icon after this many forced downloads (default: never)"
  | retryDelay => "Seconds to wait before re-downloading a broken icon"
  | translator => "Markup translator executable"
  | formatter => "Elm formatter executable"
  | verbose => "Enable verbose output"
  | help => "Print help"

/-- The value that holds if the option is left out. -/
def default? : Choice → Option String
  | profile => some "current"
  | retryDelay => some "5"
  | _ => none

/-- The values that there are, with their meaning, if they can be listed. -/
def values : Choice → List (String × String)
  | profile =>
    [("legacy", "Coloring-based modules, one `@docs` line per icon"),
     ("current",
      "`Icon msg` modules with short attribute aliases and joined `@docs` lines")]
  | _ => []

/-- The option that cannot be given together with this one. -/
def rival? : Choice → Option Choice
  | purgeCache => some keepCache
  | keepCache => some purgeCache
  | _ => none

def ofLong? (name : String) : Option Choice :=
  all.find? fun o => o.long == name

def ofShort? (c : Char) : Option Choice :=
  all.find? fun o => o.short? == some c

end Choice
end IconModules.CommandLine
