import IconModules.Shell.Syntax
/-!
# Reading a script character by character

* A **`Source`** is the rest of a script. Something that reads from it is a **`Read`**, which fails
  with a **`SyntaxError`**.
* A **`Token`** is a word, a sign or the end of a line.
* **`takeDocument`** takes the lines of a text that follows the line at hand.
-/

namespace IconModules.Shell

/-! ### Tokens -/

/-- What a script is cut into. -/
inductive Token where
  | word (w : Word)
  | sign (s : String)
  | arrow (channel : Option Nat) (s : String)
  | lineEnd
  | scriptEnd

def keywords : List String :=
  ["!", "case", "do", "done", "elif", "else", "esac", "fi", "for", "if", "in", "then", "until",
   "while", "\x7b", "\x7d"]

namespace Token

def keyword? : Token → Option String
  | word w => (plain? w).filter keywords.contains
  | _ => none

def sign? : Token → Option String
  | sign s => some s
  | _ => none

def closers : List String :=
  ["do", "done", "elif", "else", "esac", "fi", "then", "\x7d", ")", ";;"]

def closes : Token → Bool
  | scriptEnd => true
  | t => (t.keyword?.or t.sign?).any closers.contains

def inQuotes (s : String) : String :=
  "\"" ++ s ++ "\""

def shown (t : Token) : String :=
  match t with
  | word _ => match t.keyword? with
    | some s => inQuotes s
    | none => "word"
  | sign s => inQuotes s
  | arrow .. => "redirection"
  | lineEnd => "newline"
  | scriptEnd => "end of file"

end Token

/-! ### Sources -/

/-- The rest of a script. -/
structure Source where
  rest : List Char
  line : Nat
  held : Option Token
  ahead : Nat

/-- What is wrong with a script, and the line in which it was noticed. -/
structure SyntaxError where
  line : Nat
  text : String
  deriving DecidableEq, Repr

abbrev Read := StateT Source (Except SyntaxError)

namespace Read

def complain {α : Type} (text : String) : Read α := do
  throw ⟨(← get).line, text⟩

def unexpected {α : Type} (t : Token) (wanted : Option String) : Read α :=
  complain <| t.shown ++ " unexpected" ++ match wanted with
    | some s => " (expecting " ++ s ++ ")"
    | none => ""

def skip (n : Nat) : Read Unit :=
  modify fun s =>
    { s with rest := s.rest.drop n, line := s.line + ((s.rest.take n).filter (· == '\n')).length }

/-- Takes a character that is out of place. The end of a line does not count then. -/
def passOver : Read Unit :=
  modify fun s => { s with rest := s.rest.drop 1 }

def takeRun (p : Char → Bool) : Read String := do
  let cs := (← get).rest.takeWhile p
  skip cs.length
  return String.ofList cs

def takeText (text : String) : Read Bool := do
  if text.toList.isPrefixOf (← get).rest then
    skip text.length
    return true
  else return false

/-- Takes blanks, joined lines and a comment. A joined line counts as a line. -/
def skipBlanks : Nat → Read Unit
  | 0 => return
  | fuel + 1 => do
    match (← get).rest with
    | ' ' :: _ | '\t' :: _ =>
      skip 1
      skipBlanks fuel
    | '\\' :: '\n' :: _ =>
      skip 2
      skipBlanks fuel
    | '#' :: _ =>
      let _ ← takeRun (· != '\n')
    | _ => return

/-- Takes the end of the line, with the lines behind it that were taken already. -/
def endLine : Read Unit := do
  skip 1
  modify fun s => { s with line := s.line + s.ahead, ahead := 0 }

def splitDocument (mark : List Char) (tabs : Bool) : Nat → List Char → List Char × Nat × List Char
  | 0, cs => ([], 0, cs)
  | fuel + 1, cs =>
    let line := cs.takeWhile (· != '\n')
    let rest := cs.drop (line.length + 1)
    let text := if tabs then line.dropWhile (· == '\t') else line
    if cs.isEmpty then ([], 0, [])
    else if text = mark then ([], 1, rest)
    else
      let (more, n, rest) := splitDocument mark tabs fuel rest
      (text ++ '\n' :: more, n + 1, rest)

/-- Takes the lines behind the line at hand up to a mark. Tabs at their start may be left out. -/
def takeDocument (mark : String) (tabs : Bool) : Read String := do
  let s ← get
  let here := s.rest.takeWhile (· != '\n')
  let (text, n, rest) :=
    splitDocument mark.toList tabs s.rest.length (s.rest.drop (here.length + 1))
  set { s with rest := here ++ '\n' :: rest, ahead := s.ahead + n }
  return String.ofList text

def within {α : Type} (text : String) (r : Read α) : Read α := do
  let s ← get
  set { s with rest := text.toList, held := none, ahead := 0 }
  let x ← r
  set s
  return x

end Read
end IconModules.Shell
