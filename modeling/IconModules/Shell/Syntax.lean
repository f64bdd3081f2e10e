/-!
# Shell scripts

The commands that scripts are made of, and the words that commands are made of. A word may hold the
output of a command, so the two kinds of thing are defined together.
-/

namespace IconModules.Shell

/-- What takes the place of a parameter that is not set, or of one that is. -/
inductive Stand where
  /-- The word, if the parameter is not set. -/
  | otherwise
  /-- The word, if the parameter is not set; it is set to it. -/
  | assigned
  /-- A complaint, if the parameter is not set. -/
  | complaint
  /-- The word, if the parameter is set. -/
  | instead
  deriving DecidableEq, Repr

mutual

/-- A part of a word. Quoted parts are kept together and stand for themselves. -/
inductive Piece where
  | text (s : String) (quoted : Bool)
  | value (name : String) (form : Form) (quoted : Bool)
  | output (c : Command) (quoted : Bool)
  | result (expression : List Piece) (quoted : Bool)

/-- What becomes of the value of a parameter. -/
inductive Form where
  | plain
  | size
  /-- A word takes its place. An empty value may count as one that is not set. -/
  | stand (s : Stand) (emptyToo : Bool) (word : List Piece)
  /-- What a pattern covers is cut off: at the front or at the end, as little or as much as it
  can. -/
  | cut (front longest : Bool) (pattern : List Piece)
  | unknown

/-- What a redirection connects. -/
inductive Target where
  | read (name : List Piece)
  /-- Written from the start of a file, or behind its end. -/
  | write (name : List Piece) (behind : Bool)
  /-- Whatever a channel is connected to, given by its number. -/
  | channel (number : List Piece)
  | document (text : List Piece)

inductive Command where
  | nothing
  | simple (line : Nat) (assignments : List (String × List Piece)) (words : List (List Piece))
      (redirections : List (Nat × Target))
  | sequence (a b : Command)
  | background (a : Command)
  | pipeline (commands : List Command)
  | negation (a : Command)
  | both (a b : Command)
  | either (a b : Command)
  | loop (wanted : Bool) (test body : Command)
  /-- The body runs once for each word; without words, once for each argument. -/
  | forEach (name : String) (words : Option (List (List Piece))) (body : Command)
  | choice (test yes no : Command)
  | selection (word : List Piece) (cases : List (List (List Piece) × Command))
  | function (name : String) (body : Command)
  | subshell (a : Command)
  | redirected (a : Command) (redirections : List (Nat × Target))

end

abbrev Word := List Piece

abbrev Redirection := Nat × Target

def plain? : Word → Option String
  | [.text s false] => some s
  | _ => none

def literal (w : Word) : String :=
  String.join <| w.map fun
    | .text s _ => s
    | _ => ""

def anyQuoted (w : Word) : Bool :=
  w.any fun
    | .text _ quoted => quoted
    | _ => false

def isNameStart (c : Char) : Bool :=
  c.isAlpha || c == '_'

def isNameChar (c : Char) : Bool :=
  c.isAlphanum || c == '_'

def isName (s : String) : Bool :=
  match s.toList with
  | c :: cs => isNameStart c && cs.all isNameChar
  | [] => false

end IconModules.Shell
