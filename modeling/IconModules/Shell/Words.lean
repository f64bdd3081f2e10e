import IconModules.Shell.Glob
import IconModules.Shell.State
/-!
# What words stand for

* **`Fields`** are the arguments that a word stands for, in the making. A value without quotes is
  split into several.
* **`State.pieces`** puts the pieces of a word behind fields. It may run commands, for which it is
  given the function that does so.
* **`State.arguments?`**, **`State.text`** and **`State.field`** are the arguments, the text and the
  pattern that words stand for.
-/

namespace IconModules.Shell

/-! ### Fields -/

/-- The fields of a word: finished ones, and the one in the making. -/
structure Fields where
  done : List Field := []
  last : Option Field := none
  closed : Bool := false

namespace Fields

def add (fs : Fields) (f : Field) : Fields :=
  { fs with last := some (fs.last.getD [] ++ f), closed := false }

def endByBlank (fs : Fields) : Fields :=
  match fs.last with
  | some f => ⟨fs.done ++ [f], none, true⟩
  | none => fs

/-- Ends a field, which may be empty. A blank before the sign belongs to it. -/
def endBySign (fs : Fields) : Fields :=
  match fs.last with
  | some f => ⟨fs.done ++ [f], none, false⟩
  | none => if fs.closed then { fs with closed := false } else ⟨fs.done ++ [[]], none, false⟩

def isBlank (c : Char) : Bool :=
  c == ' ' || c == '\t' || c == '\n'

def split (separators : List Char) : List Char → Fields → Fields
  | [], fs => fs
  | c :: cs, fs =>
    if separators.contains c then
      split separators cs (if isBlank c then fs.endByBlank else fs.endBySign)
    else split separators cs (fs.add [(c, false)])

/-- Adds values and splits them. Each further one begins a field of its own. -/
def splitAll (separators : List Char) : List String → Fields → Fields
  | [], fs => fs
  | [v], fs => fs.split separators v.toList
  | v :: vs, fs => splitAll separators vs (fs.split separators v.toList).endByBlank

/-- Adds texts in quotes. Each further one begins a field of its own. -/
def join : List String → Fields → Fields
  | [], fs => fs
  | [v], fs => fs.add (Field.ofString true v)
  | v :: vs, fs => join vs (fs.add (Field.ofString true v)).endByBlank

def all (fs : Fields) : List Field :=
  fs.done ++ fs.last.toList

end Fields

/-! ### Pieces -/

/-- How the pieces of a word are used: whether values are split, and whether texts are as well,
which is so in the word that goes with a parameter. -/
structure Usage where
  splitsValues : Bool
  splitsTexts : Bool := false

namespace State

def addValue (s : State) (u : Usage) (quoted : Bool) (v : String) (fs : Fields) : Fields :=
  if quoted then fs.add (Field.ofString true v)
  else if u.splitsValues then fs.split s.separators v.toList
  else fs.add (Field.ofString false v)

def addArguments (s : State) (u : Usage) (quoted : Bool) (fs : Fields) : Fields :=
  if !u.splitsValues then s.addValue u quoted (" ".intercalate s.arguments) fs
  else if quoted then fs.join s.arguments
  else fs.splitAll s.separators s.arguments

/-- The text that octets stand for where they are the output of a command: without line breaks at
the end. -/
def outputText (bs : Octets) : String :=
  let cs := (Text.decodeLossy (bs.filter (· != 0))).toList
  String.ofList (cs.reverse.dropWhile (· == '\n')).reverse

def isSet (s : State) (name : String) (emptyToo : Bool) : Bool :=
  match s.value? name with
  | some v => !(emptyToo && v.isEmpty)
  | none => false

def calculate (s : State) (text : String) : String × State :=
  match (do (← Expression.read text).eval s.value [] : Except SumFault _) with
  | .ok (n, known) =>
    (toString n, known.reverse.foldl (fun s x => s.bind x.1 (toString x.2)) s)
  | .error f => ("", s.failed (f.message text))

def missing (s : State) (name text : String) : State :=
  s.failed (name ++ ": " ++ text)

def demand (s : State) (name : String) : State :=
  if s.options.known && (s.value? name).isNone && name != "@" && name != "*" then
    s.missing name "parameter not set"
  else s

def pieces (run : Command → State → State) :
    Nat → Usage → Word → Fields → State → Fields × State
  | 0, _, _, fs, s => (fs, { s with jump := some (.killed 11) })
  | _ + 1, _, [], fs, s => (fs, s)
  | fuel + 1, u, p :: w, fs, s =>
    let whole (w : Word) (s : State) : Field × State :=
      let (fs, s) := pieces run fuel ⟨false, false⟩ w {} s
      (fs.last.getD [], s)
    let (fs, s) : Fields × State :=
      match p with
      | .text t quoted =>
        if u.splitsTexts && !quoted then (fs.split s.separators t.toList, s)
        else (fs.add (Field.ofString quoted t), s)
      | .output c quoted =>
        let (bs, s') := s.capture (run c)
        let s := { s' with status := s.status, inner := s'.status }
        (s.addValue u quoted (outputText bs) fs, s)
      | .result e quoted =>
        let (text, s) := whole e s
        let (n, s) := s.calculate text.text
        (s.addValue u quoted n fs, s)
      | .value name form quoted =>
        match form with
        | .plain =>
          let s := s.demand name
          if name = "@" ∨ (name = "*" ∧ ¬quoted) then (s.addArguments u quoted fs, s)
          else (s.addValue u quoted (s.value name) fs, s)
        | .size =>
          let s := s.demand name
          (s.addValue u quoted (toString (s.value name).utf8ByteSize) fs, s)
        | .cut front longest pattern =>
          let s := s.demand name
          let (f, s) := whole pattern s
          let cut := if front then cutFront longest f else cutEnd longest f
          (s.addValue u quoted (String.ofList (cut (s.value name).toList)) fs, s)
        | .stand how emptyToo word =>
          let present := s.isSet name emptyToo
          let value :=
            if name = "@" ∨ (name = "*" ∧ ¬quoted) then s.addArguments u quoted fs
            else s.addValue u quoted (s.value name) fs
          let inner : Usage := ⟨u.splitsValues, u.splitsValues && !quoted⟩
          match how, present with
          | .instead, false => (if quoted then fs.add [] else fs, s)
          | .instead, true | .otherwise, false =>
            pieces run fuel inner word (if quoted then fs.add [] else fs) s
          | _, true => (value, s)
          | .assigned, false =>
            let (f, s) := whole word s
            let s := s.bind name f.text
            (s.addValue u quoted f.text fs, s)
          | .complaint, false =>
            let (f, s) := whole word s
            let text := if word.isEmpty then
                "parameter not set" ++ if emptyToo then " or null" else ""
              else f.text
            (fs, s.missing name text)
        | .unknown => (fs, s.failed "Bad substitution")
    if s.jump.isSome then (fs, s) else pieces run fuel u w fs s

/-! ### Words -/

/-- The field that a word stands for where it is not split. -/
def field (run : Command → State → State) (fuel : Nat) (w : Word) (s : State) : Field × State :=
  let (fs, s) := s.pieces run fuel ⟨false, false⟩ w {}
  (fs.last.getD [], s)

/-- The text that a word stands for where it is not split. -/
def text (run : Command → State → State) (fuel : Nat) (w : Word) (s : State) : String × State :=
  let (f, s) := s.field run fuel w
  (f.text, s)

def expand (run : Command → State → State) (fuel : Nat) :
    List Word → State → List String × State
  | [], s => ([], s)
  | w :: ws, s =>
    if s.jump.isSome then ([], s)
    else
      let (fs, s) := s.pieces run fuel ⟨true, false⟩ w {}
      let found := fs.all.flatMap fun f =>
        if s.options.verbatim then [f.text] else f.files s.disk
      let (more, s) := expand run fuel ws s
      (found ++ more, s)

end State
end IconModules.Shell
