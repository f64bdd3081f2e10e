import IconModules.Shell.Source
/-!
# Reading shell scripts

Words may hold commands and commands hold words, so both are read by functions that call each other.
Their first argument bounds the depth of the calls; the length of a script bounds it amply.

* **`readPieces`** reads a word, or the inside of quotes, braces and calculations.
* **`nextToken`** cuts off the next word or sign.
* **`readList`**, **`readChain`**, **`readPipeline`** and **`readCommand`** read commands.
* A **`Listing`** is a script line by line. What is wrong with a line is noticed when the lines
  before it have run.
-/

namespace IconModules.Shell

/-! ### Places -/

/-- Where a piece of a word stands. -/
inductive Place where
  | outside
  | quotes
  | braces (quoted : Bool)
  | sum (depth : Nat)
  | document
  deriving DecidableEq, Repr

namespace Place

def quoted : Place → Bool
  | outside => false
  | braces q => q
  | _ => true

def endsWord (c : Char) : Bool :=
  " \t\n;&|<>()".toList.contains c

def signs : Place → List Char
  | outside => ['\\', '\x27', '"', '$', '\x60']
  | quotes => ['\\', '"', '$', '\x60']
  | braces true => ['\\', '"', '$', '\x60', '\x7d']
  | braces false => ['\\', '\x27', '"', '$', '\x60', '\x7d']
  | sum _ => ['\\', '$', '\x60', '(', ')']
  | document => ['\\', '$', '\x60']

def isOrdinary (p : Place) (c : Char) : Bool :=
  !p.signs.contains c && !(p == outside && endsWord c)

def escapes (p : Place) (c : Char) : Bool :=
  match p with
  | outside | braces false => true
  | quotes => ['$', '"', '\\', '\x60'].contains c
  | braces true => ['$', '"', '\\', '\x60', '\x7d'].contains c
  | sum _ | document => ['$', '\\', '\x60'].contains c

end Place

/-! ### Parameters -/

def isParameterSign (c : Char) : Bool :=
  "@*#?$!-".toList.contains c

/-- Takes the name of a parameter, if one comes. Only in braces may a number have several digits. -/
def takeName (inBraces : Bool) : Read (Option String) := do
  match (← get).rest with
  | c :: _ =>
    if isNameStart c then return some (← Read.takeRun isNameChar)
    else if c.isDigit && inBraces then return some (← Read.takeRun Char.isDigit)
    else if c.isDigit || isParameterSign c then
      Read.skip 1
      return some (String.singleton c)
    else return none
  | [] => return none

def stands : List (String × Stand) :=
  [("-", .otherwise), ("=", .assigned), ("?", .complaint), ("+", .instead)]

/-- The signs of what is cut off from a parameter: at the front or not, the longest piece or not. -/
def cuts : List (String × Bool × Bool) :=
  [("##", true, true), ("#", true, false), ("%%", false, true), ("%", false, false)]

def takeSign {α : Type} : List (String × α) → Read (Option α)
  | [] => return none
  | (s, x) :: rest => do
    if ← Read.takeText s then return some x else takeSign rest

/-- Whether the inside of braces asks for the size of a parameter. If not, a number sign at its
start is a parameter itself. -/
def asksForSize : List Char → Bool
  | '#' :: c :: rest => isNameChar c || (c != '\x7d' && rest.head? == some '\x7d')
  | _ => false

def takeBackquoted (quoted : Bool) : Nat → Read (List Char)
  | 0 => Read.complain "EOF in backquote substitution"
  | fuel + 1 => do
    match (← get).rest with
    | [] => Read.complain "EOF in backquote substitution"
    | '\x60' :: _ =>
      Read.skip 1
      return []
    | '\\' :: c :: _ =>
      Read.skip 2
      let more ← takeBackquoted quoted fuel
      return if c ∈ ['$', '\\', '\x60'] ∨ (quoted ∧ c = '"') then c :: more else '\\' :: c :: more
    | c :: _ =>
      Read.skip 1
      return c :: (← takeBackquoted quoted fuel)

/-! ### Parts of commands -/

def commandSigns : List String :=
  [";;", ";", "&&", "&", "||", "|", "(", ")"]

def arrowSigns : List String :=
  ["<<-", "<<", "<&", "<>", "<", ">>", ">&", ">|", ">"]

def assignment? : Word → Option (String × Word)
  | .text s false :: w =>
    let name := s.toList.takeWhile (· != '=')
    match s.toList.drop name.length with
    | _ :: value =>
      if isName (String.ofList name) then
        some (String.ofList name,
          if value.isEmpty then w else .text (String.ofList value) false :: w)
      else none
    | [] => none
  | _ => none

def Command.andThen (a b : Command) : Command :=
  match b with
  | .nothing => a
  | b => .sequence a b

def Command.connected (a : Command) (rs : List Redirection) : Command :=
  if rs.isEmpty then a else .redirected a rs

/-! ### Words and commands -/

mutual

def readPieces : Nat → Place → Read Word
  | 0, _ => Read.complain "too long"
  | fuel + 1, p => do
    let run ← Read.takeRun p.isOrdinary
    if !run.isEmpty then return .text run p.quoted :: (← readPieces fuel p)
    match (← get).rest with
    | [] =>
      match p with
      | .outside | .document => return []
      | .quotes | .braces true => Read.complain "Unterminated quoted string"
      | .braces false => Read.complain "Missing '\x7d'"
      | .sum _ => Read.complain "Missing '))'"
    | '\\' :: '\n' :: _ =>
      Read.skip 2
      readPieces fuel p
    | '\\' :: c :: _ =>
      if p.escapes c then
        Read.skip 2
        return .text (String.singleton c) true :: (← readPieces fuel p)
      else
        Read.skip 1
        return .text "\\" p.quoted :: (← readPieces fuel p)
    | '\x27' :: _ =>
      Read.skip 1
      let inside ← Read.takeRun (· != '\x27')
      if ← Read.takeText "\x27" then return .text inside true :: (← readPieces fuel p)
      else Read.complain "Unterminated quoted string"
    | '"' :: _ =>
      Read.skip 1
      if p = .quotes then return []
      let inside ← readPieces fuel .quotes
      let inside := if inside.isEmpty then [.text "" true] else inside
      return inside ++ (← readPieces fuel p)
    | '$' :: _ =>
      Read.skip 1
      let piece ← readParameter fuel p.quoted
      return piece :: (← readPieces fuel p)
    | '\x60' :: _ =>
      Read.skip 1
      let inside ← takeBackquoted p.quoted ((← get).rest.length + 1)
      let c ← Read.within (String.ofList inside) (readWhole fuel)
      return .output c p.quoted :: (← readPieces fuel p)
    | c :: _ =>
      match p with
      | .outside | .quotes | .document => return []
      | .braces _ =>
        Read.skip 1
        return []
      | .sum depth =>
        if c = '(' then
          Read.skip 1
          return .text "(" true :: (← readPieces fuel (.sum (depth + 1)))
        else if depth = 0 && (← Read.takeText "))") then return []
        else
          Read.skip 1
          return .text ")" true :: (← readPieces fuel (.sum (depth - 1)))

/-- Reads what follows a dollar sign; if it is no parameter, the sign stands for itself. -/
def readParameter : Nat → Bool → Read Piece
  | 0, _ => Read.complain "too long"
  | fuel + 1, quoted => do
    if ← Read.takeText "((" then return .result (← readPieces fuel (.sum 0)) quoted
    else if ← Read.takeText "(" then
      let c ← readList fuel false true
      expect fuel ")"
      return .output c quoted
    else if ← Read.takeText "\x7b" then readBraces fuel quoted
    else
      match ← takeName false with
      | some name => return .value name .plain quoted
      | none => return .text "$" quoted

def readBraces : Nat → Bool → Read Piece
  | 0, _ => Read.complain "too long"
  | fuel + 1, quoted => do
    let unknown : Read Piece := do
      let _ ← readPieces fuel (.braces quoted)
      return .value "" .unknown quoted
    let sized := asksForSize (← get).rest
    if sized then Read.skip 1
    match ← takeName true with
    | none =>
      if (← get).rest.head? ≠ some '\x7d' then Read.passOver
      unknown
    | some name =>
      if ← Read.takeText "\x7d" then
        return .value name (if sized then .size else .plain) quoted
      else if sized then unknown
      else
        let colon ← Read.takeText ":"
        match ← takeSign stands with
        | some s => return .value name (.stand s colon (← readPieces fuel (.braces quoted))) quoted
        | none =>
          match ← if colon then pure none else takeSign cuts with
          | some (front, longest) =>
            return .value name (.cut front longest (← readPieces fuel (.braces false))) quoted
          | none =>
            Read.passOver
            unknown

def nextToken : Nat → Read Token
  | 0 => Read.complain "too long"
  | fuel + 1 => do
    let s ← get
    match s.held with
    | some t =>
      set { s with held := none }
      return t
    | none =>
      Read.skipBlanks (s.rest.length + 1)
      let rest := (← get).rest
      let comes (cs : List Char) (sign : String) : Bool := sign.toList.isPrefixOf cs
      match rest with
      | [] => return .scriptEnd
      | '\n' :: _ =>
        Read.endLine
        return .lineEnd
      | c :: cs =>
        match commandSigns.find? (comes rest), arrowSigns.find? (comes rest),
            arrowSigns.find? (comes cs) with
        | some sign, _, _ =>
          Read.skip sign.length
          return .sign sign
        | _, some sign, _ =>
          Read.skip sign.length
          return .arrow none sign
        | _, _, some sign =>
          if c.isDigit then
            Read.skip (sign.length + 1)
            return .arrow (some (c.toNat - 48)) sign
          else return .word (← readPieces fuel .outside)
        | _, _, none => return .word (← readPieces fuel .outside)

def peekToken : Nat → Read Token
  | 0 => Read.complain "too long"
  | fuel + 1 => do
    let t ← nextToken fuel
    modify fun s => { s with held := some t }
    return t

def skipLines : Nat → Read Unit
  | 0 => return
  | fuel + 1 => do
    match ← peekToken fuel with
    | .lineEnd =>
      let _ ← nextToken fuel
      skipLines fuel
    | _ => return

def expect : Nat → String → Read Unit
  | 0, _ => Read.complain "too long"
  | fuel + 1, s => do
    let t ← nextToken fuel
    if t.keyword?.or t.sign? = some s then return
    else Read.unexpected t (some (Token.inQuotes s))

/-- Reads commands. A list of the `top` level ends with its line, any other one with a sign or word
that closes it; `mayEnd` says whether that may come at once. -/
def readList : Nat → Bool → Bool → Read Command
  | 0, _, _ => Read.complain "too long"
  | fuel + 1, top, mayEnd => do
    match ← peekToken fuel with
    | .lineEnd =>
      let _ ← nextToken fuel
      if top then return .nothing else readList fuel top mayEnd
    | .scriptEnd => return .nothing
    | t =>
      if !top && mayEnd && t.closes then return .nothing
      let a ← readChain fuel
      match ← peekToken fuel with
      | .sign ";" =>
        let _ ← nextToken fuel
        return a.andThen (← readList fuel top true)
      | .sign "&" =>
        let _ ← nextToken fuel
        return Command.andThen (.background a) (← readList fuel top true)
      | .lineEnd | .scriptEnd => return a.andThen (← readList fuel top true)
      | t => if top then Read.unexpected t none else return a

def readWhole : Nat → Read Command
  | 0 => Read.complain "too long"
  | fuel + 1 => do
    let c ← readList fuel false true
    match ← nextToken fuel with
    | .scriptEnd => return c
    | t => Read.unexpected t none

def readChain : Nat → Read Command
  | 0 => Read.complain "too long"
  | fuel + 1 => do readLinks fuel (← readPipeline fuel)

def readLinks : Nat → Command → Read Command
  | 0, _ => Read.complain "too long"
  | fuel + 1, a => do
    match (← peekToken fuel).sign? with
    | some "&&" =>
      let _ ← nextToken fuel
      skipLines fuel
      readLinks fuel (.both a (← readPipeline fuel))
    | some "||" =>
      let _ ← nextToken fuel
      skipLines fuel
      readLinks fuel (.either a (← readPipeline fuel))
    | _ => return a

def readPipeline : Nat → Read Command
  | 0 => Read.complain "too long"
  | fuel + 1 => do
    let negated := (← peekToken fuel).keyword? = some "!"
    if negated then
      let _ ← nextToken fuel
    let a ← readCommand fuel
    let more ← readPipes fuel
    let c := if more.isEmpty then a else .pipeline (a :: more)
    return if negated then .negation c else c

def readPipes : Nat → Read (List Command)
  | 0 => Read.complain "too long"
  | fuel + 1 => do
    match (← peekToken fuel).sign? with
    | some "|" =>
      let _ ← nextToken fuel
      skipLines fuel
      let a ← readCommand fuel
      return a :: (← readPipes fuel)
    | _ => return []

def readCommand : Nat → Read Command
  | 0 => Read.complain "too long"
  | fuel + 1 => do
    let t ← nextToken fuel
    let closed (s : String) (c : Command) : Read Command := do
      expect fuel s
      return c.connected (← readRedirections fuel)
    match t.keyword?.or t.sign? with
    | some "if" =>
      let c ← readBranches fuel
      return c.connected (← readRedirections fuel)
    | some "while" =>
      let (test, body) ← readLoop fuel
      closed "done" (.loop true test body)
    | some "until" =>
      let (test, body) ← readLoop fuel
      closed "done" (.loop false test body)
    | some "for" => do
      let c ← readFor fuel
      closed "done" c
    | some "case" =>
      match ← nextToken fuel with
      | .word w =>
        skipLines fuel
        expect fuel "in"
        let c := Command.selection w (← readCases fuel)
        return c.connected (← readRedirections fuel)
      | t => Read.unexpected t (some "word")
    | some "(" =>
      let c ← readList fuel false false
      closed ")" (.subshell c)
    | some "\x7b" =>
      let c ← readList fuel false false
      closed "\x7d" c
    | some _ => Read.unexpected t none
    | none =>
      match t with
      | .word _ | .arrow .. =>
        modify fun s => { s with held := some t }
        readSimple fuel (← get).line [] [] []
      | t => Read.unexpected t none

def readLoop : Nat → Read (Command × Command)
  | 0 => Read.complain "too long"
  | fuel + 1 => do
    let test ← readList fuel false false
    expect fuel "do"
    return (test, ← readList fuel false false)

def readBranches : Nat → Read Command
  | 0 => Read.complain "too long"
  | fuel + 1 => do
    let test ← readList fuel false false
    expect fuel "then"
    let yes ← readList fuel false false
    match (← peekToken fuel).keyword? with
    | some "elif" =>
      let _ ← nextToken fuel
      return .choice test yes (← readBranches fuel)
    | some "else" =>
      let _ ← nextToken fuel
      let no ← readList fuel false false
      expect fuel "fi"
      return .choice test yes no
    | _ =>
      expect fuel "fi"
      return .choice test yes .nothing

def readFor : Nat → Read Command
  | 0 => Read.complain "too long"
  | fuel + 1 => do
    let name ← match ← nextToken fuel with
      | .word w =>
        match (plain? w).filter isName with
        | some name => pure name
        | none => Read.complain "Bad for loop variable"
      | _ => Read.complain "Bad for loop variable"
    skipLines fuel
    let t ← peekToken fuel
    let words ←
      if t.keyword? = some "in" then do
        let _ ← nextToken fuel
        pure (some (← readWords fuel))
      else do
        if t.sign? = some ";" then
          let _ ← nextToken fuel
        pure none
    skipLines fuel
    expect fuel "do"
    return .forEach name words (← readList fuel false false)

def readWords : Nat → Read (List Word)
  | 0 => Read.complain "too long"
  | fuel + 1 => do
    match ← nextToken fuel with
    | .word w => return w :: (← readWords fuel)
    | .lineEnd => return []
    | .sign ";" => return []
    | t => Read.unexpected t none

def readCases : Nat → Read (List (List Word × Command))
  | 0 => Read.complain "too long"
  | fuel + 1 => do
    skipLines fuel
    let t ← nextToken fuel
    if t.keyword? = some "esac" then return []
    let patterns ← if t.sign? = some "(" then do readPatterns fuel (← nextToken fuel)
      else readPatterns fuel t
    let body ← readList fuel false true
    skipLines fuel
    let t ← nextToken fuel
    if t.keyword? = some "esac" then return [(patterns, body)]
    else if t.sign? = some ";;" then return (patterns, body) :: (← readCases fuel)
    else Read.unexpected t (some (Token.inQuotes ";;"))

/-- Reads the patterns of a case, of which the first one is taken, and the bracket behind them. -/
def readPatterns : Nat → Token → Read (List Word)
  | 0, _ => Read.complain "too long"
  | fuel + 1, t => do
    match t with
    | .word w =>
      let t ← nextToken fuel
      if t.sign? = some ")" then return [w]
      else if t.sign? = some "|" then return w :: (← readPatterns fuel (← nextToken fuel))
      else Read.unexpected t (some (Token.inQuotes ")"))
    | _ => Read.unexpected (← nextToken fuel) (some (Token.inQuotes ")"))

/-- Reads the parts of a simple command, or a function. What was read is given last part first. -/
def readSimple : Nat → Nat → List (String × Word) → List Word → List Redirection → Read Command
  | 0, _, _, _, _ => Read.complain "too long"
  | fuel + 1, line, assignments, words, redirections => do
    match ← peekToken fuel, assignments, words, redirections with
    | .word w, _, _, _ =>
      let _ ← nextToken fuel
      match assignment? w, words with
      | some a, [] => readSimple fuel line (a :: assignments) [] redirections
      | _, _ => readSimple fuel line assignments (w :: words) redirections
    | .arrow channel sign, _, _, _ =>
      let _ ← nextToken fuel
      let r ← readRedirection fuel channel sign
      readSimple fuel line assignments words (r :: redirections)
    | .sign "(", [], [w], [] =>
      let _ ← nextToken fuel
      expect fuel ")"
      match (plain? w).filter isName with
      | none => Read.complain "Bad function name"
      | some name =>
        skipLines fuel
        return .function name (← readCommand fuel)
    | _, _, _, _ =>
      return .simple line assignments.reverse words.reverse redirections.reverse

def readRedirections : Nat → Read (List Redirection)
  | 0 => Read.complain "too long"
  | fuel + 1 => do
    match ← peekToken fuel with
    | .arrow channel sign =>
      let _ ← nextToken fuel
      let r ← readRedirection fuel channel sign
      return r :: (← readRedirections fuel)
    | _ => return []

def readRedirection : Nat → Option Nat → String → Read Redirection
  | 0, _, _ => Read.complain "too long"
  | fuel + 1, channel, sign => do
    match ← nextToken fuel with
    | .word w =>
      let number := channel.getD (if sign.toList.head? = some '<' then 0 else 1)
      if sign = "<" ∨ sign = "<>" then return (number, .read w)
      else if sign = "<&" ∨ sign = ">&" then return (number, .channel w)
      else if sign = "<<" ∨ sign = "<<-" then
        let text ← Read.takeDocument (literal w) (sign = "<<-")
        if anyQuoted w then return (number, .document [.text text true])
        else return (number, .document (← Read.within text (readPieces fuel .document)))
      else return (number, .write w (sign = ">>"))
    | t => Read.unexpected t none

end

/-! ### Scripts -/

/-- The commands of a script, one line after the other, and what is wrong behind them. -/
structure Listing where
  commands : List Command
  fault : Option SyntaxError

namespace Listing

def ofSource : Nat → Source → Listing
  | 0, _ => ⟨[], none⟩
  | fuel + 1, s =>
    match (readList (10 * s.rest.length + 100) true false).run s with
    | .error e => ⟨[], some e⟩
    | .ok (c, s) =>
      let rest := match s.held with
        | some .scriptEnd => ⟨[], none⟩
        | _ => ofSource fuel s
      match c with
      | .nothing => rest
      | c => ⟨c :: rest.commands, rest.fault⟩

/-- Reads a text whose first line has a number. Empty lines are left out. -/
def ofText (line : Nat) (text : String) : Listing :=
  ofSource (text.length + 1) ⟨text.toList, line, none, 0⟩

end Listing
end IconModules.Shell
