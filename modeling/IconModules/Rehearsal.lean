import IconModules.Generation.Action
import IconModules.Shell.Evaluation
/-!
# Rehearsals

A run can be rehearsed without a network and without the programs it uses.

* A **`Rehearsal`** says what each partner answers to its first, second, … request. The last answer
  repeats.
* **`Rehearsal.partners`** are partners that answer accordingly. They count what is in the
  journal, so they have no memory of their own.
-/

namespace IconModules

namespace Rehearsal

/-- The answer to a download. -/
inductive Response where
  | content (bs : Octets)
  | failure (tool text : String)
  deriving DecidableEq, Repr

/-- The answer to a piece of markup. -/
inductive CodeAnswer where
  /-- Always the same text. -/
  | code (text : String)
  /-- The markup between two texts. -/
  | echo (before after : String)
  | failure (tool text : String)
  | program (p : Shell.Script)
  deriving DecidableEq, Repr

/-- The answer to a request to format sources. -/
inductive Formatting where
  | success
  | failure (tool text : String)
  | program (p : Shell.Script)
  deriving DecidableEq, Repr

end Rehearsal

open Rehearsal

/-- What partners answer. -/
structure Rehearsal where
  /-- The answers for each address; `anyUrl` stands for all others. -/
  responses : List (String × List Response)
  /-- For an address, how many requests were made before its answers were set. -/
  requestsBefore : List (String × Nat)
  codeAnswers : List CodeAnswer
  /-- How many pieces of markup were translated before these were set. -/
  codeRequestsBefore : Nat
  formatting : Formatting
  translator : Path
  formatter : Path
  workplace : Path

namespace Rehearsal

/-- The address that stands for all addresses without answers of their own. -/
def anyUrl : String := "*"

/-- From this request on, downloads fail. -/
def requestLimit : Nat := 61

/-- The answer to request number `n`, counted from zero; the last one repeats. -/
def answer? {α : Type} (answers : List α) (n : Nat) : Option α :=
  answers[min n (answers.length - 1)]?

/-! ### Downloads -/

def requests (journal : List Event) : Nat :=
  journal.countP fun
    | .fetched _ => true
    | _ => false

def requestsOf (url : String) (journal : List Event) : Nat :=
  journal.count (.fetched url)

def responsesFor (r : Rehearsal) (url : String) : List Response :=
  match (r.responses.lookup url).getD [] with
  | [] => (r.responses.lookup anyUrl).getD []
  | own => own

def fetch (r : Rehearsal) (journal : List Event) (url : String) : Except Failure Octets :=
  if requestLimit ≤ requests journal + 1 then .error (.tool "fetcher" "call limit")
  else
    let n := requestsOf url journal - (r.requestsBefore.lookup url).getD 0
    match answer? (r.responsesFor url) n with
    | none => .ok []
    | some (.content bs) => .ok bs
    | some (.failure tool text) => .error (.tool tool text)

def respond (r : Rehearsal) (journal : List Event) (url : String) (answers : List Response) :
    Rehearsal :=
  { r with
    responses := (url, answers) :: r.responses
    requestsBefore := (url, requestsOf url journal) :: r.requestsBefore }

/-! ### Code -/

def defaultCode : String :=
  "svg\n    [ viewbox \"0 0 24 24\" ]\n    [ path [ d \"M0 0h24\" ] [] ]\n"

def codeRequests (journal : List Event) : Nat :=
  journal.countP fun
    | .translated _ => true
    | _ => false

/-- Answers a piece of markup. Translators work where the rehearsal begins, on no files. -/
def translate (r : Rehearsal) (journal : List Event) (markup : String) : Except Failure String :=
  match answer? r.codeAnswers (codeRequests journal - r.codeRequestsBefore) with
  | none => .ok defaultCode
  | some (.code text) => .ok text
  | some (.echo before after) => .ok (before ++ markup ++ after)
  | some (.failure tool text) => .error (.tool tool text)
  | some (.program p) =>
    let d : Disk := ⟨.single .folder, []⟩
    Tools.writtenCode r.translator.text (p.run r.translator.text [markup] ⟨"/"⟩ d).1

def withCode (r : Rehearsal) (journal : List Event) (answers : List CodeAnswer) :
    Rehearsal :=
  { r with codeAnswers := answers, codeRequestsBefore := codeRequests journal }

/-! ### Formatting -/

def formatWith (p : Shell.Script) (program workplace folder : Path) (d : Disk) :
    Except Failure Unit × Disk :=
  let (r, d) := p.run program.text [folder.text, "--yes"] workplace d
  (Tools.formatting program.text r, d)

def format (r : Rehearsal) (folder : Path) (d : Disk) : Except Failure Unit × Disk :=
  match r.formatting with
  | .success => (.ok (), d)
  | .failure tool text => (.error (.tool tool text), d)
  | .program p => formatWith p r.formatter r.workplace folder d

/-- Partners that answer as the rehearsal says. They answer no more downloads than `requestLimit`,
so nobody has to wait longer. -/
def partners (r : Rehearsal) : Partners where
  fetch := r.fetch
  translate := r.translate
  format _ := r.format
  patience := requestLimit

end Rehearsal
end IconModules
