import IconModules.CommandLine.Launch
/-!
# The command line program

It works on files that it keeps in memory and has no network, so it explains itself, checks its
arguments and shows how a run begins.
-/

namespace IconModules

/-- Writes what happened and the notes of a run, and gives the code that the caller gets. -/
def tell (verbose : Bool) (ending : CommandLine.Ending) (journal : List Event) (elapsed : Nat) :
    IO UInt32 := do
  for e in journal do
    match e with
    | .noted n => if verbose || n.level != .debug then IO.println n.line
    | _ => pure ()
  match ending with
  | .explained text => IO.print text
  | .finished r => IO.print (CommandLine.report r elapsed)
  | _ => pure ()
  if let some text := ending.complaint? then IO.eprintln text
  if let some text := ending.cause? then IO.eprintln ("\nCaused by:\n    " ++ text)
  return ending.code

end IconModules

open IconModules in
/-- Starts the program in an empty folder. -/
def main (arguments : List String) : IO UInt32 := do
  let start ← IO.monoMsNow
  let site : Site := ⟨⟨.single .folder, []⟩, []⟩
  let ask (d : Disk) := (.error (.system .noSuchFile), d)
  let (ending, site) := CommandLine.launch ask (fun _ => CommandLine.offline) arguments site
  let verbose := arguments.any fun a => a == "-v" || a == "--verbose"
  tell verbose ending site.journal ((← IO.monoMsNow) - start)
