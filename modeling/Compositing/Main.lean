/-
Compositing.Main — the program behind the command line.

Reads the files that the arguments name, runs the command line on them,
and prints what comes of it.
-/
import Compositing.CommandLine

namespace Compositing.CommandLine

/-- What is found under a path. -/
def readFile (path : String) : IO File := do
  let opened ← (IO.FS.Handle.mk path .read).toBaseIO
  match opened with
  | .error _ => return .absent
  | .ok handle =>
    match ← handle.readBinToEnd.toBaseIO with
    | .error _ => return .noText
    | .ok bytes =>
      match String.fromUTF8? bytes with
      | some content => return .text content
      | none => return .noText

/-- Print an outcome. -/
def Outcome.print : Outcome → IO Unit
  | .printed out err => do
    IO.print out
    IO.eprint err
  | .failed reason => IO.eprintln ("Error: " ++ reason)
  | .misused => IO.eprint helpText

/-- Run the command line on the files there are. -/
def execute (args : List String) : IO Outcome := do
  let paths := ((request? args).map Request.paths).getD []
  let found ← paths.mapM fun path => do
    let file ← readFile path
    return (path, file)
  let files (path : String) : File :=
    ((found.find? fun entry => entry.1 = path).map (·.2)).getD .absent
  return run files args

end Compositing.CommandLine

/-- Run the command line. -/
def main (args : List String) : IO UInt32 := do
  let outcome ← Compositing.CommandLine.execute args
  outcome.print
  return outcome.exitCode.toUInt32
