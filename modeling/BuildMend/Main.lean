import BuildMend.CommandLine.Run
import BuildMend.World.Reader

/-!
The program: it takes its arguments from the command line and the world it works in from the first
line of its input, prints what the call prints and exits as the call does.
-/

open BuildMend

/-- The name under which the program is called. -/
def programName : String := "sdk-codegen"

/-- The world on a line of input, below the directory that it names, in which the program is called; an
empty line is a world without files. -/
def readWorld (line : String) : Except Json.Fault World := do
  let v ← if line.isEmpty then .ok (Json.object []) else Json.readChars line.toList
  let top := Path.resolve (Path.ofText ((v.stringAt? "root").getD "/library"))
  return World.ofJson top top v

/-- The call of the program. -/
def main (arguments : List String) : IO UInt32 := do
  let line ← (← IO.getStdin).getLine
  match readWorld line with
  | .error f =>
    IO.eprintln s!"Error: {f.message}"
    return 2
  | .ok w =>
    let (outcome, _) := CommandLine.run programName arguments w
    for l in outcome.output do IO.println l
    for l in outcome.errors do IO.eprintln l
    match outcome.exit with
    | .code n => return UInt32.ofNat n
    | .failure f =>
      IO.eprintln f.message
      return 1
