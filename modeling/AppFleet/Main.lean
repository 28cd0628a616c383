import AppFleet.CommandLine
import AppFleet.Config.Check
import AppFleet.Config.Text
import AppFleet.Simulation.Served

/-!
The program. `config` prints the settings in effect. `run` runs a control plane whose only peer speaks
frames over standard input and output; seconds are counted from its start.
-/

namespace AppFleet.Program

def load (path : Option String) : IO Config := do
  match path with
  | none => return .default
  | some path =>
    match Config.parse? (← IO.FS.readFile path) with
    | some config => return config
    | none => throw (IO.userError s!"{path} holds no settings")

def check (config : Config) : IO Unit :=
  match config.validate with
  | .ok () => return
  | .error e => throw (IO.userError e.message)

/-- Hands lines to the peer, and prints what it is sent in turn. -/
partial def serve (fleet : ServedFleet) (seen : Nat) : IO Unit := do
  let out ← IO.getStdout
  let fleet := fleet.settle
  let frames := fleet.sentSince 0 seen
  for frame in frames do
    out.putStr (String.ofList frame.line)
  out.flush
  let line ← (← IO.getStdin).getLine
  if line.isEmpty then return
  serve (fleet.step (.receive 0 line.toUTF8.toList)) (seen + frames.length)

def run : Invocation → IO Unit
  | .config path => do
    let config ← load path
    check config
    match config.render? with
    | some text => IO.print text
    | none => throw (IO.userError "the settings cannot be written")
  | .run path overrides => do
    let config := overrides.apply (← load path)
    check config
    serve ((ServedFleet.serve (.startPlane config 0 0)).step .connect) 0

end AppFleet.Program

def main (arguments : List String) : IO UInt32 := do
  match AppFleet.Invocation.parse arguments with
  | .error e =>
    IO.eprintln s!"error: {e.message}"
    return 2
  | .ok invocation =>
    try
      AppFleet.Program.run invocation
      return 0
    catch e =>
      IO.eprintln s!"Error: {e}"
      return 1
