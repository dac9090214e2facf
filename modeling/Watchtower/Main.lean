import Watchtower.CommandLine

/-!
# The program

Takes its configuration from the command line and the environment, and ends with an exit code.
-/

namespace Watchtower.CommandLine

/-- A line of the help. -/
def usageLine (s : Setting) : String :=
  let letter := match settingLetter? s with
    | some letter => s!"-{letter}, "
    | none => "    "
  let name := settingName s
  let variableName := settingVariable s
  s!"  {letter}--{name} <VALUE>  [env: {variableName}]"

def usage : String :=
  let others := ["  -v, --v...  [env: VERBOSITY]", "  -h, --help", "  -V, --version"]
  "\n".intercalate ("Options:" :: Setting.all.map usageLine ++ others)

/-- The variables of the environment that are set, of those that a setting is taken from. -/
def readEnvironment : IO (List (String × String)) := do
  let names := verbosityVariable :: Setting.all.map settingVariable
  names.filterMapM fun name => do
    return (← IO.getEnv name).map fun value => (name, value)

/-- What the program says when it ends without having started. -/
def Ending.tell : Ending → IO Unit
  | help => IO.println usage
  | version => IO.println "op-challenger 0.1.0"
  | misused => IO.eprintln usage
  | ending => ending.complaint?.forM IO.eprintln

end Watchtower.CommandLine

open Watchtower CommandLine in
def main (words : List String) : IO UInt32 := do
  let found ← readEnvironment
  match configure words (found.lookup ·) with
  | .error ending =>
    ending.tell
    return ending.exitCode.toUInt32
  | .ok configuration =>
    -- The nodes are outside of what this process can reach.
    let endpoint := configuration.l1Endpoint
    IO.eprintln s!"Error: cannot connect to {endpoint}"
    return 1
