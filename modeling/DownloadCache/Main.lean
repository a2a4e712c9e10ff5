import DownloadCache.Machine

/-!
# The command line

The program run from a shell.  It works on a machine of its own, whose disk starts with nothing
but a directory for temporary files and is gone when the program ends.  A daemon takes standard
input for what one client sends, writes its responses to standard output, and is interrupted when
the client has sent all; the other tasks find nobody to ask.

All decisions are made by the library; what is done here is to read the arguments, the variables
and the input, and to write what the program leaves behind.
-/

namespace DownloadCache

set_option autoImplicit false

/-- The variables that the program looks at. -/
def consultedVariables : List String :=
  ["HOME", "XDG_CACHE_HOME"] ++ Config.overrides.map (·.name)

/-- The variables of this process, as far as the program looks at them. -/
def processEnvironment : IO Environment := do
  let values ← consultedVariables.filterMapM fun name => do
    return (← IO.getEnv name).map fun text => (name, text)
  return { values }

/-- A machine with a directory for temporary files and nothing else. -/
def bareMachine : Machine where
  files := FileSystem.empty.create ["tmp"] .directory

/-- Writes what a process leaves behind, and gives its code. -/
def leave (exit : Exit) : IO UInt32 := do
  (← IO.getStdout).putStr exit.output
  (← IO.getStderr).putStr exit.errors
  return exit.code.toUInt32

/-- Runs the program on a machine of its own. -/
def runProgram (arguments : List String) : IO UInt32 := do
  let environment ← processEnvironment
  match Job.prepare bareMachine.files environment arguments with
  | .ok (.serve config) =>
      let sent ← (← IO.getStdin).readBinToEnd
      let ((received, exit), _) :=
        bareMachine.runDaemon environment arguments config.socket sent.toList
      (← IO.getStdout).write ⟨received.toArray⟩
      leave exit
  | _ => leave (bareMachine.run environment arguments).1

end DownloadCache

/-- Runs the program with the arguments behind its name. -/
def main (arguments : List String) : IO UInt32 :=
  DownloadCache.runProgram arguments
