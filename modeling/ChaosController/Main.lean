/-
  ChaosController.Main

  The program: reads its options and prints the definition of experiments, the version or a
  usage message. Running the controller needs a cluster.
-/

import ChaosController.CommandLine
import ChaosController.Logging
import ChaosController.Manifest

namespace ChaosController.Program

/-- The usage message. -/
def usage : String :=
  "Usage: kubechaos [--crd] [--log-json] [controller]\n\nFor more information, try '--help'."

/-- Reads the environment variables that stand beside arguments. -/
def readEnvironment : IO CommandLine.Environment := do
  let names := (CommandLine.Level.root.known ++ CommandLine.Level.controller.known).map
    fun known => CommandLine.variableName known.name
  let found ← names.mapM fun name => do
    return (← IO.getEnv name).map fun value => (name, value)
  return found.filterMap id

/-- Tells why the program does not start. -/
def report (stop : CommandLine.Stop) : IO Unit := do
  let text := stop.message?.getD (usage ++ "\n")
  if stop.exitCode = 0 then IO.print text else IO.eprint text

end ChaosController.Program

open ChaosController

/-- Runs the program. -/
def main (args : List String) : IO UInt32 := do
  match CommandLine.read args (← Program.readEnvironment) with
  | .error stop =>
    Program.report stop
    return stop.exitCode.toUInt32
  | .ok options =>
    if options.crd then
      IO.println Manifest.yaml
      return 0
    else
      match installLog none (if options.logJson then .json else .text) with
      | .error e => IO.eprintln e.message
      | .ok _ => IO.eprintln "Failed to create Kubernetes client: no cluster is reachable"
      return 1
