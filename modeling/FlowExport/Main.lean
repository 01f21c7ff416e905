/-
# The command of a node

Loads the configuration that the command line names, builds its node, and runs one export cycle:
with `--stdin-traffic` over the observations on the input, otherwise without traffic.  The
datagrams that the node sends are printed, one a line.  Exit code 2 stands for a command line that
is not followed, 1 for a node that cannot be started.
-/
import FlowExport.CommandLine
import FlowExport.Config.Reading
import FlowExport.Node.Cycle

namespace FlowExport

/-- The content of a file, if it can be read. -/
def readContent (path : String) : IO (Option ByteArray) := do
  try
    return some (← IO.FS.readBinFile path)
  catch _ => return none

/-- The lines of the input, up to its end. -/
partial def inputLines (stream : IO.FS.Stream) (read : List String) : IO (List String) := do
  let line ← stream.getLine
  if line.isEmpty then return read.reverse else inputLines stream (line :: read)

/-- The configuration with the log level of the command line, if there is one. -/
def overridden (options : Options) (config : Config) : Config :=
  { config with
    logging := { config.logging with level := options.logLevel.getD config.logging.level } }

/-- Runs the command that was asked for. -/
def runNode (options : Options) : IO UInt32 := do
  match Config.ofFile (← readContent options.config) with
  | .error e =>
    IO.eprintln ("Error: loading config from " ++ options.config ++ ": " ++ e.message)
    return 1
  | .ok loaded =>
    let config := overridden options loaded
    match Node.start config ({} : Recorder) with
    | .error e =>
      IO.eprintln ("Error: starting node: " ++ e.message)
      return 1
    | .ok node =>
      let lines ← if options.trafficFromInput then inputLines (← IO.getStdin) [] else pure []
      let cycle := Cycle.run node lines 0
      if config.logging.logsWarnings then
        for line in cycle.unread do
          IO.eprintln ("Ignoring malformed traffic line: " ++ line)
      for datagram in cycle.sent do
        IO.println datagram.text
      return 0

end FlowExport

open FlowExport in
/-- The program. -/
def main (arguments : List String) : IO UInt32 := do
  match CommandLine.read arguments with
  | .ok options => runNode options
  | .error refusal =>
    match refusal with
    | .helpWanted | .versionWanted =>
      IO.println refusal.message
      return 0
    | _ =>
      IO.eprintln refusal.message
      return 2
