import TunnelKeeper.Daemon.Startup

/-!
# Main — the daemon on the standard streams

The command line is read, the settings and the state of the last run come from their files, and one
client is served on the standard streams: requests come in line by line, replies and events go out.
The service is rehearsed: its collaborators do as a script says in which everything works.  The
state is written back when the input ends.
-/

namespace TunnelKeeper.Daemon

open Files (Directory Path)

/-- The directory with one more file of the real one, if it can be read. -/
def withFile (dir : Directory) (name : String) : IO Directory := do
  try
    let content ← IO.FS.readBinFile name
    return (dir.addFolders (Path.ofText name).parent).addFile (Path.ofText name) content.toList
  catch _ => return dir

/-- The files that a command line needs. -/
def gather (words : List String) : IO Directory := do
  match Arguments.read words with
  | .error _ => return .empty
  | .ok a =>
    let dir ← a.config.elim (pure Directory.empty) (withFile .empty)
    match Startup.settings? a dir with
    | some settings => withFile dir settings.statePath
    | none => return dir

/-- Writes the messages that were not yet written. -/
def write (server : Control.Server) (written : Nat) : IO Nat := do
  let output ← IO.getStdout
  let messages := server.connections.flatMap (·.output)
  for m in messages.drop written do
    output.putStr (String.ofList m.line)
  output.flush
  return messages.length

/-- Serves lines until the input ends. -/
partial def serveInput (server : Control.Server) (written : Nat) : IO Control.Server := do
  let line ← (← IO.getStdin).getLine
  let server := (server.receive 0 (Utf8.ofText line) line.isEmpty).announce
  let written ← write server written
  if line.isEmpty then return server else serveInput server written

/-- Writes the state back to its file. -/
def writeState (s : Startup) (server : Control.Server) (dir : Directory) : IO Unit := do
  let name := s.settings.statePath
  match (s.shutDown server dir).read (Path.ofText name) with
  | .ok content => IO.FS.writeBinFile name ⟨content.toArray⟩
  | .error _ => return ()

/-- Runs the daemon; the result tells how it ended. -/
def run (words : List String) : IO UInt32 := do
  let dir ← gather words
  match Startup.prepare words dir fun _ => true with
  | .error ending => return ending.exitCode.toUInt32
  | .ok s =>
    let (server, goesOn) := s.autostartOn (s.server {})
    let server ← if goesOn then serveInput server.accept 0 else pure server
    writeState s server dir
    return Ending.orderly.exitCode.toUInt32

end TunnelKeeper.Daemon

def main (words : List String) : IO UInt32 := TunnelKeeper.Daemon.run words
