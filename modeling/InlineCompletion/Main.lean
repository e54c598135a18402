import InlineCompletion.Cli.Program
import InlineCompletion.Client.Wire
import InlineCompletion.Log.Entry
import Std.Async.DNS
import Std.Async.TCP
import Std.Time

/-!
The command line. All that happens here is reading and writing: what the program does is decided by
its pure description.
-/

namespace InlineCompletion.Shell

/-- The variables of the environment. -/
def readEnvironment : IO (List (Text × Text)) := do
  let bytes ← try IO.FS.readBinFile "/proc/self/environ" catch _ => pure .empty
  let text := match Utf8.decode bytes.toList with
    | .ok text => text
    | .error _ => []
  return (Text.splitOn (Char.ofNat 0) text).filterMap fun entry =>
    let name := entry.takeWhile (· ≠ '=')
    if name.isEmpty then none else some (name, entry.drop (name.length + 1))

/-- Puts a file of the real disk onto the given one, if it can be read. -/
def loadFile (disk : Disk) (path : Path) : IO Disk := do
  try
    let bytes ← IO.FS.readBinFile (String.ofList path.toText)
    return disk.addFile path bytes.toList
  catch _ => return disk

/-- The files that the program may read: the one named by its arguments and the one of variables. -/
def loadDisk (arguments : List Text) : IO Disk := do
  let disk ← loadFile {} Cli.envFileName
  match Cli.readInvocation arguments with
  | .ok ⟨_, some (.complete target _ _)⟩ | .ok ⟨_, some (.prompt target)⟩ =>
    loadFile disk target.file
  | _ => return disk

/-- Writes what was added to files at their ends. -/
def saveDisk (before after : Disk) : IO Unit := do
  for (path, bytes) in after.files do
    let known := (before.files.lookup path).getD []
    let added := bytes.drop known.length
    if (before.files.lookup path).isNone || !added.isEmpty then
      unless path.parent.components.isEmpty do
        IO.FS.createDirAll (String.ofList path.parent.toText)
      let handle ← IO.FS.Handle.mk (String.ofList path.toText) .append
      handle.write ⟨added.toArray⟩

open Std.Async in
/-- All that the server sends until it closes the connection. -/
partial def receive (socket : TCP.Socket.Client) (received : ByteArray) : Async ByteArray := do
  match ← socket.recv? 65536 with
  | none => return received
  | some bytes => receive socket (received ++ bytes)

open Std.Async in
/-- Sends bytes to an endpoint and returns the answer. -/
def exchangeBytes (endpoint : Wire.Endpoint) (bytes : List UInt8) : IO ByteArray := do
  let host := String.ofList endpoint.host
  let service := UInt16.ofNat endpoint.service
  let addresses ← (DNS.getAddrInfo host (toString endpoint.service)).block
  let mut problem := IO.userError "The server has no address"
  for address in addresses do
    let target : Std.Net.SocketAddress :=
      match address with
      | .v4 a => .v4 ⟨a, service⟩
      | .v6 a => .v6 ⟨a, service⟩
    try
      let socket ← TCP.Socket.Client.mk
      (socket.connect target).block
      (socket.send ⟨bytes.toArray⟩).block
      return ← (receive socket .empty).block
    catch e => problem := e
  throw problem

/-- The server as it answers an exchange. -/
def askServer (host : Text) (exchange : Wire.Exchange) : IO Backend := do
  match Wire.Endpoint.ofAddress host with
  | none => return { failure := some ⟨.connection, "Failed to connect to " ++ host⟩ }
  | some endpoint =>
    try
      let answer ← exchangeBytes endpoint (Wire.requestBytes endpoint exchange)
      return Wire.backendOf exchange (.ok answer.toList)
    catch _ => return { failure := some ⟨.connection, "Failed to connect to " ++ host⟩ }

/-- The host that a client was made for. -/
def hostOf (request : Data) : Option Text :=
  match (request.field? "client").bind (·.field? "host") with
  | some (.text host) => some host
  | _ => none

/-- Runs the program. What it asks of the server does not depend on the answer, so a first run finds
the question and a second one knows the answer. -/
def runProgram (world : Cli.World) : IO Cli.Report := do
  let trial := world.run
  match trial.trace.findSome? hostOf, trial.trace.findSome? Wire.exchangeOf with
  | some host, some exchange =>
    let backend ← askServer host exchange
    return { world with backend }.run
  | _, _ => return trial

/-- Runs the program with the arguments and returns its exit code. -/
def start (args : List String) : IO UInt32 := do
  let arguments := args.map String.toList
  let home := (← IO.getEnv "HOME").getD ""
  let now ← Std.Time.Timestamp.now
  let microseconds := (now.toNanosecondsSinceUnixEpoch.val / 1000).toNat
  let world : Cli.World :=
    { arguments
      environment := ← readEnvironment
      home := Path.ofText home
      disk := ← loadDisk arguments
      time := Log.timeText microseconds }
  let report ← runProgram world
  (← IO.getStdout).putStr (String.ofList report.output)
  (← IO.getStderr).putStr (String.ofList report.console)
  saveDisk world.disk report.disk
  return UInt32.ofNat report.exitCode

end InlineCompletion.Shell

def main (args : List String) : IO UInt32 :=
  InlineCompletion.Shell.start args
