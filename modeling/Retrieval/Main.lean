/-
# Retrieval.Main -- the program

The files that an invocation names are read into a disk, the program is run as a
function, its posts are sent, and the files that it changed are written back.
-/
import Retrieval.CommandLine.Replay
import Retrieval.CommandLine.Run
import Retrieval.Ollama.Exchange
import Std.Async.DNS
import Std.Async.TCP

namespace Retrieval

set_option autoImplicit false

namespace CommandLine

open Std.Async (Async)

/-! ## Files -/

/-- Put a file of the computer onto a disk, under its own path. -/
def fetch (disk : Disk) (path : String) : IO Disk := do
  try
    let content ← IO.FS.readBinFile path
    let (disk, _) := disk.makeParent path
    match disk.write path content.toList with
    | .ok disk => return disk
    | .error _ => return disk
  catch _ => return disk

def collectionFiles (c : Config) : List String :=
  match c.storage.mode.path? with
  | none => []
  | some path =>
      [Collection.headerName, Collection.temporaryName, Collection.logName].map (Path.join path)

/-- The files that an invocation may read or write. -/
def filesOf (disk : Disk) (i : Invocation) : List String :=
  match i.command with
  | .search corpus _ _ =>
      let collection :=
        match loadConfig disk i.config with
        | .ok c => collectionFiles c
        | .error _ => []
      i.config :: corpus :: collection
  | _ => [i.config]

/-- Write a file back when it is not what it was. -/
def store (before after : Disk) (path : String) : IO Unit := do
  match before.read path, after.read path with
  | .ok old, .ok new => if old ≠ new then IO.FS.writeBinFile path new.toByteArray
  | .error _, .ok new =>
      match (path.splitOn "/").dropLast with
      | [] => pure ()
      | parts => IO.FS.createDirAll ("/".intercalate parts)
      IO.FS.writeBinFile path new.toByteArray
  | .ok _, .error _ => IO.FS.removeFile path
  | .error _, .error _ => pure ()

/-! ## Posts -/

def resolve (a : Ollama.Address) : Async (List Std.Net.SocketAddress) := do
  let port := UInt16.ofNat a.port
  return (← Std.Async.DNS.getAddrInfo a.host (toString a.port)).toList.map fun
    | .v4 addr => .v4 ⟨addr, port⟩
    | .v6 addr => .v6 ⟨addr, port⟩

/-- Receive octets until there are no more. -/
partial def receive (socket : Std.Async.TCP.Socket.Client) (octets : ByteArray) :
    Async ByteArray := do
  match ← socket.recv? 65536 with
  | none => return octets
  | some more => receive socket (octets ++ more)

/-- Send a post and wait for the reply. -/
def exchange (post : Ollama.Post) : IO Answer := do
  match Ollama.Address.ofUrl? post.url with
  | none => return .error "no such address"
  | some a =>
      try
        let octets ← Async.block do
          match ← resolve a with
          | [] => throw (IO.userError "no such host")
          | address :: _ =>
              let socket ← Std.Async.TCP.Socket.Client.mk
              socket.connect address
              socket.send (post.octets a).toByteArray
              receive socket .empty
        return ((Ollama.Reply.ofOctets? octets.toList).map Except.ok).getD (.error "no reply")
      catch e => return .error (toString e)

/-- Run the program until each of its posts is answered. -/
partial def complete (arguments : List String) (disk : Disk) (answers : List Answer) :
    IO (Outcome × Disk) := do
  let (outcome, w) := run Replay.carry arguments { service := { answers }, disk }
  match w.service.open? with
  | none => return (outcome, w.disk)
  | some post => complete arguments disk (answers ++ [← exchange post])

/-- Run the program on this computer. -/
def runHere (arguments : List String) : IO UInt32 := do
  let files (disk : Disk) : List String :=
    match Invocation.read arguments with
    | .error _ => []
    | .ok i => filesOf disk i
  let named ← (files {}).foldlM fetch {}
  let disk ← (files named).foldlM fetch named
  let (outcome, after) ← complete arguments disk []
  (files disk).forM (store disk after)
  IO.print outcome.output
  IO.eprint outcome.error
  return outcome.exit.toUInt32

end CommandLine

end Retrieval

def main (arguments : List String) : IO UInt32 := Retrieval.CommandLine.runHere arguments
