import CanvasSync.Assist.CommandLine
import CanvasSync.Assist.Server
import CanvasSync.Json.Reader
import CanvasSync.Json.Writer

/-!
The command line: the two commands on class strings, and the language server on the standard
streams.
-/

namespace CanvasSync

open CanvasSync.Assist

/-- Reads the header of a message up to the empty line; gives the size of the body. -/
partial def readHeader (input : IO.FS.Stream) (size : Option Nat) : IO (Option Nat) := do
  let line ← input.getLine
  if line.isEmpty then return none
  let line := Text.trim line.toList
  if line.isEmpty then return size
  match Text.strip? "Content-Length:".toList line with
  | some digits => readHeader input (String.ofList (Text.trim digits)).toNat?
  | none => readHeader input size

/-- Writes a message with its header. -/
def writeMessage (output : IO.FS.Stream) (message : Json.Value) : IO Unit := do
  let body := message.text
  output.putStr ("Content-Length: " ++ toString (Text.size body) ++ "\r\n\r\n")
  output.putStr (String.ofList body)
  output.flush

/-- Reads a number of bytes. -/
partial def readBytes (input : IO.FS.Stream) (size : Nat) (read : ByteArray) : IO ByteArray := do
  if size ≤ read.size then return read
  let more ← input.read (size - read.size).toUSize
  if more.isEmpty then return read
  readBytes input size (read ++ more)

/-- Answers messages until the client says goodbye or the input ends. -/
partial def serve (input output : IO.FS.Stream) (server : Server) : IO Unit := do
  match ← readHeader input none with
  | none => return
  | some size =>
    let bytes ← readBytes input size .empty
    match (String.fromUTF8? bytes).bind fun s => Json.parse? s.toList with
    | none => serve input output server
    | some message =>
      if (message.get? "method").bind Json.Value.string? = some "exit" then return
      let (server, answers) := server.receive message
      for answer in answers do
        writeMessage output answer
      serve input output server

/-- Reads the rest of the input. -/
partial def readAll (input : IO.FS.Stream) (read : ByteArray) : IO ByteArray := do
  let more ← input.read 65536
  if more.isEmpty then return read
  readAll input (read ++ more)

/-- Runs a command on the standard input. -/
def runCommand (name : String) (command : Command) : IO UInt32 := do
  let bytes ← readAll (← IO.getStdin) .empty
  match String.fromUTF8? bytes with
  | none =>
    IO.eprintln
      ("nb-lsp " ++ name ++ " error: failed to read stdin: stream did not contain valid UTF-8")
    return 1
  | some classes =>
    let outcome := command.run classes.toList
    IO.print (String.ofList outcome.output)
    IO.eprint (String.ofList outcome.errors)
    return outcome.code.toUInt32

end CanvasSync

/-- Runs the command named by the first argument, or the language server. -/
def main (arguments : List String) : IO UInt32 := do
  let name := arguments.headD ""
  match CanvasSync.Assist.Command.ofArgument? name with
  | some command => CanvasSync.runCommand name command
  | none =>
    CanvasSync.serve (← IO.getStdin) (← IO.getStdout) .start
    return 0
