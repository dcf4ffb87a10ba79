import CanvasSync.Assist.Json

/-!
The language server: the texts of the open documents, and the answers about them.

* `Server.change`, `Server.close`: what editors say about documents, answered by warnings;
* `Server.completions`, `Server.hover?`, `Server.fixes?`: what editors ask;
* `Server.receive`: the messages that answer a message.
-/

namespace CanvasSync.Assist

open CanvasSync.Json (Value)
open CanvasSync.Utility

/-- The open documents by URI, each with its text. -/
structure Server where
  documents : List (String × Text)
  deriving Repr

namespace Server

/-- A server without documents. -/
def start : Server := ⟨[]⟩

/-- The text of a document. -/
def text? (s : Server) (uri : String) : Option Text := s.documents.lookup uri

/-- The documents without one. -/
def without (s : Server) (uri : String) : List (String × Text) :=
  s.documents.filter fun (u, _) => u ≠ uri

/-- Takes over the text of a document; gives the warnings about it. -/
def change (s : Server) (uri : String) (t : Text) : Server × List Diagnostic :=
  (⟨(uri, t) :: s.without uri⟩, diagnostics Catalog.standard t)

/-- Forgets a document. -/
def close (s : Server) (uri : String) : Server := ⟨s.without uri⟩

/-- The proposals at a position; none for a document that is not open. -/
def completions (s : Server) (uri : String) (p : Position) : List Completion :=
  match s.text? uri with
  | some t => Assist.completions Catalog.standard t p
  | none => []

/-- What is shown at a position of an open document. -/
def hover? (s : Server) (uri : String) (p : Position) : Option Hover :=
  (s.text? uri).bind fun t => Assist.hover? Table.standard Catalog.standard t p

/-- The fixes for remarks, if there are any. -/
def fixes? (uri : String) (remarks : List Diagnostic) : Option Value :=
  match quickFixes remarks with
  | [] => none
  | fixes => some (.array (fixes.map (QuickFix.toJson uri)))

/-- What the server can do. -/
def capabilities : Value :=
  .ofMembers
    [("textDocumentSync", .ofNat 1),
     ("completionProvider",
      .ofMembers [("triggerCharacters", .array [.string "\"", .string " ", .string ":"])]),
     ("hoverProvider", .bool true), ("codeActionProvider", .bool true)]

/-- The answer to the first request. -/
def greeting : Value :=
  .ofMembers
    [("capabilities", capabilities),
     ("serverInfo", .ofMembers [("name", .string sourceName), ("version", .string "0.1.0")])]

/-- What the server logs once it is in use. -/
def readyNote : Value :=
  .ofMembers [("type", .ofNat 3), ("message", .string "nb-lsp initialized")]

/-- The warnings about a document, as they are published. -/
def published (uri : String) (remarks : List Diagnostic) : Value :=
  .ofMembers
    [("uri", .string uri), ("diagnostics", .array (remarks.map Diagnostic.toJson))]

/-- A message that wants no answer. -/
def notification (method : String) (params : Value) : Value :=
  .ofMembers
    [("jsonrpc", .string "2.0"), ("method", .string method), ("params", params)]

/-- The answer to a request. -/
def response (id : Value) (result : Value) : Value :=
  .ofMembers [("jsonrpc", .string "2.0"), ("id", id), ("result", result)]

/-- The refusal of a request. -/
def refusal (id : Value) (code : Int) (message : String) : Value :=
  .ofMembers
    [("jsonrpc", .string "2.0"), ("id", id),
     ("error", .ofMembers [("code", .number (.whole code)), ("message", .string message)])]

/-- The value reached by keys. -/
def within? (v : Value) : List String → Option Value
  | [] => some v
  | k :: ks => (v.get? k).bind fun v => within? v ks

/-- The document that parameters are about. -/
def documentOf? (params : Value) : Option String :=
  (within? params ["textDocument", "uri"]).bind uri?

/-- The position that parameters are about. -/
def positionOf? (params : Value) : Option Position :=
  (params.get? "position").bind Position.ofJson?

/-- Warnings as a message. -/
def publication (uri : String) (remarks : List Diagnostic) : List Value :=
  [notification "textDocument/publishDiagnostics" (published uri remarks)]

/-- The text of a document taken over, and the warnings about it published. -/
def changeAndPublish (s : Server) (uri : String) (t : Text) : Server × List Value :=
  let (s, remarks) := s.change uri t
  (s, publication uri remarks)

/-- Takes note of a message that wants no answer; nothing if its parameters are of the wrong
shape. -/
def note? (s : Server) (method : String) (params : Value) : Option (Server × List Value) :=
  match method with
  | "initialized" => some (s, [notification "window/logMessage" readyNote])
  | "textDocument/didOpen" => do
    let uri ← documentOf? params
    let text ← (within? params ["textDocument", "text"]).bind Value.string?
    return s.changeAndPublish uri text.toList
  | "textDocument/didChange" => do
    let uri ← documentOf? params
    let changes ← (params.get? "contentChanges").bind (Value.list? some)
    match changes.getLast? with
    | none => return (s, [])
    | some last =>
      let text ← (last.get? "text").bind Value.string?
      return s.changeAndPublish uri text.toList
  | "textDocument/didClose" => do
    let uri ← documentOf? params
    return (s.close uri, publication uri [])
  | _ => none

/-- The result of a request; nothing if its parameters are of the wrong shape. -/
def result? (s : Server) (method : String) (params : Value) : Option Value :=
  match method with
  | "textDocument/completion" => do
    let items := s.completions (← documentOf? params) (← positionOf? params)
    return .array (items.map Completion.toJson)
  | "textDocument/hover" => do
    let hover := s.hover? (← documentOf? params) (← positionOf? params)
    return (hover.map Hover.toJson).getD .null
  | "textDocument/codeAction" => do
    let uri ← documentOf? params
    let given ← (within? params ["context", "diagnostics"]).bind (Value.list? some)
    return (fixes? uri (← given.mapM Diagnostic.ofJson?)).getD .null
  | "initialize" => some greeting
  | "shutdown" => some .null
  | _ => none

/-- The requests that are answered. -/
def methods : List String :=
  ["initialize", "shutdown", "textDocument/completion", "textDocument/hover",
   "textDocument/codeAction"]

/-- The messages that answer a message, and the server after it. -/
def receive (s : Server) (message : Value) : Server × List Value :=
  let params := (message.get? "params").getD .null
  match message.get? "method", message.get? "id" with
  | some (.string method), some id =>
    match s.result? method params with
    | some result => (s, [response id result])
    | none =>
      if method ∈ methods then (s, [refusal id (-32602) "Invalid params"])
      else (s, [refusal id (-32601) "Method not found"])
  | some (.string method), none => (s.note? method params).getD (s, [])
  | _, _ => (s, [])

end Server

end CanvasSync.Assist
