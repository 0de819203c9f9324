import Switchboard.Fault
import Switchboard.Text.Quoted

/-!
# Upgrade requests

The request with which an agent asks a server to turn a connection into a raw byte channel. Its
head (`to_head`) is refused if a field of it would break out of its line (`check_field`).
-/

namespace Switchboard

/-- What an agent asks for. The headers stand before those that ask for the upgrade. -/
structure UpgradeRequest where
  host : String
  path : String
  headers : List (String × String)
  deriving DecidableEq, Repr, Inhabited

namespace UpgradeRequest

/-- Whether a character must not stand in a field: it would end the line, or it is one of
`extra`. -/
def isForbidden (extra : List Char) (c : Char) : Bool :=
  c = '\r' || c = '\n' || extra.contains c

/-- Refuse a field that contains a forbidden character (`check_field`). -/
def checkField (what : String) (extra : List Char) (field : String) : Except Fault Unit :=
  match field.toList.find? (isForbidden extra) with
  | some c =>
    let mark := Text.quotedChar c
    .error (.upgrade s!"{what} {Text.quoted field} contains forbidden character {mark}")
  | none => .ok ()

/-- Refuse a header that is not one line of a name and a value. -/
def checkHeader : String × String → Except Fault Unit
  | (name, value) =>
    if name.isEmpty then .error (.upgrade "empty header name")
    else do
      checkField "header name" [':', ' ', '\t'] name
      checkField "header value" [] value

def check (request : UpgradeRequest) : Except Fault Unit := do
  checkField "path" [' '] request.path
  checkField "host" [] request.host
  request.headers.forM checkHeader

def lines (request : UpgradeRequest) : List String :=
  [s!"GET {request.path} HTTP/1.1", s!"Host: {request.host}"]
    ++ request.headers.map (fun (name, value) => s!"{name}: {value}")
    ++ ["Upgrade: tcp", "Connection: Upgrade", ""]

/-- The head of a request, up to and with its empty line (`to_head`). -/
def head (request : UpgradeRequest) : Except Fault String := do
  request.check
  pure (String.join (request.lines.map (· ++ "\r\n")))

end UpgradeRequest

end Switchboard
