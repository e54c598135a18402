import InlineCompletion.Client.Server
import InlineCompletion.Data.Reading
import InlineCompletion.Text.Utf8

/-!
How requests travel to the model server: HTTP with JSON bodies, one exchange for each connection.
-/

namespace InlineCompletion.Wire

open Text

/-- Where a server listens: the host, the number of the service on it, and the path that its paths
begin with. -/
structure Endpoint where
  host : Text
  service : Nat
  base : Text := []
  deriving DecidableEq, Repr

def scheme : Text := "http://"

/-- The endpoint of an address without encryption. -/
def Endpoint.ofAddress (address : Text) : Option Endpoint :=
  if !startsWith address scheme then none
  else
    let rest := address.drop scheme.length
    let authority := rest.takeWhile (· ≠ '/')
    let host := authority.takeWhile (· ≠ ':')
    let service := authority.drop (host.length + 1)
    some
      { host
        service := if service.isEmpty then 80 else digitsValue service
        base := dropTrailing (· = '/') (rest.drop authority.length) }

/-- What is sent to one path; without a body it is only read. -/
structure Exchange where
  path : Text
  body : Option Data := none

/-- The exchange that a noted request stands for. Single answers have to be asked for. -/
def exchangeOf (request : Data) : Option Exchange :=
  match request.field? "chat", request.field? "list" with
  | some (.record fields), _ =>
    let mark : List (Text × Data) :=
      if (fields.lookup ("stream" : Text)).isSome then [] else [("stream", .bool false)]
    some ⟨"/api/chat", some (.record (fields ++ mark))⟩
  | none, some _ => some ⟨"/api/tags", none⟩
  | _, _ => none

def lineEnd : Text := "\r\n"

def headers (endpoint : Endpoint) : Text :=
  " HTTP/1.0" ++ lineEnd ++ "Host: " ++ endpoint.host ++ ':' :: ofNat endpoint.service ++ lineEnd

/-- The bytes of an exchange. JSON is ASCII, so its characters count its bytes. -/
def requestBytes (endpoint : Endpoint) (exchange : Exchange) : List UInt8 :=
  let target := endpoint.base ++ exchange.path
  Utf8.encode
    (match exchange.body with
      | none => "GET " ++ target ++ headers endpoint ++ lineEnd
      | some body =>
        let json := Json.write body
        "POST " ++ target ++ headers endpoint ++ "Content-Type: application/json" ++ lineEnd ++
          "Content-Length: " ++ ofNat json.length ++ lineEnd ++ lineEnd ++ json)

def unreadable : Failure := ⟨.value, "The server sent an answer that cannot be read"⟩

/-- The status of an answer and its body. -/
def splitAnswer (answer : Text) : Option (Nat × Text) := do
  let index ← indexOf? (lineEnd ++ lineEnd) answer
  let status := ((answer.dropWhile (· ≠ ' ')).drop 1).take 3
  if status.all isDigit then
    some (digitsValue status, answer.drop (index + 2 * lineEnd.length))
  else none

/-- The parts of a stream stand on lines of their own. -/
def readParts (body : Text) : Option Data :=
  (((lines body).filter fun line => !allBlank line).mapM Json.read).map .list

def refused (status : Nat) (body : Text) : Failure :=
  match (Json.read body).bind (·.field? "error") with
  | some (.text message) => ⟨.runtime, message⟩
  | _ => ⟨.runtime, "The server answered with status " ++ ofNat status⟩

/-- What the server replied to an exchange. -/
def readAnswer (exchange : Exchange) (bytes : List UInt8) : Except Failure Data :=
  match Utf8.decode bytes with
  | .error e => .error e.failure
  | .ok text =>
    match splitAnswer text with
    | none => .error unreadable
    | some (status, body) =>
      if 400 ≤ status then .error (refused status body)
      else
        let streamed := (exchange.body.bind (·.field? "stream")).any Data.isTruthy
        ((if streamed then readParts body else Json.read body).map .ok).getD (.error unreadable)

/-- The backend after an exchange. -/
def backendOf (exchange : Exchange) (answer : Except Failure (List UInt8)) : Backend :=
  match answer.bind (readAnswer exchange) with
  | .ok reply => { reply }
  | .error failure => { failure := some failure }

end InlineCompletion.Wire
