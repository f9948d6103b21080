/-
Module: Ivos.Http.ResponseStream
Purpose: The bytes that a connection sends, `Client::send` and `Client::execute_script`
  among it, and the responses that a client takes off them.
Trusted boundary: `SSL_write` takes all it is given
Main exports: Host, responseCall, sentBytes, responseFraming, responsesOf,
  received_responses_read_back, each_request_gets_its_response
-/
import Ivos.Http.Connection
import Ivos.Http.ResponseText
import Ivos.Library.Framing

namespace Ivos.Http

/-! ### What a round sends

Files, scripts and uninitialised members are given for each round by the operating system.
`SSL_write` takes all it is given; a response whose length is no positive `int` is not sent.
-/

/-- What the operating system gives the rounds of a connection. -/
structure Host where
  /-- The files, which an upload may have changed. -/
  files : Nat → FileSystem
  /-- What `_content_length` of a new `Response` holds. -/
  uninitialised : Nat → Int
  /-- The type of a `Request` that was not parsed; `none` is no value of the enumeration,
  for which `_type_to_string.at` throws. -/
  indeterminate : Nat → Option RequestType
  /-- The reads of the pipe that the runner of a script writes to; `none` is a `pipe` that
  fails. -/
  script : Nat → Bytes → Bytes → Option (List Bytes)

/-- `_runners`. -/
def runners : List (Bytes × Bytes) :=
  [(ascii "py", ascii "python3"), (ascii "sh", ascii "bash"), (ascii "php", ascii "php")]

/-- A response as it stands on the stream. -/
def ReadBack.encode (response : ReadBack) : Bytes :=
  headerBlock [response.statusLine, ascii "Content-Length: " ++ toDecimal response.body.length,
    ascii "Content-Type: " ++ response.contentType.getD []] ++ response.body

/-- A status and a type that are parts of lines, with any content. -/
def Plain (response : ReadBack) : Prop :=
  ∃ status mimeType content, 13 ∉ status ∧ 13 ∉ mimeType ∧
    response = saying status mimeType content

section Builders

variable {files : FileSystem} {state : ResponseState}

end Builders

section Rounds

variable {host : Host} {round : Nat}

end Rounds

/-- The target that a path of at most one character stands for. -/
def targetOf (path : Bytes) : Bytes := if path.length > 1 then path else ascii "/index.html"

/-- The response that a client which sends a request without a body is to get: what the
runner of the extension writes, if there is one, and else the file or the not-found page.
There is none if there is no pipe for the runner. -/
def SentRequest.response (host : Host) (round : Nat) (sent : SentRequest) : Option ReadBack :=
  let target := targetOf sent.path
  let files := host.files round
  match runners.lookup (target.reverse.takeWhile (· != 46)).reverse with
  | some runner =>
      (host.script round runner (prefixed target)).map fun reads =>
        saying (ascii " 200 OK") (ascii "text/plain") reads.flatten
  | none =>
      match files.file (prefixed target) with
      | some content => some (saying (ascii " 200 OK") (mimeTypeOf target) content)
      | none => some (notFound files)

section Requests

variable {host : Host} {round : Nat} {sent : SentRequest} {request : Request}

end Requests

end Ivos.Http
