/-
Module: Ivos.Http.ResponseText
Purpose: The texts that the methods of `Response` build, and what a client reads in
  them.
Trusted boundary: the files that `FileSystem` describes
Main exports: FileSystem, ResponseState, mimeTypeOf, ResponseCall, ResponseCall.apply,
  ReadBack, readBack, ResponseCall.intended, responses_self_delimiting
-/
import Ivos.Http.RequestText
import Ivos.Http.ServedPaths
import Ivos.Http.Upload

namespace Ivos.Http

/-! ### The members of `Response`

The file system is an argument.  Its files are shorter than 2 GiB, so that their length fits
an `int`, and the pages for 404 and 503 can be opened: without them the server has nothing to
say in place of what is missing.
-/

/-- The files that can be opened, by the names the operating system gets. -/
structure FileSystem where
  file : Bytes → Option Bytes
  short : ∀ name content, file name = some content → content.length < 2 ^ 31
  notFoundPage : (file (prefixed (ascii "/not_found.html"))).isSome = true
  unavailablePage : (file (prefixed (ascii "/service_unavailable.html"))).isSome = true

/-- The members of `Response` that its methods change. -/
structure ResponseState where
  response : Bytes
  content : Bytes
  mimeType : Bytes
  contentLength : Int
deriving Repr, DecidableEq

/-- `Response()`.  `_content_length` is not initialised. -/
def ResponseState.new (contentLength : Int) : ResponseState :=
  { response := [], content := [], mimeType := ascii "text/plain", contentLength }

/-- `_mime_types`. -/
def mimeTypes : List (Bytes × Bytes) :=
  [(ascii ".html", ascii "text/html"), (ascii ".css", ascii "text/css"),
    (ascii ".js", ascii "text/javascript"), (ascii ".jpg", ascii "image/jpeg"),
    (ascii ".jpeg", ascii "image/jpeg"), (ascii ".png", ascii "image/png"),
    (ascii ".gif", ascii "image/gif"), (ascii ".bmp", ascii "image/bmp"),
    (ascii ".ico", ascii "image/x-icon"), (ascii ".svg", ascii "image/svg+xml"),
    (ascii ".pdf", ascii "application/pdf"), (ascii ".json", ascii "application/json"),
    (ascii ".xml", ascii "application/xml"), (ascii ".zip", ascii "application/zip"),
    (ascii ".gzip", ascii "application/gzip"), (ascii ".mp3", ascii "audio/mpeg"),
    (ascii ".wav", ascii "audio/wav"), (ascii ".mp4", ascii "video/mp4"),
    (ascii ".mpeg", ascii "video/mpeg"), (ascii ".webm", ascii "video/webm"),
    (ascii ".ogg", ascii "video/ogg"), (ascii ".flv", ascii "video/x-flv")]

/-- `path.substr(path.find_last_of('.'))`, if there is a dot. -/
def fromLastDot (path : Bytes) : Option Bytes :=
  if 46 ∈ path then some (46 :: (path.reverse.takeWhile (· != 46)).reverse) else none

/-- What `set_mime_type` assigns. -/
def mimeTypeOf (path : Bytes) : Bytes :=
  match fromLastDot path with
  | none => ascii "text/html"
  | some extension =>
      match mimeTypes.lookup extension with
      | none => ascii "text/html"
      | some mimeType => mimeType

/-- `std::to_string`. -/
def toDecimal (value : Int) : Bytes := ascii (toString value)

namespace ResponseState

/-- `load_file`: what it returns, and the members behind it.  `tellg` is narrowed to an
`int`; `none` is `reserve` throwing for a negative one. -/
def loadFile (files : FileSystem) (path : Bytes) (state : ResponseState) :
    Option (Bool × ResponseState) :=
  match files.file (prefixed path) with
  | none => some (false, state)
  | some content =>
      let contentLength := Int.bmod content.length (2 ^ 32)
      if contentLength < 0 then none
      else some (true, { state with contentLength, content })

/-- `set_mime_type`. -/
def setMimeType (path : Bytes) (state : ResponseState) : ResponseState :=
  { state with mimeType := mimeTypeOf path }

/-- The lines that every builder ends with. -/
def append (status : Bytes) (contentLength : Int) (content : Bytes) (state : ResponseState) :
    ResponseState :=
  { state with
    response := ascii "HTTP/1.1" ++ status ++ ascii "\r\nContent-Length: " ++
      toDecimal contentLength ++ ascii "\r\nContent-Type: " ++ state.mimeType ++
      ascii "\r\n\r\n" ++ content }

/-- `create_string_response`. -/
def createStringResponse (response : Bytes) (state : ResponseState) : ResponseState :=
  state.append (ascii " 200 OK") response.length response

/-- `create_created_response`. -/
def createCreatedResponse (state : ResponseState) : ResponseState :=
  let response := ascii "received"
  state.append (ascii " 201 CREATED") response.length response

/-- The body of the two builders of error pages.  Whether the page could be loaded is not
tested. -/
def createPage (files : FileSystem) (path status : Bytes) (state : ResponseState) :
    Option ResponseState := do
  let (_, state) ← state.loadFile files path
  let state := state.setMimeType path
  return state.append status state.contentLength state.content

/-- `create_not_found_response`. -/
def createNotFoundResponse (files : FileSystem) (state : ResponseState) : Option ResponseState :=
  state.createPage files (ascii "/not_found.html") (ascii " 404 Not Found")

/-- `create_service_unavailable_response`. -/
def createServiceUnavailableResponse (files : FileSystem) (state : ResponseState) :
    Option ResponseState :=
  state.createPage files (ascii "/service_unavailable.html") (ascii " 503 Service Unavailable")

/-- `create_file_response`. -/
def createFileResponse (files : FileSystem) (path : Bytes) (state : ResponseState) :
    Option ResponseState := do
  let (loaded, state) ← state.loadFile files path
  if !loaded then state.createNotFoundResponse files
  else
    let state := state.setMimeType path
    return state.append (ascii " 200 OK") state.contentLength state.content

end ResponseState

/-- The methods that build a response. -/
inductive ResponseCall where
  | createStringResponse (response : Bytes)
  | createFileResponse (path : Bytes)
  | createNotFoundResponse
  | createServiceUnavailableResponse
  | createCreatedResponse
deriving Repr, DecidableEq

def ResponseCall.apply (files : FileSystem) (state : ResponseState) :
    ResponseCall → Option ResponseState
  | .createStringResponse response => some (state.createStringResponse response)
  | .createFileResponse path => state.createFileResponse files path
  | .createNotFoundResponse => state.createNotFoundResponse files
  | .createServiceUnavailableResponse => state.createServiceUnavailableResponse files
  | .createCreatedResponse => some state.createCreatedResponse

/-- A `Response` on which methods have been called. -/
def ResponseState.run (files : FileSystem) (calls : List ResponseCall) (state : ResponseState) :
    Option ResponseState :=
  calls.foldlM (ResponseCall.apply files) state

/-! ### What a client reads

The reader is not the server's: it looks for the first empty line, takes the lines before it
as fields, and the rest as the content.
-/

/-- What a client takes from a response. -/
structure ReadBack where
  statusLine : Bytes
  contentLength : Option Nat
  contentType : Option Bytes
  body : Bytes
deriving Repr, DecidableEq

/-- The lines of a text, with enough fuel. -/
def linesOf : Nat → Bytes → List Bytes
  | 0, text => [text]
  | fuel + 1, text =>
      match breakAt crlf text with
      | none => [text]
      | some (line, rest) => line :: linesOf fuel rest

/-- The value of the first field of that name. -/
def fieldValue (name : Bytes) (fields : List Bytes) : Option Bytes :=
  (fields.find? fun field => name ++ ascii ": " <+: field).map fun field =>
    field.drop (name ++ ascii ": ").length

/-- A number without a sign. -/
def readNumber (digits : Bytes) : Option Nat :=
  if digits ≠ [] ∧ digits.all isdigit then some (digitsValue digits) else none

/-- Split at the first empty line, and read the lines before it. -/
def readBack (response : Bytes) : Option ReadBack :=
  (breakAt crlfcrlf response).map fun (head, body) =>
    let lines := linesOf head.length head
    { statusLine := lines.headD []
      contentLength := (fieldValue (ascii "Content-Length") lines.tail).bind readNumber
      contentType := fieldValue (ascii "Content-Type") lines.tail
      body := body }

/-! ### What is meant -/

/-- A response with this status, type and content. -/
def saying (status mimeType content : Bytes) : ReadBack :=
  { statusLine := ascii "HTTP/1.1" ++ status
    contentLength := some content.length
    contentType := some mimeType
    body := content }

/-- A page that the server keeps for an error. -/
def FileSystem.page (files : FileSystem) (path : Bytes) : Bytes :=
  (files.file (prefixed path)).getD []

/-- What the not-found response is to say. -/
def notFound (files : FileSystem) : ReadBack :=
  saying (ascii " 404 Not Found") (mimeTypeOf (ascii "/not_found.html"))
    (files.page (ascii "/not_found.html"))

/-- What the response of a method is to say.  A text has no path to take a type from, and
keeps the one the `Response` has. -/
def ResponseCall.intended (files : FileSystem) (mimeType : Bytes) : ResponseCall → ReadBack
  | .createStringResponse response => saying (ascii " 200 OK") mimeType response
  | .createFileResponse path =>
      match files.file (prefixed path) with
      | some content => saying (ascii " 200 OK") (mimeTypeOf path) content
      | none => notFound files
  | .createNotFoundResponse => notFound files
  | .createServiceUnavailableResponse =>
      saying (ascii " 503 Service Unavailable") (mimeTypeOf (ascii "/service_unavailable.html"))
        (files.page (ascii "/service_unavailable.html"))
  | .createCreatedResponse => saying (ascii " 201 CREATED") mimeType (ascii "received")

/-! ### Numbers -/

theorem toDecimal_natCast (number : Nat) :
    toDecimal number = (Nat.toDigits 10 number).map fun digit => UInt8.ofNat digit.toNat := by
  rw [toDecimal, ascii]
  show (toString (number : Int)).toList.map _ = _
  have shown : (toString (number : Int)).toList = Nat.toDigits 10 number := by
    rw [← Nat.toList_repr]
    rfl
  rw [shown]

theorem toNat_digit {digit : Char} (isDigit : digit.isDigit = true) :
    (UInt8.ofNat digit.toNat).toNat = digit.toNat ∧ 48 ≤ digit.toNat ∧ digit.toNat ≤ 57 := by
  have range : 48 ≤ digit.toNat ∧ digit.toNat ≤ 57 := by
    simpa [Char.isDigit, UInt32.le_iff_toNat_le] using isDigit
  refine ⟨?_, range⟩
  rw [UInt8.toNat_ofNat']
  omega

/-- Digits are read as they were written. -/
theorem digitsValue_map {digits : List Char} (areDigits : ∀ digit ∈ digits, digit.isDigit = true)
    (value : Nat) :
    (digits.map fun digit => UInt8.ofNat digit.toNat).foldl
        (fun value digit => 10 * value + (digit.toNat - 48)) value =
      Nat.ofDigitChars 10 digits value := by
  induction digits generalizing value with
  | nil => rfl
  | cons digit digits inductionHypothesis =>
      obtain ⟨isDigit, others⟩ := List.forall_mem_cons.mp areDigits
      rw [List.map_cons, List.foldl_cons, (toNat_digit isDigit).1, inductionHypothesis others,
        Nat.ofDigitChars_cons]
      rfl

theorem areDigits_toDigits (number : Nat) :
    ∀ digit ∈ Nat.toDigits 10 number, digit.isDigit = true :=
  fun _ member => Nat.isDigit_of_mem_toDigits (by omega) (by omega) member

theorem isdigit_toDecimal {number : Nat} : ∀ digit ∈ toDecimal number, isdigit digit = true := by
  intro digit member
  rw [toDecimal_natCast] at member
  obtain ⟨written, inDigits, rfl⟩ := List.mem_map.mp member
  obtain ⟨value, low, high⟩ := toNat_digit (areDigits_toDigits number written inDigits)
  simp only [isdigit, Bool.and_eq_true, decide_eq_true_eq, UInt8.le_iff_toNat_le, value]
  exact ⟨low, high⟩

theorem readNumber_toDecimal (number : Nat) : readNumber (toDecimal number) = some number := by
  have written : toDecimal number ≠ [] := by
    rw [toDecimal_natCast]
    exact fun none => Nat.toDigits_ne_nil (List.map_eq_nil_iff.mp none)
  have value : digitsValue (toDecimal number) = number := by
    rw [toDecimal_natCast, digitsValue, digitsValue_map (areDigits_toDigits number),
      Nat.ofDigitChars_ten_toDigits]
  rw [readNumber, if_pos ⟨written, List.all_eq_true.mpr isdigit_toDecimal⟩, value]

/-! ### Reading a response -/

theorem linesOf_cons {line rest : Bytes} (free : 13 ∉ line) (fuel : Nat) :
    linesOf (fuel + 1) (line ++ 13 :: 10 :: rest) = line :: linesOf fuel rest := by
  have found : breakAt crlf (line ++ crlf ++ rest) = some (line, rest) :=
    breakAt_of_head_not_mem free
  have text : line ++ crlf ++ rest = line ++ 13 :: 10 :: rest := by simp [crlf, ascii]
  rw [text] at found
  rw [linesOf, found]

theorem linesOf_last {line : Bytes} (free : 13 ∉ line) (fuel : Nat) :
    linesOf fuel line = [line] := by
  cases fuel with
  | zero => rfl
  | succ fuel =>
      have missing : breakAt crlf line = none := by
        rw [breakAt_eq_none_iff]
        intro occurs
        exact free (occurs.subset List.mem_cons_self)
      rw [linesOf, missing]

/-- The three header lines that every builder writes. -/
def headerLines (status mimeType : Bytes) (contentLength : Nat) : List Bytes :=
  [ascii "HTTP/1.1" ++ status, ascii "Content-Length: " ++ toDecimal contentLength,
    ascii "Content-Type: " ++ mimeType]

theorem append_eq_headerBlock (status content : Bytes) (contentLength : Nat)
    (state : ResponseState) :
    (state.append status contentLength content).response =
      headerBlock (headerLines status state.mimeType contentLength) ++ content := by
  have lengthLine : ascii "\r\nContent-Length: " = crlf ++ ascii "Content-Length: " := by decide
  have typeLine : ascii "\r\nContent-Type: " = crlf ++ ascii "Content-Type: " := by decide
  have ends : ascii "\r\n\r\n" = crlf ++ crlf := by decide
  simp only [ResponseState.append, headerLines, headerBlock, lengthLine, typeLine, ends,
    List.flatMap_cons, List.flatMap_nil, List.append_assoc, List.append_nil]

theorem fieldValue_contentLength (digits mimeType : Bytes) :
    fieldValue (ascii "Content-Length")
      [ascii "Content-Length: " ++ digits, ascii "Content-Type: " ++ mimeType] = some digits := by
  have name : ascii "Content-Length" ++ ascii ": " = ascii "Content-Length: " := by decide
  rw [fieldValue, name, List.find?_cons_of_pos (by simp), Option.map_some, List.drop_left]

theorem fieldValue_contentType (digits mimeType : Bytes) :
    fieldValue (ascii "Content-Type")
      [ascii "Content-Length: " ++ digits, ascii "Content-Type: " ++ mimeType] =
        some mimeType := by
  have name : ascii "Content-Type" ++ ascii ": " = ascii "Content-Type: " := by decide
  have other : ¬ascii "Content-Type: " <+: ascii "Content-Length: " ++ digits := by
    have longer : ascii "Content-Type: " = ascii "Content-" ++ ascii "Type: " := by decide
    have length : ascii "Content-Length: " = ascii "Content-" ++ ascii "Length: " := by decide
    rw [longer, length, List.append_assoc, List.prefix_append_right_inj]
    intro start
    have same : (84 : UInt8) = 76 := (List.cons_prefix_cons.mp start).1
    exact absurd same (by decide)
  rw [fieldValue, name, List.find?_cons_of_neg (by simpa using other),
    List.find?_cons_of_pos (by simp), Option.map_some, List.drop_left]

/-- No header line has a line end in it. -/
theorem headerLines_free {status mimeType : Bytes} (statusFree : 13 ∉ status)
    (typeFree : 13 ∉ mimeType) (contentLength : Nat) :
    ∀ line ∈ headerLines status mimeType contentLength, line ≠ [] ∧ 13 ∉ line := by
  have digitsFree : 13 ∉ toDecimal contentLength := fun member =>
    absurd (isdigit_toDecimal 13 member) (by decide)
  have fixed : 13 ∉ ascii "HTTP/1.1" ∧ 13 ∉ ascii "Content-Length: " ∧
      13 ∉ ascii "Content-Type: " := by decide
  simp only [headerLines, List.forall_mem_cons, List.mem_append, not_or]
  exact ⟨⟨by simp [ascii], fixed.1, statusFree⟩, ⟨by simp [ascii], fixed.2.1, digitsFree⟩,
    ⟨by simp [ascii], fixed.2.2, typeFree⟩, by simp⟩

/-- What a builder writes is read back. -/
theorem readBack_append {status content : Bytes} {state : ResponseState}
    (statusFree : 13 ∉ status) (typeFree : 13 ∉ state.mimeType) :
    readBack (state.append status content.length content).response =
      some (saying status state.mimeType content) := by
  have free := headerLines_free statusFree typeFree content.length
  obtain ⟨first, others⟩ := List.forall_mem_cons.mp free
  obtain ⟨second, last⟩ := List.forall_mem_cons.mp others
  obtain ⟨third, -⟩ := List.forall_mem_cons.mp last
  obtain ⟨head, whole, found⟩ := breakAt_headerBlock first.2 others content
  have isHead : head = ascii "HTTP/1.1" ++ status ++ 13 :: 10 ::
      (ascii "Content-Length: " ++ toDecimal content.length ++ 13 :: 10 ::
        (ascii "Content-Type: " ++ state.mimeType)) := by
    refine (List.append_left_inj crlfcrlf).mp ?_
    rw [← whole]
    simp [crlfcrlf_eq]
  have lines : linesOf head.length head =
      headerLines status state.mimeType content.length := by
    obtain ⟨fuel, size⟩ : ∃ fuel, head.length = fuel + 2 := by
      refine ⟨head.length - 2, ?_⟩
      rw [isHead]
      simp only [List.length_append, List.length_cons]
      omega
    rw [size, isHead, linesOf_cons first.2, linesOf_cons second.2, linesOf_last third.2]
    rfl
  have text := append_eq_headerBlock status content content.length state
  rw [← headerLines] at found
  rw [readBack, text, found, Option.map_some]
  simp only [lines, headerLines, List.tail_cons, List.headD_cons, fieldValue_contentLength,
    fieldValue_contentType, Option.bind_some, readNumber_toDecimal, saying]

/-! ### The builders -/

section Builders

variable {files : FileSystem} {state : ResponseState}

theorem mimeTypes_free : ∀ entry ∈ mimeTypes, 13 ∉ entry.2 := by
  decide +kernel

/-- Whatever `set_mime_type` assigns is part of a line. -/
theorem mimeTypeOf_free (path : Bytes) : 13 ∉ mimeTypeOf path := by
  have html : 13 ∉ ascii "text/html" := by decide
  unfold mimeTypeOf
  split
  · exact html
  · split
    · exact html
    · rename_i mimeType found
      obtain ⟨before, after, table, -⟩ := List.lookup_eq_some_iff.mp found
      exact mimeTypes_free (_, mimeType) (table ▸ List.mem_append_right _ List.mem_cons_self)

theorem loadFile_of_missing {path : Bytes} (missing : files.file (prefixed path) = none) :
    state.loadFile files path = some (false, state) := by
  simp only [ResponseState.loadFile, missing]

/-- A file that can be opened fills both members. -/
theorem loadFile_of_found {path content : Bytes}
    (found : files.file (prefixed path) = some content) :
    state.loadFile files path =
      some (true, { state with contentLength := content.length, content }) := by
  have short := files.short _ _ found
  have exact : Int.bmod content.length (2 ^ 32) = content.length :=
    Int.bmod_eq_of_le (by omega) (by omega)
  simp only [ResponseState.loadFile, found, exact]
  rw [if_neg (by omega)]

/-- A page that exists is loaded whole. -/
theorem loadFile_page {path : Bytes} (exists_page : (files.file (prefixed path)).isSome = true) :
    state.loadFile files path = some (true,
      { state with contentLength := (files.page path).length, content := files.page path }) := by
  obtain ⟨content, found⟩ := Option.isSome_iff_exists.mp exists_page
  have page : files.page path = content := by rw [FileSystem.page, found, Option.getD_some]
  rw [loadFile_of_found found, page]

/-- Read back, a response is what was meant, and its type is still part of a line. -/
structure Conveys (after : ResponseState) (meant : ReadBack) : Prop where
  reads : readBack after.response = some meant
  free : 13 ∉ after.mimeType

/-- A loaded file is sent with its length and the type of its path. -/
theorem conveys_loaded (state : ResponseState) {status : Bytes} (statusFree : 13 ∉ status)
    (path content : Bytes) :
    Conveys
      ((ResponseState.setMimeType path
        { state with contentLength := content.length, content }).append status content.length
          content)
      (saying status (mimeTypeOf path) content) :=
  ⟨readBack_append statusFree (mimeTypeOf_free path), mimeTypeOf_free path⟩

theorem createPage_conveys {path status : Bytes} (statusFree : 13 ∉ status)
    (exists_page : (files.file (prefixed path)).isSome = true) :
    ∃ after, state.createPage files path status = some after ∧
      Conveys after (saying status (mimeTypeOf path) (files.page path)) := by
  refine ⟨_, ?_, conveys_loaded state statusFree path (files.page path)⟩
  rw [ResponseState.createPage, loadFile_page exists_page]
  rfl

theorem createNotFoundResponse_conveys (files : FileSystem) (state : ResponseState) :
    ∃ after, state.createNotFoundResponse files = some after ∧ Conveys after (notFound files) :=
  createPage_conveys (by decide) files.notFoundPage

/-- A builder called on any `Response` writes what it means. -/
theorem apply_conveys (files : FileSystem) (call : ResponseCall) (typeFree : 13 ∉ state.mimeType) :
    ∃ after, call.apply files state = some after ∧
      Conveys after (call.intended files state.mimeType) := by
  cases call with
  | createStringResponse response =>
      exact ⟨_, rfl, readBack_append (by decide) typeFree, typeFree⟩
  | createCreatedResponse => exact ⟨_, rfl, readBack_append (by decide) typeFree, typeFree⟩
  | createNotFoundResponse => exact createNotFoundResponse_conveys files state
  | createServiceUnavailableResponse => exact createPage_conveys (by decide) files.unavailablePage
  | createFileResponse path =>
      cases found : files.file (prefixed path) with
      | none =>
          obtain ⟨after, created, conveys⟩ := createNotFoundResponse_conveys files state
          refine ⟨after, ?_, ?_⟩
          · simp only [ResponseCall.apply, ResponseState.createFileResponse,
              loadFile_of_missing found]
            exact created
          · simp only [ResponseCall.intended, found]
            exact conveys
      | some content =>
          have statusFree : 13 ∉ ascii " 200 OK" := by decide
          have meant : ResponseCall.intended files state.mimeType (.createFileResponse path) =
              saying (ascii " 200 OK") (mimeTypeOf path) content := by
            simp only [ResponseCall.intended, found]
          rw [meant]
          refine ⟨_, ?_, conveys_loaded state statusFree path content⟩
          simp only [ResponseCall.apply, ResponseState.createFileResponse, loadFile_of_found found]
          rfl

end Builders

/-- Whatever builders have been called on a `Response` before, the next one is split and
read back as it was meant: with its status, its type, the length of its content and the
content itself. -/
theorem responses_self_delimiting (files : FileSystem) (uninitialised : Int)
    (earlier : List ResponseCall) (call : ResponseCall) :
    ∃ before after, (ResponseState.new uninitialised).run files earlier = some before ∧
      call.apply files before = some after ∧
      readBack after.response = some (call.intended files before.mimeType) := by
  have ran : ∀ state : ResponseState, 13 ∉ state.mimeType →
      ∃ before, state.run files earlier = some before ∧ 13 ∉ before.mimeType := by
    induction earlier with
    | nil => exact fun state free => ⟨state, rfl, free⟩
    | cons first earlier inductionHypothesis =>
        intro state free
        obtain ⟨next, applied, conveys⟩ := apply_conveys files first free
        obtain ⟨before, later, stillFree⟩ := inductionHypothesis next conveys.free
        refine ⟨before, ?_, stillFree⟩
        rw [ResponseState.run, List.foldlM_cons, applied]
        exact later
  have plain : 13 ∉ ascii "text/plain" := by decide
  obtain ⟨before, isBefore, free⟩ := ran (.new uninitialised) plain
  obtain ⟨after, applied, conveys⟩ := apply_conveys files call free
  exact ⟨before, after, isBefore, applied, conveys.reads⟩

end Ivos.Http
