/-
Module: Ivos.Http.ServedPaths
Purpose: The files and scripts a request makes the server open, and which requests
  stay inside the served directory.
Trusted boundary: no symbolic links
Main exports: Response.createFileResponse, Client.executeScript, servedPaths,
  InsideServed, StaysInside, served_inside_iff, served_outside
-/
import Ivos.Http.Request
import Ivos.Library.LexicalPath

namespace Ivos.Http

/-! ### From the request to a path

Which files can be opened is an argument.  Both consumers of a path, `load_file` and
`execute_script`, put `www` in front of it without a slash, and pass it on as a C string.
-/

/-- `has_path`. -/
def Request.hasPath (request : Request) : Bool := request.path.length > 1

/-- `get_path_extension`: what stands behind the last dot, and the whole path if there
is none. -/
def Request.getPathExtension (request : Request) : Bytes :=
  (request.path.reverse.takeWhile (· != 46)).reverse

/-- `is_script`. -/
def Request.isScript (request : Request) : Bool :=
  let extension := request.getPathExtension
  extension == ascii "py" || extension == ascii "sh" || extension == ascii "php"

/-- `_default_directory`. -/
def defaultDirectory : Bytes := ascii "www"

/-- The name the operating system gets for a path behind the directory. -/
def prefixed (path : Bytes) : Bytes := cString (defaultDirectory ++ path)

/-- `Response::load_file`: the file it opens.  `canOpen` says which files can be
opened. -/
def Response.loadFile (canOpen : Bytes → Bool) (path : Bytes) : Option Bytes :=
  if canOpen (prefixed path) then some (prefixed path) else none

/-- The file `Response::create_not_found_response` opens. -/
def Response.createNotFoundResponse (canOpen : Bytes → Bool) : Option Bytes :=
  Response.loadFile canOpen (ascii "/not_found.html")

/-- The file `Response::create_file_response` opens. -/
def Response.createFileResponse (canOpen : Bytes → Bool) (path : Bytes) : Option Bytes :=
  match Response.loadFile canOpen path with
  | some file => some file
  | none => Response.createNotFoundResponse canOpen

/-- The script path `Client::execute_script` passes to the interpreter. -/
def Client.executeScript (request : Request) : Bytes := prefixed request.path

/-- The file opened or the script passed on for a request, in the branches of
`handle_communication`. -/
def servedPath (canOpen : Bytes → Bool) (request : Request) : Option Bytes :=
  if request.type = .POST then none
  else if request.hasPath && request.isScript then some (Client.executeScript request)
  else if request.hasPath then Response.createFileResponse canOpen request.path
  else Response.createFileResponse canOpen (ascii "/index.html")

/-! ### Inside the directory

Where a path leads is read off its text: there are no symbolic links.  It may leave `www` and
come back, and is inside if it does so by the name of the directory.
-/

/-- The components of a path. -/
def components (path : Bytes) : List Bytes := path.splitOn 47

/-- What a component does to a path. -/
def toMove (component : Bytes) : PathMove Bytes :=
  if component = [] ∨ component = ascii "." then .stay
  else if component = ascii ".." then .up
  else .down component

/-- Where a relative path leads, by its text. -/
def resolve (path : Bytes) : Location Bytes :=
  Location.here.walk ((components path).map toMove)

/-- The path leads to the served directory or below it. -/
def InsideServed (path : Bytes) : Prop := (resolve path).Inside defaultDirectory

instance (path : Bytes) : Decidable (InsideServed path) :=
  inferInstanceAs (Decidable (Location.Inside _ _))

/-- A component `www` of the prefixed path has as many `..` as names before it, and
neither there nor behind it does a prefix ever have more `..` than names. -/
def NeverClimbsOut (path : Bytes) : Prop :=
  ∃ before after, components (defaultDirectory ++ path) = before ++ defaultDirectory :: after ∧
    Returns (before.map toMove) ∧ NeverAbove (after.map toMove)

/-- The request is a POST, has no path, or a path that does not climb out. -/
def StaysInside (request : Request) : Prop :=
  request.type = .POST ∨ request.path.length ≤ 1 ∨ NeverClimbsOut request.path

theorem toMove_eq_down {component name : Bytes} (down : toMove component = .down name) :
    component = name := by
  unfold toMove at down
  split at down
  · cases down
  · split at down
    · cases down
    · exact PathMove.down.inj down

theorem toMove_defaultDirectory : toMove defaultDirectory = .down defaultDirectory := by
  decide

/-- The counts decide where the path leads. -/
theorem insideServed_iff {path : Bytes} :
    InsideServed (defaultDirectory ++ path) ↔ NeverClimbsOut path := by
  unfold InsideServed resolve NeverClimbsOut
  rw [Location.inside_iff]
  constructor
  · rintro ⟨before, after, same, returns, below⟩
    obtain ⟨first, rest, split, rfl, others⟩ := List.map_eq_append_iff.mp same
    obtain ⟨component, last, rfl, isBase, rfl⟩ := List.map_eq_cons_iff.mp others
    obtain rfl := toMove_eq_down isBase
    exact ⟨first, last, split, returns, below⟩
  · rintro ⟨before, after, same, returns, below⟩
    refine ⟨before.map toMove, after.map toMove, ?_, returns, below⟩
    rw [same, List.map_append, List.map_cons, toMove_defaultDirectory]

/-- Without a leading slash the target only makes the directory's name longer. -/
example : ¬ InsideServed (defaultDirectory ++ ascii "py") := by decide

/-! ### What `parse` leaves in the path -/

/-- A token with another behind it has lost its control characters. -/
theorem stringSplit_printable {input delimiter token next : Bytes} {tokens : List Bytes}
    (nonempty : delimiter ≠ []) (split : stringSplit input delimiter = token :: next :: tokens) :
    (∀ c ∈ token, iscntrl c = false) ∧
      ∃ rest, stringSplit rest delimiter = next :: tokens := by
  cases found : breakAt delimiter input with
  | none =>
      rw [stringSplit_of_missing found] at split
      cases split
  | some parts =>
      obtain ⟨piece, rest⟩ := parts
      rw [stringSplit_of_found nonempty found] at split
      obtain ⟨rfl, others⟩ := List.cons.inj split
      refine ⟨fun c member => ?_, rest, others⟩
      simpa using (List.mem_filter.mp member).2

theorem readContentType_path {before after : Request} (ran : readContentType before = some after) :
    after.path = before.path := by
  unfold readContentType at ran
  split at ran
  · cases ran
    rfl
  · obtain ⟨boundary, -, rfl⟩ := Option.map_eq_some_iff.mp ran
    rfl

/-- The path of an accepted request has no control characters, so the operating
system sees all of it. -/
theorem parse_path_printable {block : Bytes} {request : Request}
    (parsed : parse block = some request) : ∀ c ∈ request.path, iscntrl c = false := by
  unfold parse at parsed
  split at parsed
  · cases parsed
  · rename_i line lines _
    split at parsed
    · rename_i type path version tokens split
      obtain ⟨requestType, -, read⟩ := Option.bind_eq_some_iff.mp parsed
      rw [readContentType_path read]
      obtain ⟨-, rest, others⟩ := stringSplit_printable (by decide) split
      exact (stringSplit_printable (by decide) others).1
    · cases parsed

theorem prefixed_eq {path : Bytes} (printable : ∀ c ∈ path, iscntrl c = false) :
    prefixed path = defaultDirectory ++ path := by
  apply cString_eq_self
  intro nul
  rcases List.mem_append.mp nul with inDirectory | inPath
  · exact absurd inDirectory (by decide)
  · exact absurd (printable 0 inPath) (by decide)

/-! ### Every request -/

/-- What a response opens is the file asked for or the page that says it is missing. -/
theorem createFileResponse_cases {canOpen : Bytes → Bool} {path file : Bytes}
    (opened : Response.createFileResponse canOpen path = some file) :
    file = prefixed path ∨ file = prefixed (ascii "/not_found.html") := by
  unfold Response.createFileResponse Response.createNotFoundResponse Response.loadFile at opened
  split at opened
  · rename_i found
    split at found
    · cases found
      cases opened
      exact .inl rfl
    · cases found
  · split at opened
    · cases opened
      exact .inr rfl
    · cases opened

/-- The server's own pages are inside. -/
theorem own_pages_inside :
    InsideServed (prefixed (ascii "/not_found.html")) ∧
      InsideServed (prefixed (ascii "/index.html")) := by
  decide +kernel

/-- Everything an accepted request makes the server open or run lies inside the
served directory, whatever files there are, exactly if the request stays inside. -/
theorem served_inside_iff (block : Bytes) (request : Request)
    (parsed : parse block = some request) :
    (∀ (canOpen : Bytes → Bool), ∀ path ∈ servedPath canOpen request, InsideServed path) ↔
      StaysInside request := by
  have whole := prefixed_eq (parse_path_printable parsed)
  obtain ⟨notFoundInside, indexInside⟩ := own_pages_inside
  constructor
  · intro inside
    by_cases isPost : request.type = .POST
    · exact .inl isPost
    by_cases short : request.path.length ≤ 1
    · exact .inr (.inl short)
    have hasPath : request.hasPath = true := decide_eq_true (Nat.not_le.mp short)
    -- With every file there, the server gets what the request asks for.
    have served : servedPath (fun _ => true) request = some (prefixed request.path) := by
      simp [servedPath, isPost, hasPath, Client.executeScript, Response.createFileResponse,
        Response.loadFile]
    have pathInside := inside (fun _ => true) _ served
    rw [whole] at pathInside
    exact .inr (.inr (insideServed_iff.mp pathInside))
  · rintro stays canOpen file served
    unfold servedPath at served
    split at served
    · cases served
    · rename_i notPost
      have pathInside (hasPath : request.hasPath = true) :
          InsideServed (prefixed request.path) := by
        rw [whole, insideServed_iff]
        rcases stays with isPost | short | below
        · exact absurd isPost notPost
        · exact absurd (of_decide_eq_true hasPath) (Nat.not_lt.mpr short)
        · exact below
      split at served
      · rename_i script
        cases served
        exact pathInside (Bool.and_eq_true_iff.mp script).1
      · split at served
        · rename_i hasPath
          rcases createFileResponse_cases served with rfl | rfl
          · exact pathInside hasPath
          · exact notFoundInside
        · rcases createFileResponse_cases served with rfl | rfl
          · exact indexInside
          · exact notFoundInside

/-- A header block that asks for `path`. -/
def headerBlockFor (path : String) : Bytes :=
  ascii ("GET " ++ path ++ " HTTP/1.1\r\nHost: localhost\r\n\r\n")

/-- It goes up and comes down into `www` again. -/
theorem served_inside_iff_reentered : ∃ request,
    parse (headerBlockFor "/../www/index.html") = some request ∧ StaysInside request ∧
      ∀ (canOpen : Bytes → Bool), ∀ path ∈ servedPath canOpen request, InsideServed path := by
  have read : (parse (headerBlockFor "/../www/index.html")).map Request.path =
      some (ascii "/../www/index.html") := by decide +kernel
  obtain ⟨request, parsed, path⟩ := Option.map_eq_some_iff.mp read
  have stays : StaysInside request := by
    refine .inr (.inr (insideServed_iff.mp ?_))
    rw [path]
    decide +kernel
  exact ⟨request, parsed, stays, (served_inside_iff _ request parsed).mpr stays⟩

/-- The private key of the server lies beside the served directory. -/
theorem served_outside :
    ¬ ∀ (block : Bytes) (request : Request), parse block = some request →
      ∀ (canOpen : Bytes → Bool), ∀ path ∈ servedPath canOpen request, InsideServed path := by
  intro claimed
  have read : (parse (headerBlockFor "/../private.pem")).map (fun request =>
      (request.path, servedPath (fun _ => true) request)) =
        some (ascii "/../private.pem", some (ascii "www/../private.pem")) := by decide +kernel
  obtain ⟨request, parsed, both⟩ := Option.map_eq_some_iff.mp read
  have inside := claimed _ request parsed (fun _ => true) _ (Prod.mk.inj both).2
  exact absurd inside (by decide +kernel)

end Ivos.Http
