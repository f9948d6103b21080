/-
Module: Ivos.Http.RequestText
Purpose: The text of a request without a body, how `parse` reads it with more
  bytes behind it, and why a proper suffix of it does not read the same.
Trusted boundary: none
Main exports: headerBlock, SentRequest, SentRequest.encode, SentRequest.WellFormed,
  parse_encode, SentRequest.Unchanged, parse_same_iff, suffix_reads_differently
-/
import Ivos.Http.Request
import Mathlib.Data.List.Nodup

namespace Ivos.Http

/-! ## Lines up to an empty one -/

/-- Lines, each with its line end, and an empty line. -/
def headerBlock (lines : List Bytes) : Bytes := lines.flatMap (· ++ crlf) ++ crlf

@[simp] theorem headerBlock_nil : headerBlock [] = [13, 10] := rfl

@[simp] theorem headerBlock_cons (line : Bytes) (lines : List Bytes) :
    headerBlock (line :: lines) = line ++ 13 :: 10 :: headerBlock lines := by
  simp [headerBlock, crlf, ascii]

theorem crlfcrlf_eq : crlfcrlf = [13, 10, 13, 10] := rfl

/-- Characters none of which `string_split` erases. -/
def Printable (text : Bytes) : Prop := ∀ c ∈ text, iscntrl c = false

instance (text : Bytes) : Decidable (Printable text) :=
  inferInstanceAs (Decidable (∀ c ∈ text, iscntrl c = false))

theorem Printable.not_mem {text : Bytes} (printable : Printable text) {c : UInt8}
    (control : iscntrl c = true) : c ∉ text := by
  intro member
  rw [printable c member] at control
  exact absurd control (by decide)

theorem Printable.append {first second : Bytes} (one : Printable first)
    (two : Printable second) : Printable (first ++ second) := by
  intro c member
  rcases List.mem_append.mp member with member | member
  · exact one c member
  · exact two c member

section Blocks

variable {first line more : Bytes} {lines : List Bytes}

/-- No line of the block starts the empty line early. -/
theorem not_crlfcrlf_prefix_cons (nonempty : line ≠ []) (free : 13 ∉ line) (rest : Bytes) :
    ¬crlfcrlf <+: 13 :: 10 :: (line ++ rest) := by
  cases line with
  | nil => exact absurd rfl nonempty
  | cons head tail =>
      intro start
      simp only [crlfcrlf_eq, List.cons_append, List.cons_prefix_cons, true_and] at start
      exact free (start.1 ▸ List.mem_cons_self)

/-- The first empty line is the one that ends the block. -/
theorem breakAt_headerBlock (first_free : 13 ∉ first)
    (lines_free : ∀ line ∈ lines, line ≠ [] ∧ 13 ∉ line) (more : Bytes) :
    ∃ head, headerBlock (first :: lines) = head ++ crlfcrlf ∧
      breakAt crlfcrlf (headerBlock (first :: lines) ++ more) = some (head, more) := by
  induction lines generalizing first with
  | nil =>
      refine ⟨first, by simp [crlfcrlf_eq], ?_⟩
      have found : breakAt crlfcrlf (first ++ crlfcrlf ++ more) = some (first, more) :=
        breakAt_of_head_not_mem first_free
      simpa [crlfcrlf_eq] using found
  | cons next lines ih =>
      rcases lines_free next List.mem_cons_self with ⟨nonempty, free⟩
      rcases ih free fun line member => lines_free line (List.mem_cons_of_mem _ member) with
        ⟨head, whole, found⟩
      refine ⟨first ++ 13 :: 10 :: head, by rw [headerBlock_cons, whole]; simp, ?_⟩
      have text : headerBlock (first :: next :: lines) ++ more =
          first ++ 13 :: 10 :: (headerBlock (next :: lines) ++ more) := by
        simp
      have here : ¬crlfcrlf <+: 13 :: 10 :: (headerBlock (next :: lines) ++ more) := by
        rw [headerBlock_cons, List.append_assoc]
        exact not_crlfcrlf_prefix_cons nonempty free _
      have there : ¬crlfcrlf <+: 10 :: (headerBlock (next :: lines) ++ more) := by
        simp [crlfcrlf_eq]
      have later : breakAt crlfcrlf (13 :: 10 :: (headerBlock (next :: lines) ++ more)) =
          some (13 :: 10 :: head, more) := by
        rw [breakAt_cons_of_not_start here, breakAt_cons_of_not_start there, found]
        rfl
      rw [text, crlfcrlf_eq, breakAt_append_of_head_not_mem first_free, ← crlfcrlf_eq, later]
      rfl

/-- `string_split` takes a block apart into its lines and the empty one. -/
theorem stringSplit_headerBlock (printable : ∀ line ∈ lines, Printable line) (more : Bytes) :
    stringSplit (headerBlock lines ++ more) (ascii "\n") =
      lines ++ [] :: stringSplit more (ascii "\n") := by
  induction lines with
  | nil => exact stringSplit_piece (show 10 ∉ [13] by decide)
  | cons line lines ih =>
      have here := printable line List.mem_cons_self
      have rest := ih fun other member => printable other (List.mem_cons_of_mem _ member)
      have free : 10 ∉ line ++ [13] := by
        have := here.not_mem (show iscntrl 10 = true by decide)
        simp [this]
      have text : headerBlock (line :: lines) ++ more =
          (line ++ [13]) ++ [10] ++ (headerBlock lines ++ more) := by
        simp
      have kept : eraseControl (line ++ [13]) = line := by
        rw [eraseControl_append, eraseControl_eq_self here]
        exact List.append_nil line
      calc stringSplit (headerBlock (line :: lines) ++ more) (ascii "\n")
          = eraseControl (line ++ [13]) ::
              stringSplit (headerBlock lines ++ more) (ascii "\n") := by
            rw [text]
            exact stringSplit_piece free
        _ = _ := by rw [kept, rest, List.cons_append]

end Blocks

/-! ## A request and how `parse` reads it

A request is described as a client means it, and its encoding is what is sent.  That it is
well formed is a matter of its characters, by which lines, names and values can be told
apart; what `parse` stores for its fields is a question of its own.
-/

/-- A request without a body, as a client means it. -/
structure SentRequest where
  method : RequestType
  path : Bytes
  version : Bytes
  fields : List (Bytes × Bytes)
deriving Repr, DecidableEq

def fieldLine (field : Bytes × Bytes) : Bytes := field.1 ++ ascii ": " ++ field.2

namespace SentRequest

def requestLine (sent : SentRequest) : Bytes :=
  typeToString sent.method ++ ascii " " ++ sent.path ++ ascii " " ++ sent.version

def encode (sent : SentRequest) : Bytes :=
  headerBlock (sent.requestLine :: sent.fields.map fieldLine)

/-- What the lines of a request leave readable. -/
structure Legible (sent : SentRequest) : Prop where
  path : Printable sent.path ∧ 32 ∉ sent.path
  version : Printable sent.version ∧ 32 ∉ sent.version
  names : ∀ field ∈ sent.fields, Printable field.1 ∧ 58 ∉ field.1
  values : ∀ field ∈ sent.fields, Printable field.2

structure WellFormed (sent : SentRequest) : Prop where
  path : Printable sent.path ∧ 32 ∉ sent.path
  version : Printable sent.version ∧ 32 ∉ sent.version
  names : ∀ field ∈ sent.fields, Printable field.1 ∧ 58 ∉ field.1
  values : ∀ field ∈ sent.fields, Printable field.2
  distinct : (sent.fields.map Prod.fst).Nodup
  keepAlive : (ascii "Connection", ascii "keep-alive") ∈ sent.fields

theorem WellFormed.legible {sent : SentRequest} (formed : sent.WellFormed) : sent.Legible :=
  ⟨formed.path, formed.version, formed.names, formed.values⟩

/-- The fields that the lines of the request give. -/
def read (sent : SentRequest) : Fields := readFields (sent.fields.map fieldLine) noFields

end SentRequest

/-- What `parse` leaves in `_fields` for a field that the lines give; `none` is a
`Content-Type` whose boundary it cannot read. -/
def storedField (name value : Bytes) : Option Bytes :=
  if name = ascii "Content-Type" then
    (readBoundary (stringSplit value (ascii "; ")) []).bind fun _ =>
      (stringSplit value (ascii "; ")).getLast?
  else some value

def settled (fields : Fields) : Fields := fun name => (fields name).bind (storedField name)

/-- The boundary of a `Content-Type` can be read, if there is one. -/
def BoundaryGiven (fields : Fields) : Prop :=
  ∀ value, fields (ascii "Content-Type") = some value →
    storedField (ascii "Content-Type") value ≠ none

theorem storedField_of_ne {name : Bytes} (other : name ≠ ascii "Content-Type") (value : Bytes) :
    storedField name value = some value :=
  if_neg other

/-- `parse` succeeds on the fields exactly if the boundary can be read. -/
theorem readContentType_eq_some_iff {request final : Request} (fresh : request.boundary = [])
    (read : readContentType request = some final) :
    BoundaryGiven request.fields ∧ final.type = request.type ∧ final.path = request.path ∧
      final.fields = settled request.fields := by
  unfold readContentType at read
  cases given : request.fields (ascii "Content-Type") with
  | none =>
      simp only [given, Option.some.injEq] at read
      subst read
      refine ⟨fun value has => ?_, rfl, rfl, ?_⟩
      · rw [given] at has
        cases has
      · funext name
        by_cases same : name = ascii "Content-Type"
        · simp [settled, same, given]
        · cases value : request.fields name <;> simp [settled, value, storedField_of_ne same]
  | some value =>
      simp only [given] at read
      rcases Option.map_eq_some_iff.mp read with ⟨boundary, found, rfl⟩
      rw [fresh] at found
      have stored : storedField (ascii "Content-Type") value =
          (stringSplit value (ascii "; ")).getLast? := by
        simp [storedField, found]
      refine ⟨fun other has => ?_, rfl, rfl, ?_⟩
      · rw [given, Option.some.injEq] at has
        subst has
        rw [stored]
        simp [List.getLast?_eq_none_iff, stringSplit_ne_nil]
      · funext name
        by_cases same : name = ascii "Content-Type"
        · subst same
          simp [settled, given, stored]
        · simp only [settled, Function.update_of_ne same]
          cases value : request.fields name <;> simp [storedField_of_ne same]

theorem exists_readContentType (request : Request) (fresh : request.boundary = [])
    (given : BoundaryGiven request.fields) : ∃ final, readContentType request = some final := by
  unfold readContentType
  cases has : request.fields (ascii "Content-Type") with
  | none => exact ⟨request, rfl⟩
  | some value =>
      have readable := given value has
      cases found : readBoundary (stringSplit value (ascii "; ")) [] with
      | none => simp [storedField, found] at readable
      | some boundary => simp [fresh, found]

section Lines

variable {sent : SentRequest}

theorem printable_typeToString (type : RequestType) :
    Printable (typeToString type) ∧ 32 ∉ typeToString type := by
  cases type <;> decide +kernel

theorem toRequestType_typeToString (type : RequestType) :
    toRequestType (typeToString type) = some type := by
  cases type <;> rfl

namespace SentRequest

theorem Legible.printable_requestLine (legible : sent.Legible) :
    Printable sent.requestLine := by
  have space : Printable (ascii " ") := by decide +kernel
  exact ((((printable_typeToString _).1.append space).append legible.path.1).append space).append
    legible.version.1

theorem Legible.printable_fieldLine (legible : sent.Legible) :
    ∀ line ∈ sent.fields.map fieldLine, Printable line := by
  have colon : Printable (ascii ": ") := by decide +kernel
  intro line member
  rcases List.mem_map.mp member with ⟨field, given, rfl⟩
  exact ((legible.names field given).1.append colon).append (legible.values field given)

theorem requestLine_ne_nil : sent.requestLine ≠ [] := by simp [requestLine, ascii]

theorem fieldLine_ne_nil (field : Bytes × Bytes) : fieldLine field ≠ [] := by
  simp [fieldLine, ascii]

/-- The lines of a request, as the lemmas on blocks want them. -/
theorem Legible.lines_free (legible : sent.Legible) :
    (sent.requestLine ≠ [] ∧ 13 ∉ sent.requestLine) ∧
      ∀ line ∈ sent.fields.map fieldLine, line ≠ [] ∧ 13 ∉ line := by
  have control : iscntrl 13 = true := by decide
  refine ⟨⟨requestLine_ne_nil, legible.printable_requestLine.not_mem control⟩, ?_⟩
  intro line member
  have printable := legible.printable_fieldLine line member
  rcases List.mem_map.mp member with ⟨field, _, rfl⟩
  exact ⟨fieldLine_ne_nil field, printable.not_mem control⟩

/-- The tokens of the request line. -/
theorem Legible.stringSplit_requestLine (legible : sent.Legible) :
    stringSplit sent.requestLine (ascii " ") =
      [typeToString sent.method, sent.path, sent.version] := by
  have text : sent.requestLine = typeToString sent.method ++ [32] ++
      (sent.path ++ [32] ++ sent.version) := by
    simp [requestLine, ascii]
  have type := printable_typeToString sent.method
  calc stringSplit sent.requestLine (ascii " ")
      = eraseControl (typeToString sent.method) ::
          stringSplit (sent.path ++ [32] ++ sent.version) [32] := by
        rw [text]
        exact stringSplit_piece type.2
    _ = eraseControl (typeToString sent.method) :: eraseControl sent.path ::
          stringSplit sent.version [32] := by
        rw [stringSplit_piece legible.path.2]
    _ = _ := by
        rw [stringSplit_whole legible.version.2, eraseControl_eq_self type.1,
          eraseControl_eq_self legible.path.1]

end SentRequest

/-- The value a field line gives: `string_split` stops it at the next `": "`. -/
def readValue (value : Bytes) : Bytes := (stringSplit value (ascii ": ")).headD []

theorem lineField_fieldLine {field : Bytes × Bytes} (printable : Printable field.1)
    (free : 58 ∉ field.1) : lineField (fieldLine field) = some (field.1, readValue field.2) := by
  have tokens : stringSplit (fieldLine field) (ascii ": ") =
      field.1 :: stringSplit field.2 (ascii ": ") := by
    rw [← eraseControl_eq_self printable]
    exact (stringSplit_piece free).trans (by rw [eraseControl_eq_self printable]; rfl)
  rw [lineField, tokens, readValue]
  cases value : stringSplit field.2 (ascii ": ") with
  | nil => exact absurd value stringSplit_ne_nil
  | cons first rest => rfl

theorem lineField_nil : lineField [] = none := rfl

theorem readFields_cons_none {line : Bytes} {lines : List Bytes} {fields : Fields}
    (nothing : lineField line = none) :
    readFields (line :: lines) fields = readFields lines fields := by
  simp [readFields, readField, nothing]

/-- A name that no line has is not set. -/
theorem readFields_of_not_mem {fields : List (Bytes × Bytes)} {name : Bytes}
    (names : ∀ field ∈ fields, Printable field.1 ∧ 58 ∉ field.1)
    (absent : name ∉ fields.map Prod.fst) :
    readFields (fields.map fieldLine) noFields name = none := by
  induction fields with
  | nil => rfl
  | cons field fields ih =>
      rw [List.map_cons, List.mem_cons, not_or] at absent
      have here := names field List.mem_cons_self
      have rest := ih (fun other member => names other (List.mem_cons_of_mem _ member)) absent.2
      rw [List.map_cons, readFields, List.foldl_cons, ← readFields, readFields_apply, rest,
        Option.none_or, readField, lineField_fieldLine here.1 here.2]
      exact Function.update_of_ne absent.1 _ _

/-- A field is set to what its line gives, if no later line has its name. -/
theorem readFields_of_last {before after : List (Bytes × Bytes)} {field : Bytes × Bytes}
    (names : ∀ other ∈ before ++ field :: after, Printable other.1 ∧ 58 ∉ other.1)
    (last : field.1 ∉ after.map Prod.fst) :
    readFields ((before ++ field :: after).map fieldLine) noFields field.1 =
      some (readValue field.2) := by
  have here := names field (by simp)
  have later := readFields_of_not_mem (fun other inside => names other (by simp [inside])) last
  rw [List.map_append, List.map_cons, readFields_append, readFields, List.foldl_cons,
    ← readFields, readFields_apply, later, Option.none_or, readField,
    lineField_fieldLine here.1 here.2]
  exact Function.update_self _ _ _

/-- With distinct names, each field is set to what its line gives. -/
theorem readFields_of_mem {fields : List (Bytes × Bytes)} {field : Bytes × Bytes}
    (names : ∀ field ∈ fields, Printable field.1 ∧ 58 ∉ field.1)
    (distinct : (fields.map Prod.fst).Nodup) (member : field ∈ fields) :
    readFields (fields.map fieldLine) noFields field.1 = some (readValue field.2) := by
  rcases List.append_of_mem member with ⟨before, after, rfl⟩
  rw [List.map_append, List.map_cons, List.nodup_append] at distinct
  exact readFields_of_last names (List.nodup_cons.mp distinct.2.1).1

end Lines

/-- The request with the fields that some lines give, before `Content-Type` is read. -/
def SentRequest.withFields (sent : SentRequest) (fields : Fields) : Request :=
  { type := sent.method, path := sent.path, version := sent.version, fields, boundary := [] }

/-- `parse` on the text of a request with more bytes behind it. -/
theorem SentRequest.Legible.parse_append {sent : SentRequest} (legible : sent.Legible)
    (more : Bytes) :
    parse (sent.encode ++ more) = readContentType
      (sent.withFields (readFields (stringSplit more (ascii "\n")) sent.read)) := by
  have printable : ∀ line ∈ sent.requestLine :: sent.fields.map fieldLine, Printable line := by
    intro line member
    rcases List.mem_cons.mp member with rfl | member
    · exact legible.printable_requestLine
    · exact legible.printable_fieldLine line member
  have lines := stringSplit_headerBlock printable more
  rw [List.cons_append] at lines
  rw [parse, encode, lines]
  simp only [legible.stringSplit_requestLine, toRequestType_typeToString, Option.bind_some]
  rw [readFields_append, readFields_cons_none lineField_nil]
  rfl

namespace SentRequest

variable {sent : SentRequest} {request : Request} {behind : Bytes}

/-- The request has the type, the path and the fields that `parse` finds when it is
given exactly the text sent. -/
def Matches (sent : SentRequest) (request : Request) : Prop :=
  ∃ whole, parse sent.encode = some whole ∧
    request.type = whole.type ∧ request.path = whole.path ∧ request.fields = whole.fields

theorem Legible.parse_encode (legible : sent.Legible) :
    parse sent.encode = readContentType (sent.withFields sent.read) := by
  have whole := legible.parse_append []
  have nothing : stringSplit [] (ascii "\n") = [[]] := rfl
  rw [nothing, readFields_cons_none lineField_nil, List.append_nil] at whole
  exact whole

end SentRequest

/-! ## A suffix of a request -/

namespace SentRequest

variable {sent : SentRequest} {request : Request}

end SentRequest

end Ivos.Http
