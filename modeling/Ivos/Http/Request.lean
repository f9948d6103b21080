/-
Module: Ivos.Http.Request
Purpose: `string_split` and `Request::parse`, and how they read a text that is
  put together from lines.
Trusted boundary: allocating a string succeeds
Main exports: Bytes, ascii, cString, stringSplit, Request, parse, keepAlive,
  stringSplit_of_found, stringSplit_of_missing, stringSplit_rule, head_stringSplit_eq_iff,
  getLast_stringSplit_eq_iff, readFields_apply
-/
import Ivos.Library.Search
import Mathlib.Data.List.Basic
import Mathlib.Data.List.TakeWhile
import Mathlib.Logic.Function.Basic

namespace Ivos.Http

/-!
Strings and buffers are lists of bytes.  A C function that is given a pointer sees the bytes
up to the first NUL, which may lie behind the buffer: what lies there is an argument
wherever it can be read.  Allocating a string does not fail.
-/

/-- The characters of a `std::string` or of a buffer. -/
abbrev Bytes := List UInt8

/-- A property of all bytes of a text is tested along the text, not over the 256 bytes there
are. -/
instance (priority := high) decidableForallByte (property : UInt8 → Prop)
    [DecidablePred property] (text : Bytes) : Decidable (∀ c ∈ text, property c) :=
  List.decidableBAll property text

/-- The bytes of a string literal. -/
def ascii (text : String) : Bytes :=
  text.toList.map fun character => UInt8.ofNat character.toNat

/-- The bytes of a literal are those of its characters, with no need to decode it. -/
theorem ascii_ofList (characters : List Char) : ascii (String.ofList characters) =
    characters.map fun character => UInt8.ofNat character.toNat := by
  rw [ascii, String.toList_ofList]

def crlf : Bytes := ascii "\r\n"

def crlfcrlf : Bytes := ascii "\r\n\r\n"

/-- What a C string function sees of the memory it is pointed at. -/
def cString (memory : Bytes) : Bytes := memory.takeWhile (· != 0)

theorem cString_append {first : Bytes} (noNul : 0 ∉ first) (second : Bytes) :
    cString (first ++ second) = first ++ cString second := by
  apply List.takeWhile_append_of_pos
  intro character member
  exact bne_iff_ne.mpr fun nul => noNul (nul ▸ member)

theorem cString_eq_self {text : Bytes} (noNul : 0 ∉ text) : cString text = text := by
  simpa [cString] using cString_append noNul []

/-- The text up to the first empty line that is seen stands in the memory, without a NUL. -/
theorem take_emptyLine {memory head after : Bytes}
    (found : breakAt crlfcrlf (cString memory) = some (head, after)) :
    memory.take (head.length + 4) = head ++ crlfcrlf ∧ 0 ∉ head ++ crlfcrlf := by
  have seen : head ++ crlfcrlf <+: cString memory := ⟨after, (breakAt_sound found).symm⟩
  have size : head.length + 4 = (head ++ crlfcrlf).length := by simp [crlfcrlf, ascii]
  constructor
  · rw [size]
    exact (List.prefix_iff_eq_take.mp (seen.trans (List.takeWhile_prefix _))).symm
  · intro nul
    have kept := List.mem_takeWhile_imp (seen.subset nul)
    exact absurd kept (by decide)

/-- `iscntrl` in the C locale. -/
def iscntrl (character : UInt8) : Bool := character < 32 || character == 127

/-- `token.erase(std::remove_if(token.begin(), token.end(), iscntrl), token.end())`. -/
def eraseControl (token : Bytes) : Bytes := token.filter fun character => !iscntrl character

/-! ## `string_split` -/

/-- The loop of `string_split`.  Each round shortens `input` by the delimiter at
least, so that the length of the input is enough fuel. -/
def splitLoop (delimiter : Bytes) : Nat → Bytes → List Bytes
  | 0, input => [input]
  | fuel + 1, input =>
      match breakAt delimiter input with
      | none => [input]
      | some (token, rest) => eraseControl token :: splitLoop delimiter fuel rest

def stringSplit (input delimiter : Bytes) : List Bytes :=
  splitLoop delimiter input.length input

section Splitting

variable {input delimiter token rest : Bytes}

theorem length_rest_lt (nonempty : delimiter ≠ [])
    (found : breakAt delimiter input = some (token, rest)) : rest.length < input.length := by
  have whole := congrArg List.length (breakAt_sound found)
  have taken : 0 < delimiter.length := List.length_pos_iff.mpr nonempty
  simp only [List.length_append] at whole
  omega

theorem splitLoop_fuel (nonempty : delimiter ≠ []) {fuel more : Nat}
    (enough : input.length ≤ fuel) (also : input.length ≤ more) :
    splitLoop delimiter fuel input = splitLoop delimiter more input := by
  induction fuel generalizing input more with
  | zero =>
      have empty : input = [] := List.length_eq_zero_iff.mp (Nat.le_zero.mp enough)
      cases more with
      | zero => rfl
      | succ more => simp [splitLoop, empty, breakAt, nonempty]
  | succ fuel ih =>
      cases found : breakAt delimiter input with
      | none => cases more <;> simp [splitLoop, found]
      | some parts =>
          have shorter := length_rest_lt nonempty found
          cases more with
          | zero => omega
          | succ more =>
              have next : splitLoop delimiter fuel parts.2 = splitLoop delimiter more parts.2 :=
                ih (by omega) (by omega)
              simp only [splitLoop, found, next]

theorem stringSplit_of_found (nonempty : delimiter ≠ [])
    (found : breakAt delimiter input = some (token, rest)) :
    stringSplit input delimiter = eraseControl token :: stringSplit rest delimiter := by
  have shorter := length_rest_lt nonempty found
  rw [stringSplit, splitLoop_fuel nonempty (Nat.le_refl _) (Nat.le_succ input.length), splitLoop,
    found]
  simp only [stringSplit, List.cons.injEq, true_and]
  exact splitLoop_fuel nonempty (by omega) (Nat.le_refl _)

theorem stringSplit_of_missing (missing : breakAt delimiter input = none) :
    stringSplit input delimiter = [input] := by
  cases input with
  | nil => rfl
  | cons first others => simp [stringSplit, splitLoop, missing]

theorem stringSplit_ne_nil : stringSplit input delimiter ≠ [] := by
  cases input with
  | nil => simp [stringSplit, splitLoop]
  | cons first others =>
      cases found : breakAt delimiter (first :: others) with
      | none => simp [stringSplit, splitLoop, found]
      | some parts => simp [stringSplit, splitLoop, found]

/-- A piece in which the delimiter's first character does not occur is the first
token. -/
theorem stringSplit_piece {head : UInt8} {tail piece : Bytes} (absent : head ∉ piece) :
    stringSplit (piece ++ (head :: tail) ++ rest) (head :: tail) =
      eraseControl piece :: stringSplit rest (head :: tail) :=
  stringSplit_of_found (List.cons_ne_nil _ _) (breakAt_of_head_not_mem absent)

theorem stringSplit_whole {head : UInt8} {tail piece : Bytes} (absent : head ∉ piece) :
    stringSplit piece (head :: tail) = [piece] := by
  apply stringSplit_of_missing
  rw [breakAt_eq_none_iff]
  intro occurs
  exact absent (occurs.subset List.mem_cons_self)

theorem eraseControl_eq_self {text : Bytes} (printable : ∀ c ∈ text, iscntrl c = false) :
    eraseControl text = text := by
  apply List.filter_eq_self.mpr
  intro c member
  rw [printable c member, Bool.not_false]

@[simp] theorem eraseControl_append (first second : Bytes) :
    eraseControl (first ++ second) = eraseControl first ++ eraseControl second :=
  List.filter_append _ _

theorem length_eraseControl_le (text : Bytes) : (eraseControl text).length ≤ text.length :=
  List.length_filter_le _ _

/-- A text without the delimiter is one token. -/
theorem stringSplit_of_absent (absent : ¬delimiter <:+: input) :
    stringSplit input delimiter = [input] :=
  stringSplit_of_missing ((breakAt_eq_none_iff).mpr absent)

/-- A text with the delimiter is a token and the split of the rest. -/
theorem stringSplit_of_occurs (nonempty : delimiter ≠ []) (occurs : delimiter <:+: input) :
    ∃ before after, input = before ++ delimiter ++ after ∧
      stringSplit input delimiter = eraseControl before :: stringSplit after delimiter := by
  cases found : breakAt delimiter input with
  | none => exact absurd occurs ((breakAt_eq_none_iff).mp found)
  | some parts =>
      exact ⟨parts.1, parts.2, breakAt_sound found, stringSplit_of_found nonempty found⟩

/-- The first token is the whole text exactly if the delimiter does not occur. -/
theorem head_stringSplit_eq_iff (nonempty : delimiter ≠ []) :
    (stringSplit input delimiter).headD [] = input ↔ ¬delimiter <:+: input := by
  constructor
  · intro whole occurs
    obtain ⟨before, after, parts, split⟩ := stringSplit_of_occurs nonempty occurs
    have taken : 0 < delimiter.length := List.length_pos_iff.mpr nonempty
    have shorter := length_eraseControl_le before
    rw [split, List.headD_cons] at whole
    have size := congrArg List.length parts
    rw [← whole] at size
    simp only [List.length_append] at size
    omega
  · intro absent
    rw [stringSplit_of_absent absent]
    rfl

/-- To show something of every split: a text without the delimiter is one token, and a
piece in front adds one. -/
theorem stringSplit_rule (nonempty : delimiter ≠ []) {motive : Bytes → List Bytes → Prop}
    (whole : ∀ text, ¬delimiter <:+: text → motive text [text])
    (piece : ∀ before after tokens, motive after tokens →
      motive (before ++ delimiter ++ after) (eraseControl before :: tokens)) (input : Bytes) :
    motive input (stringSplit input delimiter) := by
  induction size : input.length using Nat.strong_induction_on generalizing input with
  | _ length ih =>
      by_cases occurs : delimiter <:+: input
      · obtain ⟨before, after, rfl, split⟩ := stringSplit_of_occurs nonempty occurs
        have taken : 0 < delimiter.length := List.length_pos_iff.mpr nonempty
        have shorter : after.length < length := by
          simp only [List.length_append] at size
          omega
        rw [split]
        exact piece before after _ (ih after.length shorter after rfl)
      · rw [stringSplit_of_absent occurs]
        exact whole input occurs

/-- The last token is an end of the text without the delimiter. -/
theorem exists_last_token (nonempty : delimiter ≠ []) (input : Bytes) :
    ∃ tokens last, stringSplit input delimiter = tokens ++ [last] ∧ last <:+ input ∧
      ¬delimiter <:+: last := by
  apply stringSplit_rule nonempty (motive := fun input tokens => ∃ front last,
    tokens = front ++ [last] ∧ last <:+ input ∧ ¬delimiter <:+: last)
  · intro text absent
    exact ⟨[], text, rfl, List.suffix_rfl, absent⟩
  · rintro before after _ ⟨front, last, rfl, inside, absent⟩
    exact ⟨eraseControl before :: front, last, rfl, inside.trans (List.suffix_append _ _), absent⟩

/-- The last token is the whole text exactly if the delimiter does not occur. -/
theorem getLast_stringSplit_eq_iff (nonempty : delimiter ≠ []) :
    (stringSplit input delimiter).getLast? = some input ↔ ¬delimiter <:+: input := by
  constructor
  · intro whole
    obtain ⟨tokens, last, split, -, absent⟩ := exists_last_token nonempty input
    rw [split, List.getLast?_concat, Option.some.injEq] at whole
    rwa [whole] at absent
  · intro absent
    rw [stringSplit_of_absent absent]
    rfl

/-- There is a second token exactly if the delimiter occurs. -/
theorem second_stringSplit_iff (nonempty : delimiter ≠ []) :
    (stringSplit input delimiter)[1]?.isSome ↔ delimiter <:+: input := by
  constructor
  · intro second
    by_contra absent
    rw [stringSplit_of_absent absent] at second
    cases second
  · intro occurs
    obtain ⟨before, after, -, split⟩ := stringSplit_of_occurs nonempty occurs
    rw [split]
    cases rest : stringSplit after delimiter with
    | nil => exact absurd rest stringSplit_ne_nil
    | cons head tail => rfl

end Splitting

/-! ## `Request`

`parse` takes its text apart with `string_split` alone.  Where it indexes tokens that are
not there, or `_string_to_type.at` throws, there is no request.
-/

inductive RequestType where
  | GET
  | POST
  | HEAD
  | OPTIONS
  | PUT
  | DELETE
deriving Repr, DecidableEq

/-- `_string_to_type`. -/
def stringToType : List (Bytes × RequestType) :=
  [(ascii "GET", .GET), (ascii "POST", .POST), (ascii "OPTIONS", .OPTIONS),
    (ascii "HEAD", .HEAD), (ascii "PUT", .PUT), (ascii "DELETE", .DELETE)]

/-- `_type_to_string`. -/
def typeToString : RequestType → Bytes
  | .GET => ascii "GET"
  | .POST => ascii "POST"
  | .OPTIONS => ascii "OPTIONS"
  | .HEAD => ascii "HEAD"
  | .PUT => ascii "PUT"
  | .DELETE => ascii "DELETE"

/-- `_string_to_type.at`, which throws where this is `none`. -/
def toRequestType (input : Bytes) : Option RequestType := stringToType.lookup input

/-- `std::map<std::string, std::string>`. -/
abbrev Fields := Bytes → Option Bytes

def noFields : Fields := fun _ => none

structure Request where
  type : RequestType
  path : Bytes
  version : Bytes
  fields : Fields
  boundary : Bytes

/-- What a line holds for the fields: its first two tokens, if it has two. -/
def lineField (line : Bytes) : Option (Bytes × Bytes) :=
  match stringSplit line (ascii ": ") with
  | name :: value :: _ => some (name, value)
  | _ => none

/-- One round of the loop over the lines of `parse`. -/
def readField (fields : Fields) (line : Bytes) : Fields :=
  match lineField line with
  | some (name, value) => Function.update fields name (some value)
  | none => fields

def readFields (lines : List Bytes) (fields : Fields) : Fields := lines.foldl readField fields

/-- The loop of `parse` over the pieces of `Content-Type`; `none` is a piece with
`boundary` in it and no second token. -/
def readBoundary : List Bytes → Bytes → Option Bytes
  | [], boundary => some boundary
  | token :: tokens, boundary =>
      match breakAt (ascii "boundary") token with
      | none => readBoundary tokens boundary
      | some _ => (stringSplit token (ascii "="))[1]?.bind (readBoundary tokens)

/-- The part of `parse` behind the loop over the lines.  `string_split` takes the
field by reference and leaves its last piece in it. -/
def readContentType (request : Request) : Option Request :=
  match request.fields (ascii "Content-Type") with
  | none => some request
  | some value =>
      let tokens := stringSplit value (ascii "; ")
      (readBoundary tokens request.boundary).map fun boundary =>
        { request with
          fields := Function.update request.fields (ascii "Content-Type") tokens.getLast?
          boundary := boundary }

/-- `parse`.  `none` stands for `_string_to_type.at` throwing and for an index
behind the end of `tokens`. -/
def parse (request : Bytes) : Option Request :=
  match stringSplit request (ascii "\n") with
  | [] => none
  | line :: lines =>
      match stringSplit line (ascii " ") with
      | type :: path :: version :: _ =>
          (toRequestType type).bind fun type =>
            readContentType
              { type, path, version, fields := readFields lines noFields, boundary := [] }
      | _ => none

/-- `keep_alive`. -/
def Request.keepAlive (request : Request) : Bool :=
  request.fields (ascii "Connection") == some (ascii "keep-alive")

/-- `get_field`. -/
def Request.getField (request : Request) (field : Bytes) : Bytes :=
  (request.fields field).getD []

/-! ## Reading lines -/

/-- Later lines go before earlier ones. -/
theorem readFields_apply (lines : List Bytes) (fields : Fields) (name : Bytes) :
    readFields lines fields name = (readFields lines noFields name).or (fields name) := by
  induction lines generalizing fields with
  | nil => simp [readFields, noFields]
  | cons line lines ih =>
      have one : readField fields line name = (readField noFields line name).or (fields name) := by
        cases found : lineField line with
        | none => simp [readField, found, noFields]
        | some field =>
            by_cases same : name = field.1
            · simp [readField, found, same]
            · simp [readField, found, Function.update_of_ne same, noFields]
      calc readFields lines (readField fields line) name
          = (readFields lines noFields name).or (readField fields line name) := ih _
        _ = (readFields lines noFields name).or
              ((readField noFields line name).or (fields name)) := by rw [one]
        _ = ((readFields lines noFields name).or
              (readField noFields line name)).or (fields name) := by rw [Option.or_assoc]
        _ = (readFields lines (readField noFields line) name).or (fields name) := by
              rw [ih (readField noFields line)]

theorem readFields_append (first second : List Bytes) (fields : Fields) :
    readFields (first ++ second) fields = readFields second (readFields first fields) :=
  List.foldl_append

end Ivos.Http
