/-
Module: Ivos.Http.Boundary
Purpose: Which boundary of a multipart form `parse` finds in the `Content-Type`.
Trusted boundary: none
Main exports: bchars, FormType, FormType.Valid, FormType.Sent, piecesSeen,
  stringSplit_readValue, BoundaryFound, boundary_found_iff, equals_sign_cuts
-/
import Ivos.Http.HeaderFields

namespace Ivos.Http

/-- The characters of a boundary but the space. -/
def bchars : Bytes :=
  ascii "0123456789ABCDEFGHIJKLMNOPQRSTUVWXYZabcdefghijklmnopqrstuvwxyz'()+_,-./:=?"

/-- A media type with a boundary among its parameters. -/
structure FormType where
  mediaType : Bytes
  before : List Bytes
  boundary : Bytes
  after : List Bytes

namespace FormType

/-- The text `boundary=b`. -/
def parameter (form : FormType) : Bytes := ascii "boundary=" ++ form.boundary

def pieces (form : FormType) : List Bytes :=
  form.mediaType :: form.before ++ form.parameter :: form.after

/-- The value of the field `Content-Type`. -/
def value (form : FormType) : Bytes := (ascii "; ").intercalate form.pieces

structure Valid (form : FormType) : Prop where
  mediaType : Printable form.mediaType ∧ 32 ∉ form.mediaType ∧ 59 ∉ form.mediaType ∧
    61 ∉ form.mediaType
  boundary : form.boundary ≠ [] ∧ ∀ c ∈ form.boundary, c ∈ bchars
  /-- The other parameters do not hold the word. -/
  parameters : ∀ parameter ∈ form.before ++ form.after, Printable parameter ∧
    ¬ascii "; " <:+: parameter ∧ ¬ascii "boundary" <:+: parameter

/-- The request has the form's `Content-Type` in some place, and only there. -/
structure Sent (form : FormType) (sent : SentRequest) : Prop where
  legible : sent.Legible
  placed : ∃ before after,
    sent.fields = before ++ (ascii "Content-Type", form.value) :: after ∧
      ascii "Content-Type" ∉ (before ++ after).map Prod.fst

end FormType

/-- `get_boundary()` behind `parse`. -/
def BoundaryFound (sent : SentRequest) (boundary : Bytes) : Prop :=
  ∃ request, parse sent.encode = some request ∧ request.boundary = boundary

/-! ## The pieces that are seen

The value of a field is cut off at a second ": " in its line, and `string_split` erases
control characters from every token but the last.  What is left of the parameters is compared
with what was sent.
-/

/-- The pieces of a value that a ": " in it leaves. -/
def piecesSeen : List Bytes → List Bytes
  | [] => []
  | piece :: pieces =>
      match breakAt (ascii ": ") piece with
      | none => piece :: piecesSeen pieces
      | some (kept, _) => [kept]

/-- The value a line gives, with nothing erased from it. -/
def upToColon (value : Bytes) : Bytes :=
  match breakAt (ascii ": ") value with
  | none => value
  | some (kept, _) => kept

section Pieces

variable {pieces : List Bytes}

theorem readValue_of_printable {value : Bytes} (printable : Printable value) :
    readValue value = upToColon value := by
  unfold readValue upToColon
  cases found : breakAt (ascii ": ") value with
  | none =>
      rw [stringSplit_of_missing found]
      rfl
  | some parts =>
      have first : Printable parts.1 := by
        intro c member
        apply printable
        rw [breakAt_sound found]
        simp [member]
      rw [stringSplit_of_found (by decide) found, List.headD_cons, eraseControl_eq_self first]

/-- A piece of which nothing is cut off. -/
theorem upToColon_append {piece rest : Bytes} (absent : breakAt (ascii ": ") piece = none) :
    upToColon (piece ++ ascii "; " ++ rest) = piece ++ ascii "; " ++ upToColon rest := by
  have passed : breakAt (ascii ": ") (piece ++ ascii "; " ++ rest) =
      (breakAt (ascii ": ") rest).map fun found => (piece ++ ascii "; " ++ found.1, found.2) := by
    have text : piece ++ ascii "; " ++ rest = piece ++ 59 :: ([32] ++ rest) := by
      simp [ascii]
    rw [text, breakAt_append_cons (by decide) (by decide) (breakAt_eq_none_iff.mp absent)]
    have blank : breakAt (ascii ": ") ([32] ++ rest) =
        (breakAt (ascii ": ") rest).map fun found => ([32] ++ found.1, found.2) :=
      breakAt_append_of_head_not_mem (by decide)
    rw [blank, Option.map_map]
    congr 1
    funext found
    simp [ascii]
  unfold upToColon
  rw [passed]
  cases breakAt (ascii ": ") rest with
  | none => rfl
  | some parts => rfl

/-- What is cut off begins in a piece. -/
theorem upToColon_of_found {piece rest kept others : Bytes}
    (found : breakAt (ascii ": ") piece = some (kept, others)) :
    upToColon (piece ++ rest) = kept := by
  unfold upToColon
  rw [breakAt_append rest found]

/-- The split of a value takes it apart into the pieces seen. -/
theorem stringSplit_upToColon (nonempty : pieces ≠ [])
    (plain : ∀ piece ∈ pieces, Printable piece ∧ ¬ascii "; " <:+: piece) :
    stringSplit (upToColon ((ascii "; ").intercalate pieces)) (ascii "; ") = piecesSeen pieces := by
  induction pieces with
  | nil => exact absurd rfl nonempty
  | cons piece rest ih =>
      obtain ⟨printable, whole⟩ := plain piece List.mem_cons_self
      unfold piecesSeen
      cases found : breakAt (ascii ": ") piece with
      | some parts =>
          have kept : parts.1 <+: piece := by
            rw [breakAt_sound found, List.append_assoc]
            exact List.prefix_append _ _
          have cut : upToColon ((ascii "; ").intercalate (piece :: rest)) = parts.1 := by
            cases rest with
            | nil =>
                rw [List.intercalate_singleton, ← List.append_nil piece]
                exact upToColon_of_found found
            | cons next rest =>
                rw [List.intercalate_cons_cons, List.append_assoc]
                exact upToColon_of_found found
          rw [cut]
          exact stringSplit_of_absent fun occurs => whole (occurs.trans kept.isInfix)
      | none =>
          cases rest with
          | nil =>
              have same : upToColon piece = piece := by rw [upToColon, found]
              rw [List.intercalate_singleton, same]
              exact stringSplit_of_absent whole
          | cons next rest =>
              have later := ih (List.cons_ne_nil _ _) fun other member =>
                plain other (List.mem_cons_of_mem _ member)
              rw [List.intercalate_cons_cons, upToColon_append found, ← later]
              have first : breakAt (ascii "; ") (piece ++ ascii "; " ++
                  upToColon ((ascii "; ").intercalate (next :: rest))) =
                    some (piece, upToColon ((ascii "; ").intercalate (next :: rest))) := by
                rw [List.append_assoc]
                exact breakAt_pair (by decide) whole
              rw [stringSplit_of_found (by decide) first, eraseControl_eq_self printable]

/-- In front of a ": " everything is seen. -/
theorem piecesSeen_append {first second : List Bytes}
    (absent : ∀ piece ∈ first, ¬ascii ": " <:+: piece) :
    piecesSeen (first ++ second) = first ++ piecesSeen second := by
  induction first with
  | nil => rfl
  | cons piece first ih =>
      have here := breakAt_eq_none_iff.mpr (absent piece List.mem_cons_self)
      have rest := ih fun other member => absent other (List.mem_cons_of_mem _ member)
      simp only [List.cons_append, piecesSeen, here, rest]

/-- Behind a ": " nothing is seen. -/
theorem piecesSeen_append_of_found {first second : List Bytes} {piece : Bytes}
    (member : piece ∈ first) (occurs : ascii ": " <:+: piece) :
    piecesSeen (first ++ second) = piecesSeen first := by
  induction first with
  | nil => cases member
  | cons head first ih =>
      cases found : breakAt (ascii ": ") head with
      | some parts => simp only [List.cons_append, piecesSeen, found]
      | none =>
          have later : piece ∈ first := by
            rcases List.mem_cons.mp member with rfl | later
            · exact absurd occurs (breakAt_eq_none_iff.mp found)
            · exact later
          simp only [List.cons_append, piecesSeen, found, ih later]

/-- What is seen is a piece or the front of one. -/
theorem prefix_of_mem_piecesSeen {seen : Bytes} (member : seen ∈ piecesSeen pieces) :
    ∃ piece ∈ pieces, seen <+: piece := by
  induction pieces with
  | nil => cases member
  | cons piece pieces ih =>
      unfold piecesSeen at member
      cases found : breakAt (ascii ": ") piece with
      | none =>
          rw [found] at member
          rcases List.mem_cons.mp member with rfl | later
          · exact ⟨_, List.mem_cons_self, List.prefix_rfl⟩
          · obtain ⟨other, inside, front⟩ := ih later
            exact ⟨other, List.mem_cons_of_mem _ inside, front⟩
      | some parts =>
          rw [found, List.mem_singleton] at member
          refine ⟨piece, List.mem_cons_self, ?_⟩
          rw [member, breakAt_sound found, List.append_assoc]
          exact List.prefix_append _ _

end Pieces

/-! ## The boundary -/

section Reading

variable {form : FormType}

theorem readBoundary_append (first second : List Bytes) (boundary : Bytes) :
    readBoundary (first ++ second) boundary =
      (readBoundary first boundary).bind (readBoundary second) := by
  induction first generalizing boundary with
  | nil => rfl
  | cons token first ih =>
      simp only [List.cons_append, readBoundary]
      cases breakAt (ascii "boundary") token with
      | none => exact ih boundary
      | some parts =>
          cases (stringSplit token (ascii "="))[1]? with
          | none => rfl
          | some value => exact ih value

/-- Pieces without the word change nothing. -/
theorem readBoundary_of_absent {tokens : List Bytes}
    (absent : ∀ token ∈ tokens, ¬ascii "boundary" <:+: token) (boundary : Bytes) :
    readBoundary tokens boundary = some boundary := by
  induction tokens with
  | nil => rfl
  | cons token tokens ih =>
      have here := breakAt_eq_none_iff.mpr (absent token List.mem_cons_self)
      rw [readBoundary, here]
      exact ih fun other member => absent other (List.mem_cons_of_mem _ member)

/-- The fronts of pieces without the word are without it. -/
theorem readBoundary_piecesSeen {pieces : List Bytes}
    (absent : ∀ piece ∈ pieces, ¬ascii "boundary" <:+: piece) (boundary : Bytes) :
    readBoundary (piecesSeen pieces) boundary = some boundary := by
  apply readBoundary_of_absent
  intro seen member occurs
  obtain ⟨piece, inside, front⟩ := prefix_of_mem_piecesSeen member
  exact absent piece inside (occurs.trans front.isInfix)

/-- The parameter gives what stands before the next '='. -/
theorem readBoundary_parameter (form : FormType) (rest : List Bytes) (boundary : Bytes) :
    readBoundary (form.parameter :: rest) boundary =
      readBoundary rest ((stringSplit form.boundary (ascii "=")).headD []) := by
  have word : breakAt (ascii "boundary") form.parameter =
      some ([], ascii "=" ++ form.boundary) := by
    have start : ascii "boundary" <+: form.parameter := by
      unfold FormType.parameter
      exact List.IsPrefix.trans ⟨ascii "=", by decide⟩ (List.prefix_append _ _)
    rw [breakAt_of_start start]
    rfl
  have tokens : stringSplit form.parameter (ascii "=") =
      ascii "boundary" :: stringSplit form.boundary (ascii "=") := by
    have text : form.parameter = ascii "boundary" ++ [61] ++ form.boundary := rfl
    have printable : Printable (ascii "boundary") := by decide +kernel
    rw [text]
    exact (stringSplit_piece (by decide)).trans (by rw [eraseControl_eq_self printable]; rfl)
  rw [readBoundary, word, tokens]
  cases value : stringSplit form.boundary (ascii "=") with
  | nil => exact absurd value stringSplit_ne_nil
  | cons first others => rfl

theorem bchars_plain : ∀ c ∈ bchars, iscntrl c = false ∧ c ≠ 32 ∧ c ≠ 59 := by
  rw [show bchars = _ from ascii_ofList _]
  decide +kernel

namespace FormType.Valid

variable (valid : form.Valid)

include valid

/-- The pieces come out of the value whole. -/
theorem pieces_plain : ∀ piece ∈ form.pieces, Printable piece ∧ ¬ascii "; " <:+: piece := by
  intro piece member
  rcases List.mem_cons.mp member with rfl | member
  · exact ⟨valid.mediaType.1, fun occurs => valid.mediaType.2.1 (occurs.subset (by decide))⟩
  rcases List.mem_append.mp member with member | member
  · have plain := valid.parameters piece (List.mem_append_left _ member)
    exact ⟨plain.1, plain.2.1⟩
  rcases List.mem_cons.mp member with rfl | member
  · have given : ∀ c ∈ form.parameter, iscntrl c = false ∧ c ≠ 32 := by
      intro c inside
      rcases List.mem_append.mp inside with word | inside
      · have letters : ∀ c ∈ ascii "boundary=", iscntrl c = false ∧ c ≠ 32 := by decide +kernel
        exact letters c word
      · have plain := bchars_plain c (valid.boundary.2 c inside)
        exact ⟨plain.1, plain.2.1⟩
    exact ⟨fun c inside => (given c inside).1,
      fun occurs => (given 32 (occurs.subset (by decide))).2 rfl⟩
  · have plain := valid.parameters piece (List.mem_append_right _ member)
    exact ⟨plain.1, plain.2.1⟩

theorem mediaType_seen : ¬ascii ": " <:+: form.mediaType :=
  fun occurs => valid.mediaType.2.1 (occurs.subset (by decide))

theorem boundary_seen : ¬ascii ": " <:+: form.parameter := by
  intro occurs
  rcases List.mem_append.mp (occurs.subset (show 32 ∈ ascii ": " by decide)) with word | inside
  · exact absurd word (by decide)
  · exact (bchars_plain 32 (valid.boundary.2 32 inside)).2.1 rfl

/-- What is read from the pieces that are seen. -/
theorem readBoundary_pieces_iff :
    readBoundary (piecesSeen form.pieces) [] = some form.boundary ↔
      61 ∉ form.boundary ∧ ¬ascii "boundary" <:+: form.mediaType ∧
        ∀ parameter ∈ form.before, ¬ascii ": " <:+: parameter := by
  have first : piecesSeen form.pieces =
      form.mediaType :: piecesSeen (form.before ++ form.parameter :: form.after) := by
    simp only [FormType.pieces, List.cons_append, piecesSeen,
      breakAt_eq_none_iff.mpr valid.mediaType_seen]
  have before : ∀ piece ∈ form.before, ¬ascii "boundary" <:+: piece :=
    fun piece member => (valid.parameters piece (List.mem_append_left _ member)).2.2
  have after : ∀ piece ∈ form.after, ¬ascii "boundary" <:+: piece :=
    fun piece member => (valid.parameters piece (List.mem_append_right _ member)).2.2
  rw [first]
  by_cases word : ascii "boundary" <:+: form.mediaType
  · -- the media type has no '=', so that its second token is missing
    obtain ⟨front, behind, found⟩ := exists_breakAt_of_infix word
    have whole : stringSplit form.mediaType (ascii "=") = [form.mediaType] :=
      stringSplit_whole valid.mediaType.2.2.2
    simp [readBoundary, found, whole, word]
  rw [readBoundary, breakAt_eq_none_iff.mpr word]
  dsimp only
  by_cases colon : ∀ parameter ∈ form.before, ¬ascii ": " <:+: parameter
  · have boundary : piecesSeen (form.parameter :: form.after) =
        form.parameter :: piecesSeen form.after := by
      simp only [piecesSeen, breakAt_eq_none_iff.mpr valid.boundary_seen]
    rw [piecesSeen_append colon, readBoundary_append, readBoundary_of_absent before,
      Option.bind_some, boundary, readBoundary_parameter, readBoundary_piecesSeen after,
      Option.some.injEq, head_stringSplit_eq_iff (by decide)]
    have equals : ascii "=" <:+: form.boundary ↔ 61 ∈ form.boundary :=
      List.singleton_infix_iff _ _
    rw [equals]
    exact ⟨fun absent => ⟨absent, word, colon⟩, fun all => all.1⟩
  · -- the value ends before the boundary
    obtain ⟨parameter, member, occurs⟩ : ∃ parameter ∈ form.before,
        ascii ": " <:+: parameter := by
      by_contra none
      exact colon fun parameter member occurs => none ⟨parameter, member, occurs⟩
    rw [piecesSeen_append_of_found member occurs, readBoundary_piecesSeen before,
      Option.some.injEq]
    exact ⟨fun same => absurd same.symm valid.boundary.1, fun all => absurd all.2.2 colon⟩

end FormType.Valid

end Reading

/-- The boundary behind the loop over the lines. -/
theorem readContentType_boundary_iff {request : Request} {value boundary : Bytes}
    (given : request.fields (ascii "Content-Type") = some value) (fresh : request.boundary = []) :
    (∃ final, readContentType request = some final ∧ final.boundary = boundary) ↔
      readBoundary (stringSplit value (ascii "; ")) [] = some boundary := by
  unfold readContentType
  simp only [given, fresh, Option.map_eq_some_iff]
  constructor
  · rintro ⟨final, ⟨found, read, rfl⟩, rfl⟩
    exact read
  · intro read
    exact ⟨_, ⟨boundary, read, rfl⟩, rfl⟩

/-- For every request with such a `Content-Type`, `get_boundary` is the boundary sent
exactly if it has no '=', the media type has not the word in it, and no parameter in
front of it has a ": ". -/
theorem boundary_found_iff (form : FormType) (sent : SentRequest) (valid : form.Valid)
    (placed : form.Sent sent) :
    BoundaryFound sent form.boundary ↔
      61 ∉ form.boundary ∧ ¬ascii "boundary" <:+: form.mediaType ∧
        ∀ parameter ∈ form.before, ¬ascii ": " <:+: parameter := by
  obtain ⟨legible, before, after, fields, once⟩ := placed
  have printable : Printable form.value :=
    legible.values (ascii "Content-Type", form.value) (by simp [fields])
  have given : sent.read (ascii "Content-Type") = some (readValue form.value) := by
    have names := legible.names
    rw [fields] at names
    rw [SentRequest.read, fields]
    apply readFields_of_last names
    intro later
    rw [List.map_append] at once
    exact once (List.mem_append_right _ later)
  unfold BoundaryFound
  rw [legible.parse_encode, readContentType_boundary_iff given rfl,
    readValue_of_printable printable, FormType.value,
    stringSplit_upToColon (show form.pieces ≠ [] from List.cons_ne_nil _ _) valid.pieces_plain]
  exact valid.readBoundary_pieces_iff

/-- A form with this boundary, between two other parameters. -/
def formData (boundary : String) : FormType where
  mediaType := ascii "multipart/form-data"
  before := [ascii "charset=utf-8"]
  boundary := ascii boundary
  after := [ascii "q=1"]

def postForm (form : FormType) : SentRequest where
  method := .POST
  path := ascii "/"
  version := ascii "HTTP/1.1"
  fields := [(ascii "Host", ascii "localhost"), (ascii "Content-Type", form.value)]

theorem sent_postForm {form : FormType} (printable : Printable form.value) :
    form.Sent (postForm form) := by
  have constants : (Printable (ascii "/") ∧ 32 ∉ ascii "/") ∧
      (Printable (ascii "HTTP/1.1") ∧ 32 ∉ ascii "HTTP/1.1") ∧
      (∀ name ∈ [ascii "Host", ascii "Content-Type"], Printable name ∧ 58 ∉ name) ∧
      Printable (ascii "localhost") := by decide +kernel
  obtain ⟨path, version, names, host⟩ := constants
  constructor
  · refine ⟨path, version, ?_, ?_⟩
    · intro field member
      exact names field.1 (List.mem_map_of_mem (f := Prod.fst) member)
    · intro field member
      rcases List.mem_cons.mp member with rfl | member
      · exact host
      · rw [List.mem_singleton.mp member]
        exact printable
  · exact ⟨[(ascii "Host", ascii "localhost")], [], rfl, by decide +kernel⟩

/-- A boundary without '='. -/
theorem boundary_found_plain :
    BoundaryFound (postForm (formData "B")) (formData "B").boundary :=
  (boundary_found_iff (formData "B") (postForm (formData "B"))
    ⟨by decide +kernel, by decide +kernel, by decide +kernel⟩
    (sent_postForm (by decide +kernel))).mpr (by decide +kernel)

/-- Of the boundary `a=b`, `parse` finds `a`. -/
theorem equals_sign_cuts :
    ¬∀ (form : FormType) (sent : SentRequest), form.Valid → form.Sent sent →
      BoundaryFound sent form.boundary := by
  intro claimed
  have valid : (formData "a=b").Valid := ⟨by decide +kernel, by decide +kernel, by decide +kernel⟩
  have sent := sent_postForm (show Printable (formData "a=b").value by decide +kernel)
  have found := (boundary_found_iff _ _ valid sent).mp (claimed _ _ valid sent)
  exact found.1 (by decide +kernel)

end Ivos.Http
