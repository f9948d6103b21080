/-
Module: Ivos.Http.HeaderFields
Purpose: Which header fields `parse` gives back as they were sent.
Trusted boundary: none
Main exports: readValue_eq_self_iff, SentRequest.Conforms, SentRequest.GivenBack,
  FieldSurvives, given_back_iff, content_type_cut
-/
import Ivos.Http.RequestText

namespace Ivos.Http

/-! ## Fields

A client sends fields with names and values of its own; the server is asked for them by name.
What it gives back is compared with what was sent.
-/

theorem readValue_eq_self_iff {value : Bytes} : readValue value = value ↔ ¬ascii ": " <:+: value :=
  head_stringSplit_eq_iff (by decide)

/-- `parse` leaves a `Content-Type` as it is exactly if it is one piece, with an '=' if
there is a boundary in it. -/
theorem storedField_contentType_iff {value : Bytes} :
    storedField (ascii "Content-Type") value = some value ↔
      ¬ascii "; " <:+: value ∧ (ascii "boundary" <:+: value → ascii "=" <:+: value) := by
  have separator : ascii "; " ≠ [] := by decide
  unfold storedField
  rw [if_pos rfl]
  by_cases pieces : ascii "; " <:+: value
  · have cut : (stringSplit value (ascii "; ")).getLast? ≠ some value :=
      fun whole => (getLast_stringSplit_eq_iff separator).mp whole pieces
    constructor
    · intro kept
      obtain ⟨boundary, -, last⟩ := Option.bind_eq_some_iff.mp kept
      exact absurd last cut
    · intro whole
      exact absurd pieces whole.1
  · rw [stringSplit_of_absent pieces]
    unfold readBoundary
    cases found : breakAt (ascii "boundary") value with
    | none =>
        have absent := breakAt_eq_none_iff.mp found
        simp [readBoundary, pieces, absent]
    | some parts =>
        have occurs : ascii "boundary" <:+: value := ⟨_, _, (breakAt_sound found).symm⟩
        have second : (stringSplit value (ascii "="))[1]?.isSome ↔ ascii "=" <:+: value :=
          second_stringSplit_iff (by decide)
        cases token : (stringSplit value (ascii "="))[1]? with
        | none =>
            rw [token] at second
            simp [pieces, occurs, ← second]
        | some boundary =>
            rw [token] at second
            simp [readBoundary, pieces, ← second]

/-- What `parse` stores is an end of what the line gives. -/
theorem storedField_suffix {name value stored : Bytes}
    (kept : storedField name value = some stored) : stored <:+ value := by
  unfold storedField at kept
  split at kept
  · obtain ⟨boundary, -, last⟩ := Option.bind_eq_some_iff.mp kept
    obtain ⟨tokens, token, split, inside, -⟩ :=
      exists_last_token (show ascii "; " ≠ [] by decide) value
    rw [split, List.getLast?_concat] at last
    cases last
    exact inside
  · cases kept
    exact List.suffix_rfl

theorem length_readValue_le (value : Bytes) : (readValue value).length ≤ value.length := by
  unfold readValue
  by_cases occurs : ascii ": " <:+: value
  · obtain ⟨before, after, parts, split⟩ := stringSplit_of_occurs (by decide) occurs
    have shorter := length_eraseControl_le before
    rw [split, List.headD_cons, parts]
    simp only [List.length_append]
    omega
  · rw [stringSplit_of_absent occurs]
    exact Nat.le_refl _

namespace SentRequest

/-- Nothing is empty but perhaps a value, names have no space and values none at the
ends. -/
structure Conforms (sent : SentRequest) : Prop where
  legible : sent.Legible
  distinct : (sent.fields.map Prod.fst).Nodup
  path : sent.path ≠ []
  version : sent.version ≠ []
  names : ∀ field ∈ sent.fields, field.1 ≠ [] ∧ 32 ∉ field.1
  values : ∀ field ∈ sent.fields, field.2.head? ≠ some 32 ∧ field.2.getLast? ≠ some 32

/-- `parse` gives back the method, the path and every field as they were sent. -/
def GivenBack (sent : SentRequest) : Prop :=
  ∃ request, parse sent.encode = some request ∧ request.type = sent.method ∧
    request.path = sent.path ∧ ∀ field ∈ sent.fields, request.getField field.1 = field.2

end SentRequest

/-- No separator of `parse` cuts the value. -/
def FieldSurvives (field : Bytes × Bytes) : Prop :=
  ¬ascii ": " <:+: field.2 ∧ (field.1 = ascii "Content-Type" →
    ¬ascii "; " <:+: field.2 ∧ (ascii "boundary" <:+: field.2 → ascii "=" <:+: field.2))

instance : DecidablePred FieldSurvives := fun _ => inferInstanceAs (Decidable (_ ∧ _))

/-- A field is stored as it was sent exactly if no separator cuts it. -/
theorem storedField_readValue_iff {field : Bytes × Bytes} :
    storedField field.1 (readValue field.2) = some field.2 ↔ FieldSurvives field := by
  have whole (kept : storedField field.1 (readValue field.2) = some field.2) :
      readValue field.2 = field.2 :=
    ((storedField_suffix kept).eq_of_length_le (length_readValue_le _)).symm
  unfold FieldSurvives
  constructor
  · intro kept
    have same := whole kept
    rw [same] at kept
    refine ⟨readValue_eq_self_iff.mp same, fun contentType => ?_⟩
    rw [contentType] at kept
    exact storedField_contentType_iff.mp kept
  · rintro ⟨colon, contentType⟩
    rw [readValue_eq_self_iff.mpr colon]
    by_cases same : field.1 = ascii "Content-Type"
    · rw [same]
      exact storedField_contentType_iff.mpr (contentType same)
    · exact storedField_of_ne same _

/-- For every request, `parse` gives back what was sent exactly if no value has a
separator in it that `parse` cuts at. -/
theorem given_back_iff (sent : SentRequest) (legible : sent.Legible)
    (distinct : (sent.fields.map Prod.fst).Nodup) :
    sent.GivenBack ↔ ∀ field ∈ sent.fields, FieldSurvives field := by
  have given {field : Bytes × Bytes} (member : field ∈ sent.fields) :
      sent.read field.1 = some (readValue field.2) :=
    readFields_of_mem legible.names distinct member
  have stored {field : Bytes × Bytes} (member : field ∈ sent.fields) :
      settled sent.read field.1 = storedField field.1 (readValue field.2) := by
    rw [settled, given member, Option.bind_some]
  constructor
  · rintro ⟨request, parsed, -, -, values⟩ field member
    rw [legible.parse_encode] at parsed
    obtain ⟨boundary, -, -, fields⟩ := readContentType_eq_some_iff rfl parsed
    have kept : storedField field.1 (readValue field.2) ≠ none := by
      by_cases contentType : field.1 = ascii "Content-Type"
      · have read := given member
        rw [contentType] at read ⊢
        exact boundary _ read
      · rw [storedField_of_ne contentType]
        exact Option.some_ne_none _
    obtain ⟨value, is⟩ := Option.ne_none_iff_exists'.mp kept
    have same := values field member
    rw [Request.getField, fields, SentRequest.withFields, stored member, is, Option.getD_some]
      at same
    rw [same] at is
    exact storedField_readValue_iff.mp is
  · intro survive
    have boundary : BoundaryGiven sent.read := by
      intro value read
      by_cases member : ascii "Content-Type" ∈ sent.fields.map Prod.fst
      · obtain ⟨field, inside, name⟩ := List.mem_map.mp member
        have kept := storedField_readValue_iff.mpr (survive field inside)
        rw [← name, given inside, Option.some.injEq] at read
        rw [← read, ← name, kept]
        exact Option.some_ne_none _
      · rw [SentRequest.read, readFields_of_not_mem legible.names member] at read
        cases read
    obtain ⟨request, parsed⟩ := exists_readContentType (sent.withFields sent.read) rfl boundary
    obtain ⟨-, type, path, fields⟩ := readContentType_eq_some_iff rfl parsed
    refine ⟨request, by rw [legible.parse_encode, parsed], type, path, fun field member => ?_⟩
    rw [Request.getField, fields, SentRequest.withFields, stored member,
      storedField_readValue_iff.mpr (survive field member), Option.getD_some]

/-- A request whose `Content-Type` is this one. -/
def withContentType (value : String) : SentRequest where
  method := .GET
  path := ascii "/"
  version := ascii "HTTP/1.1"
  fields := [(ascii "Host", ascii "localhost"), (ascii "Content-Type", ascii value)]

/-- One piece is given back. -/
theorem given_back_plain : (withContentType "text/html").GivenBack :=
  (given_back_iff (withContentType "text/html")
    ⟨by decide +kernel, by decide +kernel, by decide +kernel, by decide +kernel⟩
    (by decide +kernel)).mpr (by decide +kernel)

/-- Of two pieces, the second is given back. -/
theorem content_type_cut : ¬∀ sent : SentRequest, sent.Conforms → sent.GivenBack := by
  intro claimed
  have conforms : (withContentType "text/html; charset=utf-8").Conforms :=
    ⟨⟨by decide +kernel, by decide +kernel, by decide +kernel, by decide +kernel⟩,
      by decide +kernel, by decide +kernel, by decide +kernel, by decide +kernel, by decide +kernel⟩
  have survive := (given_back_iff _ conforms.legible conforms.distinct).mp (claimed _ conforms)
  have cut : ¬∀ field ∈ (withContentType "text/html; charset=utf-8").fields,
      FieldSurvives field := by decide +kernel
  exact cut survive

end Ivos.Http
