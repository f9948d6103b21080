/-
Module: Ivos.Http.HeaderSafety
Purpose: The accesses of `receive_headers`, `parse` and the log line of
  `handle_communication` that nothing guards, and which of them a read comes to.
Trusted boundary: none
Main exports: HeaderFault, parseFault, headerFaults, parseFault_eq_none_iff,
  ReadSafely, receiveHeaders_parsed_iff, headers_never_safe
-/
import Ivos.Http.Connection

namespace Ivos.Http

/-! ## The accesses

From `SSL_read` to the log line every access that can fail is listed in its order.  What lies
behind the header copy on the heap is an argument; `_buffer` is zeroed before the read.
-/

/-- What can go wrong between `SSL_read` and the log line. -/
inductive HeaderFault where
  /-- `strstr` runs over the end of `_buffer`. -/
  | bufferOverrun
  /-- `std::string(headers)` runs over the end of the header copy. -/
  | copyOverrun
  /-- An index behind the end of `tokens`. -/
  | missingToken
  /-- `_string_to_type.at` throws. -/
  | unknownType
  /-- `get_type_as_string` looks up a type that was not set. -/
  | unsetType
deriving Repr, DecidableEq

/-- `_buffer` behind `bzero` and `SSL_read`. -/
def readBuffer (chunk : Bytes) : Bytes := chunk ++ List.replicate (1024 - chunk.length) 0

/-- The loop of `parse` over the pieces of `Content-Type`. -/
def boundaryFault : List Bytes → Option HeaderFault
  | [] => none
  | token :: tokens =>
      match breakAt (ascii "boundary") token with
      | none => boundaryFault tokens
      | some _ =>
          match (stringSplit token (ascii "="))[1]? with
          | none => some .missingToken
          | some _ => boundaryFault tokens

/-- The first access of `parse` that fails. -/
def parseFault (request : Bytes) : Option HeaderFault :=
  match stringSplit request (ascii "\n") with
  | [] => some .unsetType
  | line :: lines =>
      match stringSplit line (ascii " ") with
      | [] => some .missingToken
      | type :: others =>
          match toRequestType type with
          | none => some .unknownType
          | some _ =>
              match others with
              | _ :: _ :: _ =>
                  (readFields lines noFields (ascii "Content-Type")).bind fun value =>
                    boundaryFault (stringSplit value (ascii "; "))
              | _ => some .missingToken

/-- The faults of a read, up to the log line; the connection is closed on an empty one.
A search, and the copy of a string, end at a NUL; without one inside the buffer they run
over its end. -/
def headerFaults (chunk behind : Bytes) : List HeaderFault :=
  if chunk = [] then []
  else
    let buffer := readBuffer chunk
    match breakAt crlfcrlf (cString buffer) with
    | none => (if 0 ∈ buffer then [] else [.bufferOverrun]) ++ [.unsetType]
    | some (head, _) =>
        let headers := buffer.take (head.length + 4)
        (if 0 ∈ headers then [] else [.copyOverrun]) ++
          (parseFault (cString (headers ++ behind))).toList

/-- The read is refused, or its bytes alone give a request, and no access fails. -/
structure ReadSafely (chunk behind : Bytes) : Prop where
  noFault : headerFaults chunk behind = []
  outcome : receiveHeaders chunk behind = .closed ∨
    ∃ request remainder own head after, receiveHeaders chunk behind = .parsed request remainder ∧
      breakAt crlfcrlf (cString chunk) = some (head, after) ∧
      parse (head ++ crlfcrlf) = some own ∧
      request.type = own.type ∧ request.path = own.path ∧ request.version = own.version

section Parsing

/-! ## `parse` -/

theorem readBoundary_isSome_iff (tokens : List Bytes) (boundary : Bytes) :
    (readBoundary tokens boundary).isSome ↔ boundaryFault tokens = none := by
  induction tokens generalizing boundary with
  | nil => simp [readBoundary, boundaryFault]
  | cons token tokens ih =>
      unfold readBoundary boundaryFault
      cases breakAt (ascii "boundary") token with
      | none => exact ih boundary
      | some parts =>
          cases (stringSplit token (ascii "="))[1]? with
          | none => simp
          | some value => exact ih value

theorem readContentType_isSome_iff (request : Request) :
    (readContentType request).isSome ↔
      ((request.fields (ascii "Content-Type")).bind fun value =>
        boundaryFault (stringSplit value (ascii "; "))) = none := by
  unfold readContentType
  cases request.fields (ascii "Content-Type") with
  | none => simp
  | some value =>
      rw [Option.bind_some, ← readBoundary_isSome_iff _ request.boundary]
      simp

/-- `parse` succeeds exactly if no access of it fails. -/
theorem parseFault_eq_none_iff (request : Bytes) :
    parseFault request = none ↔ (parse request).isSome := by
  unfold parseFault parse
  cases stringSplit request (ascii "\n") with
  | nil => simp
  | cons line lines =>
      dsimp only
      cases stringSplit line (ascii " ") with
      | nil => simp
      | cons type others =>
          cases known : toRequestType type with
          | none =>
              match others with
              | [] | [_] | _ :: _ :: _ => simp [known]
          | some requestType =>
              match others with
              | [] | [_] => simp [known]
              | path :: version :: _ =>
                  dsimp only
                  rw [known, Option.bind_some, readContentType_isSome_iff]

end Parsing

/-! ## Reads -/

section Reads

variable {chunk behind : Bytes}

/-- The zeros behind the read are not part of the string. -/
theorem cString_readBuffer (chunk : Bytes) : cString (readBuffer chunk) = cString chunk := by
  unfold readBuffer cString
  rw [List.takeWhile_append]
  split
  · rename_i whole
    have zeros (count : Nat) : (List.replicate count (0 : UInt8)).takeWhile (· != 0) = [] := by
      cases count <;> rfl
    rw [zeros, List.append_nil]
    exact ((List.takeWhile_prefix _).eq_of_length whole).symm
  · rfl

/-- The header copy is the text up to the empty line, without a NUL. -/
theorem take_readBuffer {head after : Bytes}
    (found : breakAt crlfcrlf (cString chunk) = some (head, after)) :
    (readBuffer chunk).take (head.length + 4) = head ++ crlfcrlf ∧ 0 ∉ head ++ crlfcrlf := by
  rw [← cString_readBuffer] at found
  exact take_emptyLine found

/-- The two ways a read goes. -/
theorem headerFaults_of_missing (behind : Bytes) (nonempty : chunk ≠ [])
    (missing : breakAt crlfcrlf (cString chunk) = none) :
    .unsetType ∈ headerFaults chunk behind ∧ .copyOverrun ∉ headerFaults chunk behind := by
  unfold headerFaults
  dsimp only
  rw [if_neg nonempty, cString_readBuffer]
  simp only [missing]
  split <;> simp

theorem headerFaults_of_found (behind : Bytes) {head after : Bytes}
    (found : breakAt crlfcrlf (cString chunk) = some (head, after)) :
    headerFaults chunk behind =
      .copyOverrun :: (parseFault (head ++ crlfcrlf ++ cString behind)).toList := by
  obtain ⟨copy, noNul⟩ := take_readBuffer found
  have nonempty : chunk ≠ [] := by
    rintro rfl
    simp [cString, breakAt, crlfcrlf_eq] at found
  unfold headerFaults
  dsimp only
  rw [if_neg nonempty, cString_readBuffer]
  simp only [found, copy, if_neg noNul, cString_append noNul, List.singleton_append]

/-- A read gives a request exactly if the overrun of the header copy is its only fault. -/
theorem receiveHeaders_parsed_iff (nonempty : chunk ≠ []) :
    (∃ request remainder, receiveHeaders chunk behind = .parsed request remainder) ↔
      headerFaults chunk behind = [.copyOverrun] := by
  cases found : breakAt crlfcrlf (cString chunk) with
  | none =>
      have faults := headerFaults_of_missing behind nonempty found
      constructor
      · rintro ⟨request, remainder, received⟩
        simp [receiveHeaders, nonempty, found] at received
      · intro only
        rw [only] at faults
        exact absurd List.mem_cons_self faults.2
  | some parts =>
      have given : cString (chunk.take (parts.1.length + 4) ++ behind) =
          parts.1 ++ crlfcrlf ++ cString behind := by
        rw [(take_emptyLine found).1, cString_append (take_emptyLine found).2]
      rw [headerFaults_of_found behind found]
      simp only [receiveHeaders, nonempty, found, given, if_false, List.cons.injEq, true_and,
        Option.toList_eq_nil_iff, parseFault_eq_none_iff]
      cases parse (parts.1 ++ crlfcrlf ++ cString behind) <;> simp

/-- A request that is read whole, with a NUL behind the header copy, has no other fault. -/
theorem SentRequest.Legible.headerFaults_encode {sent : SentRequest}
    (legible : sent.Legible) (given : BoundaryGiven sent.read) (remainder : Bytes)
    (terminated : cString behind = []) :
    headerFaults (sent.encode ++ remainder) behind = [.copyOverrun] := by
  have nonempty : sent.encode ++ remainder ≠ [] := by simp [encode, headerBlock, crlf, ascii]
  rw [← receiveHeaders_parsed_iff nonempty, legible.receiveHeaders_encode, terminated,
    List.append_nil, legible.parse_encode]
  obtain ⟨request, parsed⟩ := exists_readContentType (sent.withFields sent.read) rfl given
  exact ⟨request, remainder, by rw [parsed]⟩

/-- Whatever is read, the header copy is overrun or the type is not set. -/
theorem headers_never_safe (chunk behind : Bytes) (nonempty : chunk ≠ []) :
    ¬ReadSafely chunk behind := by
  intro safely
  cases found : breakAt crlfcrlf (cString chunk) with
  | none =>
      have unset := (headerFaults_of_missing behind nonempty found).1
      rw [safely.noFault] at unset
      cases unset
  | some parts =>
      have faults := headerFaults_of_found behind found
      rw [safely.noFault] at faults
      cases faults

end Reads

/-- A request for the root, as short as a request gets. -/
def shortRequest : Bytes := ascii "GET / HTTP/1.1\r\n\r\n"

theorem headers_never_safe_shortRequest : ¬ReadSafely shortRequest [] :=
  headers_never_safe shortRequest [] (by decide)

/-- The copy of `shortRequest` is overrun. -/
theorem short_request_unsafe :
    ¬∀ chunk behind : Bytes, chunk ≠ [] → chunk.length ≤ 1024 → ReadSafely chunk behind := by
  intro claimed
  have safely : ReadSafely shortRequest [] := claimed _ _ (by decide) (by decide)
  have faults : headerFaults shortRequest [] = [.copyOverrun] := by decide +kernel
  rw [safely.noFault] at faults
  cases faults

end Ivos.Http
