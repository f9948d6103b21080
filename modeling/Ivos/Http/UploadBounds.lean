/-
Module: Ivos.Http.UploadBounds
Purpose: The pointers and lengths that `handle_post` computes, in the order in
  which it uses them, and the uploads for which all of them are in bounds.
Trusted boundary: none
Main exports: UploadFault, checkedChunk, checkedReads, checkedPost, Round.InBounds,
  roundsTaken, stays_within_iff, handlePost_of_checked, empty_remainder_subtracts_null
-/
import Ivos.Http.Connection

namespace Ivos.Http

/-! ## The checks

`handle_post` is written once more with a check in front of every access, in the order of the
source and without what it writes.  An access out of bounds is an error that names it.
-/

/-- What can go wrong in `handle_post`. -/
inductive UploadFault where
  /-- A null result of `strstr` is subtracted. -/
  | nullSubtracted
  /-- `spl[1]` behind the end of `spl`. -/
  | missingPiece
  /-- A `memcpy` over the end of `_buffer`. -/
  | copyTooLong
  /-- A `write` of more bytes than there are, or of a negative number of them. -/
  | badLength
deriving Repr, DecidableEq

/-- `memcpy` to `_buffer`. -/
def checkCopy (size : Int) : Except UploadFault Unit :=
  if 0 ≤ size ∧ size ≤ 1024 then .ok () else .error .copyTooLong

/-- `write` from a pointer with `valid` bytes behind it. -/
def checkWrite (length valid : Int) : Except UploadFault Unit :=
  if 0 ≤ length ∧ length ≤ valid then .ok () else .error .badLength

/-- `spl[1]` of `string_split(text, "filename=")`. -/
def checkName (text : Bytes) : Except UploadFault Unit :=
  match attachmentName text with
  | some _ => .ok ()
  | none => .error .missingPiece

/-- The body of the loop of `handle_post`.  `size` is computed before `pos` is tested,
so that the branch for a null `pos` comes too late. -/
def checkedChunk (boundary memory : Bytes) (valread : Nat) : Except UploadFault Unit :=
  match breakAt boundary (cString memory) with
  | none => checkWrite valread valread
  | some (before, _) =>
      let start := before.length + boundary.length + 2
      match breakAt crlfcrlf (cString (memory.drop start)) with
      | none => .error .nullSubtracted
      | some (head, _) => do
          let size := head.length + 4
          checkWrite start valread
          checkCopy size
          checkName (bufferString ((memory.drop start).take size) valread)
          checkWrite (valread - (start + size)) (valread - (start + size))

/-- The loop of `handle_post`. -/
def checkedReads (boundary : Bytes) (stack : Stack) (contentLength : Int) :
    Nat → Nat → Bytes → List Bytes → Except UploadFault Unit
  | _, _, _, [] => .ok ()
  | round, curlength, filebuf, chunk :: reads =>
      if curlength < contentLength then
        if chunk = [] then .ok ()
        else do
          let filebuf := overlay chunk filebuf
          checkedChunk boundary (filebuf ++ stack.beyond round) chunk.length
          checkedReads boundary stack contentLength (round + 1) (curlength + chunk.length) filebuf
            reads
      else .ok ()

/-- `content_length`; `undefined` is what `atoi` returns for a number that does not fit
an `int`. -/
def contentLength (request : Request) (undefined : Int) : Int :=
  (atoi (request.getField (ascii "Content-Length"))).getD undefined

/-- `handle_post`. -/
def checkedPost (request : Request) (remainder : Bytes) (stack : Stack) (undefined : Int)
    (reads : List Bytes) : Except UploadFault Unit :=
  match breakAt crlfcrlf (cString remainder) with
  | none => .error .nullSubtracted
  | some (head, _) => do
      let remaining : Int := remainder.length - (head.length + 4 : Nat)
      checkCopy remaining
      checkName (cString remainder)
      checkWrite remaining remaining
      checkedReads request.boundary stack (contentLength request undefined) 0 remainder.length
        stack.filebuf reads

/-! ## What keeps them in bounds -/

/-- Where the boundary is seen, there is the header of a part behind it, with a file
name, short enough for `_buffer` and inside the read. -/
def Round.InBounds (boundary : Bytes) (round : Round) : Prop :=
  ∀ before after, breakAt boundary (cString round.memory) = some (before, after) →
    ∃ head body, breakAt crlfcrlf
        (cString (round.memory.drop (before.length + boundary.length + 2))) = some (head, body) ∧
      ascii "filename=" <:+: head ∧ head.length + 4 ≤ 1024 ∧
      before.length + boundary.length + 2 + (head.length + 4) ≤ round.chunk.length

/-- The rounds that `handle_post` takes before the body is complete or a read fails. -/
def roundsTaken (contentLength : Int) : Nat → List Round → List Round
  | _, [] => []
  | curlength, round :: rounds =>
      if curlength < contentLength then
        if round.chunk = [] then []
        else round :: roundsTaken contentLength (curlength + round.chunk.length) rounds
      else []

section Checks

variable {boundary text : Bytes}

theorem ok_bind_iff {first second : Except UploadFault Unit} :
    (first >>= fun _ => second) = .ok () ↔ first = .ok () ∧ second = .ok () := by
  cases first with
  | ok value => exact ⟨fun later => ⟨rfl, later⟩, fun both => both.2⟩
  | error fault => exact ⟨nofun, fun both => both.1⟩

theorem checkCopy_ok_iff {size : Int} : checkCopy size = .ok () ↔ 0 ≤ size ∧ size ≤ 1024 := by
  simp [checkCopy]

theorem checkWrite_ok_iff {length valid : Int} :
    checkWrite length valid = .ok () ↔ 0 ≤ length ∧ length ≤ valid := by
  simp [checkWrite]

/-- The name is there exactly if `filename=` is. -/
theorem attachmentName_isSome_iff : (attachmentName text).isSome ↔ ascii "filename=" <:+: text := by
  have nonempty : ascii "filename=" ≠ [] := by decide
  unfold attachmentName
  by_cases occurs : ascii "filename=" <:+: text
  · obtain ⟨before, after, -, split⟩ := stringSplit_of_occurs nonempty occurs
    rw [split]
    cases others : stringSplit after (ascii "filename=") with
    | nil => exact absurd others stringSplit_ne_nil
    | cons piece rest =>
        cases line : stringSplit piece crlf with
        | nil => exact absurd line stringSplit_ne_nil
        | cons first lines => simp [line, occurs]
  · rw [stringSplit_of_absent occurs]
    simp [occurs]

theorem checkName_ok_iff : checkName text = .ok () ↔ ascii "filename=" <:+: text := by
  rw [← attachmentName_isSome_iff, checkName]
  cases attachmentName text <;> simp

/-- A short text behind the header has no `filename=` in it. -/
theorem filename_before_end {head rest : Bytes} (short : rest.length < 9) :
    ascii "filename=" <:+: head ++ 13 :: rest ↔ ascii "filename=" <:+: head := by
  constructor
  · intro occurs
    rcases infix_or_infix_of_not_mem occurs (by decide) with inside | beyond
    · exact inside
    · exact absurd beyond.length_le (Nat.not_le.mpr short)
  · intro occurs
    exact occurs.trans (List.prefix_append _ _).isInfix

/-- What the copied header and the bytes behind `_buffer` show of a name. -/
theorem checkName_bufferString {head : Bytes} (noNul : 0 ∉ head) (valread : Nat) :
    checkName (bufferString (head ++ crlfcrlf) valread) = .ok () ↔ ascii "filename=" <:+: head := by
  have free : 0 ∉ head ++ crlfcrlf := by
    rw [List.mem_append, not_or]
    exact ⟨noNul, by decide⟩
  rw [checkName_ok_iff, bufferString, cString_append free, List.append_assoc, crlfcrlf_eq]
  apply filename_before_end
  have few (extra : Bytes) (three : extra.length ≤ 3) : (cString extra).length ≤ 3 :=
    (List.takeWhile_prefix _).length_le.trans three
  have bound := few (if (head ++ [13, 10, 13, 10]).length < 1024 then [0]
    else [UInt8.ofNat (valread % 256), UInt8.ofNat (valread / 256), 0]) (by split <;> simp)
  change (10 :: 13 :: 10 :: cString _).length < 9
  simp only [List.length_cons]
  omega

/-- The checks of one round. -/
theorem checkedChunk_ok_iff (boundary : Bytes) (round : Round) :
    checkedChunk boundary round.memory round.chunk.length = .ok () ↔ round.InBounds boundary := by
  unfold checkedChunk Round.InBounds
  cases found : breakAt boundary (cString round.memory) with
  | none => simp [checkWrite_ok_iff]
  | some parts =>
      obtain ⟨before, after⟩ := parts
      cases ended : breakAt crlfcrlf
          (cString (round.memory.drop (before.length + boundary.length + 2))) with
      | none =>
          simp only [ended]
          refine ⟨nofun, fun inBounds => ?_⟩
          obtain ⟨head, body, there, -⟩ := inBounds before after rfl
          rw [ended] at there
          cases there
      | some parts =>
          obtain ⟨head, body⟩ := parts
          obtain ⟨block, free⟩ := take_emptyLine ended
          have noNul : 0 ∉ head := fun member => free (List.mem_append_left _ member)
          simp only [ended, block, ok_bind_iff, checkWrite_ok_iff, checkCopy_ok_iff,
            checkName_bufferString noNul]
          constructor
          · rintro ⟨-, fits, named, inside⟩ other later split
            cases split
            exact ⟨head, body, ended, named, by omega, by omega⟩
          · intro inBounds
            obtain ⟨other, later, there, named, fits, inside⟩ := inBounds before after rfl
            rw [ended] at there
            cases there
            exact ⟨by omega, by omega, named, by omega⟩

end Checks

section Runs

variable {boundary : Bytes} {stack : Stack}

/-- The loop stays in bounds exactly if the rounds taken do. -/
theorem checkedReads_ok_iff {contentLength : Int} {round curlength : Nat} {filebuf : Bytes}
    {reads : List Bytes} :
    checkedReads boundary stack contentLength round curlength filebuf reads = .ok () ↔
      ∀ taken ∈ roundsTaken contentLength curlength (rounds stack round filebuf reads),
        taken.InBounds boundary := by
  induction reads generalizing round curlength filebuf with
  | nil => simp [checkedReads, rounds, roundsTaken]
  | cons chunk reads ih =>
      simp only [checkedReads, rounds, roundsTaken]
      by_cases waiting : (curlength : Int) < contentLength
      · by_cases failed : chunk = []
        · simp [waiting, failed]
        · simp only [if_pos waiting, if_neg failed]
          rw [ok_bind_iff, checkedChunk_ok_iff boundary
            ⟨chunk, overlay chunk filebuf ++ stack.beyond round⟩, ih, List.forall_mem_cons]
      · simp [waiting]

/-- For every request, every content of `_remainder` and every later reads, `handle_post`
stays in bounds exactly if `_remainder` has the header of a part with a file name, and so
has every round that sees the boundary, inside its read. -/
theorem stays_within_iff (request : Request) (remainder : Bytes) (stack : Stack)
    (undefined : Int) (reads : List Bytes) (size : remainder.length ≤ 1024) :
    checkedPost request remainder stack undefined reads = .ok () ↔
      crlfcrlf <:+: cString remainder ∧ ascii "filename=" <:+: cString remainder ∧
        ∀ round ∈ roundsTaken (contentLength request undefined) remainder.length
          (rounds stack 0 stack.filebuf reads), round.InBounds request.boundary := by
  unfold checkedPost
  cases found : breakAt crlfcrlf (cString remainder) with
  | none =>
      have absent := breakAt_eq_none_iff.mp found
      exact ⟨nofun, fun all => absurd all.1 absent⟩
  | some parts =>
      have seen := infix_of_breakAt found
      have inside : parts.1.length + 4 ≤ remainder.length := by
        have block := congrArg List.length (take_emptyLine found).1
        simp only [List.length_take, List.length_append, crlfcrlf_eq, List.length_cons,
          List.length_nil] at block
        omega
      simp only [ok_bind_iff, checkCopy_ok_iff, checkName_ok_iff, checkWrite_ok_iff,
        checkedReads_ok_iff]
      constructor
      · rintro ⟨-, named, -, rounds⟩
        exact ⟨seen, named, rounds⟩
      · rintro ⟨-, named, rounds⟩
        exact ⟨by omega, named, by omega, rounds⟩

/-! ## The checks beside the writes -/

/-- In a round that stays in bounds `handle_post` writes something. -/
theorem Round.InBounds.storeChunk {round : Round} (inBounds : round.InBounds boundary)
    (file : Bytes) :
    ∃ next writes, Http.storeChunk boundary round.memory round.chunk.length file =
      some (next, writes) := by
  cases found : breakAt boundary (cString round.memory) with
  | none => exact ⟨_, _, by simp only [Http.storeChunk, found]; rfl⟩
  | some parts =>
      obtain ⟨before, after⟩ := parts
      obtain ⟨head, body, ended, named, fits, inside⟩ := inBounds before after found
      obtain ⟨block, free⟩ := take_emptyLine ended
      have noNul : 0 ∉ head := fun member => free (List.mem_append_left _ member)
      have checked := (checkName_bufferString noNul round.chunk.length).mpr named
      rw [checkName_ok_iff, ← attachmentName_isSome_iff] at checked
      obtain ⟨filename, is⟩ := Option.isSome_iff_exists.mp checked
      refine ⟨filename, ?_⟩
      simp only [Http.storeChunk, found, ended, block, is, if_neg (Nat.not_lt.mpr fits),
        if_neg (Nat.not_lt.mpr inside)]
      exact ⟨_, rfl⟩

theorem storeReads_of_checked {contentLength : Int} {round curlength : Nat} {filebuf : Bytes}
    {reads : List Bytes} (file : Bytes)
    (checked : checkedReads boundary stack contentLength round curlength filebuf reads = .ok ()) :
    ∃ result, storeReads boundary stack contentLength round curlength file filebuf reads =
      some result := by
  induction reads generalizing round curlength file filebuf with
  | nil => exact ⟨_, rfl⟩
  | cons chunk reads ih =>
      unfold checkedReads at checked
      unfold storeReads
      by_cases waiting : (curlength : Int) < contentLength
      · by_cases failed : chunk = []
        · rw [if_pos waiting, if_pos failed]
          exact ⟨_, rfl⟩
        · rw [if_pos waiting, if_neg failed] at checked ⊢
          obtain ⟨here, later⟩ := ok_bind_iff.mp checked
          have inBounds := (checkedChunk_ok_iff boundary
            ⟨chunk, overlay chunk filebuf ++ stack.beyond round⟩).mp here
          obtain ⟨next, writes, stored⟩ := inBounds.storeChunk file
          obtain ⟨result, rest⟩ := ih next later
          refine ⟨(writes ++ result.1, result.2), ?_⟩
          dsimp only at stored ⊢
          rw [stored, Option.bind_some, rest]
          rfl
      · rw [if_neg waiting]
        exact ⟨_, rfl⟩

/-- An upload that stays in bounds is written, if its length is a number. -/
theorem handlePost_of_checked {request : Request} {remainder : Bytes} {undefined length : Int}
    {reads : List Bytes} (checked : checkedPost request remainder stack undefined reads = .ok ())
    (number : atoi (request.getField (ascii "Content-Length")) = some length) :
    ∃ result, handlePost request remainder stack reads = some result := by
  unfold checkedPost at checked
  unfold handlePost
  cases found : breakAt crlfcrlf (cString remainder) with
  | none => simp [found] at checked
  | some parts =>
      simp only [found, ok_bind_iff, contentLength, number, Option.getD_some] at checked
      obtain ⟨-, named, -, rounds⟩ := checked
      rw [checkName_ok_iff, ← attachmentName_isSome_iff] at named
      obtain ⟨filename, is⟩ := Option.isSome_iff_exists.mp named
      obtain ⟨result, stored⟩ := storeReads_of_checked filename rounds
      refine ⟨(⟨filename, remainder.drop (parts.1.length + 4)⟩ :: result.1, result.2), ?_⟩
      simp only [number, is, stored, Option.bind_some, Option.map_some]

/-! ## Stored forms -/

/-- As long as the body is not complete, every round is taken. -/
theorem roundsTaken_eq {contentLength : Int} {round curlength : Nat} {filebuf : Bytes}
    {reads : List Bytes} (nonempty : ∀ chunk ∈ reads, chunk ≠ [])
    (complete : ((curlength + reads.flatten.length : Nat) : Int) = contentLength) :
    roundsTaken contentLength curlength (rounds stack round filebuf reads) =
      rounds stack round filebuf reads := by
  induction reads generalizing round curlength filebuf with
  | nil => rfl
  | cons chunk reads ih =>
      have here := nonempty chunk List.mem_cons_self
      have positive : 0 < chunk.length := List.length_pos_iff.mpr here
      simp only [List.flatten_cons, List.length_append] at complete
      have waiting : (curlength : Int) < contentLength := by omega
      have rest : roundsTaken contentLength (curlength + chunk.length)
          (rounds stack (round + 1) (overlay chunk filebuf) reads) =
            rounds stack (round + 1) (overlay chunk filebuf) reads :=
        ih (fun other member => nonempty other (List.mem_cons_of_mem _ member)) (by omega)
      simp only [rounds, roundsTaken, if_pos waiting, if_neg here, rest]

/-- A form that is stored as it was sent leads through a null pointer: behind its closing
delimiter there is no empty line. -/
theorem Submission.not_within_of_delivered {request : Request} {part : Part} {firstRead : Bytes}
    {earlier : List Bytes} {last : Bytes} {garbage : Set Stack}
    (sent : Submission request [part] firstRead (earlier ++ [last]))
    (delivered : Delivered garbage request.boundary part firstRead earlier last)
    (possible : stack ∈ garbage) (undefined : Int) :
    checkedPost request firstRead stack undefined (earlier ++ [last]) ≠ .ok () := by
  intro within
  have size : firstRead.length ≤ 1024 := Nat.le_trans sent.firstRead_length (by decide)
  obtain ⟨-, -, inBounds⟩ := (stays_within_iff _ _ _ _ _ size).mp within
  have length : contentLength request undefined = (formBody request.boundary [part]).length := by
    rw [contentLength, atoi_digits sent.length_digits.1 sent.length_digits.2, sent.length_value,
      if_pos delivered.length, Option.getD_some]
  have complete : ((firstRead.length + (earlier ++ [last]).flatten.length : Nat) : Int) =
      contentLength request undefined := by
    rw [length, ← sent.cut, List.length_append]
  rw [roundsTaken_eq (fun chunk member => (sent.reads_length chunk member).1) complete] at inBounds
  obtain ⟨extra, front, -, rfl, -, inside⟩ := sent.content_of_delivered delivered
  obtain ⟨visible, switches⟩ := sent.last_round inside stack earlier
  rw [rounds_append_cons] at inBounds
  have bounded := inBounds _ (List.mem_append_right _ List.mem_cons_self)
  obtain ⟨before, after, found⟩ := exists_breakAt_of_infix visible
  obtain ⟨head, body, ended, -⟩ := bounded before after found
  exact delivered.ended stack possible
    (switches.mp ⟨before, after, found, infix_of_breakAt ended⟩)

end Runs

/-- A POST whose first read is the header block alone. -/
def bareRequest : SentRequest where
  method := .POST
  path := ascii "/"
  version := ascii "HTTP/1.1"
  fields := []

/-- A read with the header of a second part. -/
def secondPartRead : Bytes :=
  ascii "\r\n--B\r\nContent-Disposition: form-data; name=\"f\"; filename=\"b\"\r\n\r\ny"

/-- The first read has the header of a part, and the second one that of another part. -/
theorem stays_within_twoParts :
    checkedPost (uploadOf (ascii "B") (ascii "139")) (ascii "filename=\"a\"\r\n\r\nx")
      Stack.zeroed 0 [secondPartRead] = .ok () := by
  apply (stays_within_iff _ _ _ _ _ (by decide +kernel)).mpr
  refine ⟨by decide +kernel, by decide +kernel, fun round taken => ?_⟩
  have only : round =
      ⟨secondPartRead, overlay secondPartRead Stack.zeroed.filebuf ++ Stack.zeroed.beyond 0⟩ :=
    List.mem_singleton.mp taken
  rw [only]
  exact (checkedChunk_ok_iff _ _).mp (by decide +kernel)

/-- Behind a header block that comes alone, there is no empty line in `_remainder`. -/
theorem empty_remainder_subtracts_null :
    ¬∀ (chunk behind remainder : Bytes) (request : Request) (stack : Stack) (undefined : Int)
        (reads : List Bytes), chunk.length ≤ 1024 →
      receiveHeaders chunk behind = .parsed request remainder → request.type = .POST →
      (∀ later ∈ reads, later.length ≤ 16384) →
        checkedPost request remainder stack undefined reads = .ok () := by
  intro claimed
  have legible : bareRequest.Legible :=
    ⟨by decide +kernel, by decide +kernel, by decide +kernel, by decide +kernel⟩
  have boundary : BoundaryGiven bareRequest.read := nofun
  obtain ⟨request, parsed⟩ := exists_readContentType (bareRequest.withFields bareRequest.read)
    rfl boundary
  obtain ⟨-, type, -⟩ := readContentType_eq_some_iff rfl parsed
  have received : receiveHeaders (bareRequest.encode ++ []) [] = .parsed request [] := by
    rw [legible.receiveHeaders_encode, show cString [] = [] from rfl, List.append_nil,
      legible.parse_encode, parsed]
  have checked := claimed _ _ _ request Stack.zeroed 0 [] (by decide +kernel) received type nofun
  cases checked

end Ivos.Http
