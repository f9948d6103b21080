/-
Module: Ivos.Http.Upload
Purpose: `Client::handle_post`, the loop that takes a multipart body apart, and
  when it stores what was sent.
Trusted boundary: `open` succeeds, and `write` takes all it is given
Main exports: Stack, Write, atoi, attachmentName, storeChunk, storeReads,
  handlePost, Part, Submission, Stores, Delivered, stores_iff_delivered,
  second_part_mangles_first
-/
import Ivos.Http.Request
import Mathlib.Algebra.Group.Int.Defs
import Mathlib.Algebra.Group.Nat.Defs
import Mathlib.Data.Set.Defs

namespace Ivos.Http

/-! ## `atoi` -/

/-- `isspace` in the C locale. -/
def isspace (character : UInt8) : Bool :=
  character == 32 || (9 ≤ character && character ≤ 13)

def isdigit (character : UInt8) : Bool := 48 ≤ character && character ≤ 57

def digitsValue (digits : Bytes) : Nat :=
  digits.foldl (fun value digit => 10 * value + (digit.toNat - 48)) 0

/-- `atoi`, which is undefined where the number does not fit an `int`. -/
def atoi (text : Bytes) : Option Int :=
  let digits := (cString text).dropWhile isspace
  let value : Int :=
    match digits with
    | 45 :: rest => -(digitsValue (rest.takeWhile isdigit) : Int)
    | 43 :: rest => digitsValue (rest.takeWhile isdigit)
    | rest => digitsValue (rest.takeWhile isdigit)
  if -2 ^ 31 ≤ value ∧ value < 2 ^ 31 then some value else none

/-! ## `handle_post`

Every `open` succeeds here and every `write` takes all it is given; `open` that fails is a
matter of the descriptors, where the outcome of each is an argument.  `filebuf` is not
initialised and is searched as a C string after each read, so that the bytes of earlier reads
and of the stack behind it are found as well.  Where `handle_post` subtracts from a null
pointer, runs over `_buffer` or passes a length that has wrapped around, it has no outcome.
-/

/-- The memory `handle_post` reads without having written it: `filebuf` when it is
entered, and what lies behind `filebuf` when each of its reads has returned. -/
structure Stack where
  filebuf : Bytes
  beyond : Nat → Bytes

/-- A stack of zeros, as the kernel maps it. -/
def Stack.zeroed : Stack := ⟨List.replicate 16384 0, fun _ => []⟩

/-- A `write` to the file last opened under the name `file`. -/
structure Write where
  file : Bytes
  bytes : Bytes
deriving Repr, DecidableEq

/-- `SSL_read` overwrites the front of `filebuf`. -/
def overlay (chunk filebuf : Bytes) : Bytes := chunk ++ filebuf.drop chunk.length

/-- The text between the first two occurrences of `filename=`, up to the first line
end and without quotes.  `none` is `spl[1]` behind the end of `spl`. -/
def attachmentName (text : Bytes) : Option Bytes :=
  match stringSplit text (ascii "filename=") with
  | _ :: piece :: _ =>
      (stringSplit piece crlf).head?.map fun filename => filename.filter (· != 34)
  | _ => none

/-- `std::string(_buffer)` after `size` bytes were copied to the zeroed `_buffer`.
A full `_buffer` has no NUL, and `_valread` lies behind it. -/
def bufferString (block : Bytes) (valread : Nat) : Bytes :=
  cString (block ++
    if block.length < 1024 then [0]
    else [UInt8.ofNat (valread % 256), UInt8.ofNat (valread / 256), 0])

/-- The body of the loop of `handle_post` behind `SSL_read`: the file open after it
and what it writes.  `memory` is `filebuf` and what lies behind it.  `none` is a
copy over the end of `_buffer`, `spl[1]` missing, or a length given to `write` that
has wrapped around. -/
def storeChunk (boundary memory : Bytes) (valread : Nat) (file : Bytes) :
    Option (Bytes × List Write) :=
  match breakAt boundary (cString memory) with
  | none => some (file, [⟨file, memory.take valread⟩])
  | some (before, _) =>
      let start := before.length + boundary.length + 2
      match breakAt crlfcrlf (cString (memory.drop start)) with
      | some (head, _) =>
          let size := head.length + 4
          let body := start + size
          if 1024 < size then none
          else
            match attachmentName (bufferString ((memory.drop start).take size) valread) with
            | none => none
            | some filename =>
                if valread < body then none
                else some (filename,
                  [⟨file, memory.take start⟩,
                    ⟨filename, (memory.drop body).take (valread - body)⟩])
      | none =>
          if valread < boundary.length + 8 then none
          else some (file, [⟨file, memory.take (valread - (boundary.length + 8))⟩])

/-- The loop of `handle_post`: what it writes and the reads it leaves on the
connection.  An empty read is an `SSL_read` that returns 0 or -1. -/
def storeReads (boundary : Bytes) (stack : Stack) (contentLength : Int) :
    Nat → Nat → Bytes → Bytes → List Bytes → Option (List Write × List Bytes)
  | _, _, _, _, [] => some ([], [])
  | round, curlength, file, filebuf, chunk :: reads =>
      if curlength < contentLength then
        if chunk = [] then some ([], reads)
        else
          let filebuf := overlay chunk filebuf
          (storeChunk boundary (filebuf ++ stack.beyond round) chunk.length file).bind
            fun (next, writes) =>
              (storeReads boundary stack contentLength (round + 1)
                (curlength + chunk.length) next filebuf reads).map
                fun (later, left) => (writes ++ later, left)
      else some ([], chunk :: reads)

/-- `handle_post` on the `_remainder` of the first read: the writes it makes, where `open`
succeeds and `write` takes all it is given.  `none` is a crash or a write of an undefined
length. -/
def handlePost (request : Request) (remainder : Bytes) (stack : Stack) (reads : List Bytes) :
    Option (List Write × List Bytes) :=
  match breakAt crlfcrlf (cString remainder) with
  | none => none
  | some (head, _) =>
      let offset := head.length + 4
      (atoi (request.getField (ascii "Content-Length"))).bind fun contentLength =>
        (attachmentName (cString remainder)).bind fun filename =>
          (storeReads request.boundary stack contentLength 0 remainder.length filename
            stack.filebuf reads).map
            fun (writes, left) => (⟨filename, remainder.drop offset⟩ :: writes, left)

/-! ## What is sent

A form is a list of parts between boundary lines.  The reads are any cut of its body, which
holds no NUL, and `Content-Length` is its length.
-/

/-- One part of the form.  `disposition` is its header up to `filename=`, `trailer`
the rest of the header behind the quoted name. -/
structure Part where
  disposition : Bytes
  filename : Bytes
  trailer : Bytes
  content : Bytes
deriving Repr, DecidableEq

def Part.header (part : Part) : Bytes :=
  part.disposition ++ ascii "filename=\"" ++ part.filename ++ ascii "\"" ++ part.trailer

/-- What is sent before the content of a part. -/
def opening (boundary : Bytes) (part : Part) : Bytes :=
  ascii "--" ++ boundary ++ crlf ++ part.header ++ crlfcrlf

/-- What is sent behind the content of the last part. -/
def closing (boundary : Bytes) : Bytes := crlf ++ ascii "--" ++ boundary ++ ascii "--" ++ crlf

def formBody (boundary : Bytes) (parts : List Part) : Bytes :=
  parts.flatMap (fun part => opening boundary part ++ part.content ++ crlf) ++
    ascii "--" ++ boundary ++ ascii "--" ++ crlf

/-- A form with its boundary and length in the headers, and its body as the reads
deliver it: `firstRead` behind the headers, the others in the loop. -/
structure Submission (request : Request) (parts : List Part) (firstRead : Bytes)
    (reads : List Bytes) : Prop where
  boundary_nonempty : request.boundary ≠ []
  boundary_characters : ∀ c ∈ request.boundary, c ≠ 0 ∧ c ≠ 13 ∧ c ≠ 10
  parts_nonempty : parts ≠ []
  distinct : (parts.map Part.filename).Nodup
  header_ends : ∀ part ∈ parts, breakAt crlfcrlf (opening request.boundary part) =
    some (ascii "--" ++ request.boundary ++ crlf ++ part.header, [])
  header_characters : ∀ part ∈ parts, 0 ∉ part.header
  content_characters : ∀ part ∈ parts, 0 ∉ part.content
  content_boundary : ∀ part ∈ parts, ¬request.boundary <:+: part.content
  length_digits : request.getField (ascii "Content-Length") ≠ [] ∧
    ∀ c ∈ request.getField (ascii "Content-Length"), isdigit c
  length_value : digitsValue (request.getField (ascii "Content-Length")) =
    (formBody request.boundary parts).length
  cut : firstRead ++ reads.flatten = formBody request.boundary parts
  firstRead_length : firstRead.length ≤ 1020
  reads_length : ∀ chunk ∈ reads, chunk ≠ [] ∧ chunk.length ≤ 16384

/-- What the writes append to a file. -/
def appended (writes : List Write) (file : Bytes) : Bytes :=
  (writes.filter fun write => write.file == file).flatMap Write.bytes

/-- The files written are those of the parts, each with the content of its part. -/
structure Stores (parts : List Part) (writes : List Write) : Prop where
  files : ∀ name, (∃ write ∈ writes, write.file = name) ↔ ∃ part ∈ parts, part.filename = name
  contents : ∀ part ∈ parts, appended writes part.filename = part.content

/-! ## When it is stored -/

/-- `filebuf` after these reads. -/
def filebufAfter (filebuf : Bytes) (reads : List Bytes) : Bytes :=
  reads.foldl (fun filebuf chunk => overlay chunk filebuf) filebuf

/-- What lies behind the bytes of a read: the rest of `filebuf` and of the stack. -/
def Stack.behind (stack : Stack) (earlier : List Bytes) (chunk : Bytes) : Bytes :=
  (filebufAfter stack.filebuf earlier).drop chunk.length ++ stack.beyond earlier.length

/-- The cuts that `handle_post` gets right for a form of one part. -/
structure Delivered (garbage : Set Stack) (boundary : Bytes) (part : Part) (firstRead : Bytes)
    (earlier : List Bytes) (last : Bytes) : Prop where
  /-- The length of the body is an `int`. -/
  length : (formBody boundary [part]).length < 2 ^ 31
  /-- The first read has the whole header of the part. -/
  header : opening boundary part <+: firstRead
  /-- No other `filename=` in the first read comes between. -/
  name : attachmentName firstRead = some part.filename
  /-- The last read ends with the whole closing delimiter. -/
  closed : closing boundary <:+ last
  /-- No read before it lets the boundary be seen, in what it leaves of the reads
  before it either. -/
  unseen : ∀ stack ∈ garbage, ∀ before chunk after, earlier = before ++ chunk :: after →
    ¬boundary <:+: cString (chunk ++ stack.behind before chunk)
  /-- No empty line is seen behind the closing delimiter. -/
  ended : ∀ stack ∈ garbage, ¬crlfcrlf <:+: cString (crlf ++ stack.behind earlier last)

/-! ## The rounds of the loop -/

/-- One round: the bytes read and the memory that is searched then. -/
structure Round where
  chunk : Bytes
  memory : Bytes

/-- The rounds that `reads` give from round number `round` on. -/
def rounds (stack : Stack) : Nat → Bytes → List Bytes → List Round
  | _, _, [] => []
  | round, filebuf, chunk :: reads =>
      ⟨chunk, overlay chunk filebuf ++ stack.beyond round⟩ ::
        rounds stack (round + 1) (overlay chunk filebuf) reads

namespace Round

/-- `strstr(filebuf, boundary)` finds the boundary. -/
def Visible (boundary : Bytes) (round : Round) : Prop := boundary <:+: cString round.memory

instance (boundary : Bytes) : DecidablePred (Visible boundary) :=
  fun round => inferInstanceAs (Decidable (boundary <:+: cString round.memory))

/-- `handle_post` takes the round for the start of another part. -/
def Switches (boundary : Bytes) (round : Round) : Prop :=
  ∃ before after, breakAt boundary (cString round.memory) = some (before, after) ∧
    crlfcrlf <:+: cString (round.memory.drop (before.length + boundary.length + 2))

/-- The round only appends to the file that is open. -/
structure Stays (boundary : Bytes) (round : Round) : Prop where
  read : round.chunk <+: round.memory
  open_file : ¬Switches boundary round
  long : Visible boundary round → boundary.length + 8 ≤ round.chunk.length

/-- What a round that stays appends. -/
def kept (boundary : Bytes) (round : Round) : Bytes :=
  if Visible boundary round then round.chunk.take (round.chunk.length - (boundary.length + 8))
  else round.chunk

variable {boundary file next : Bytes} {round : Round} {writes : List Write}

theorem take_memory {size : Nat} (read : round.chunk <+: round.memory)
    (inside : size ≤ round.chunk.length) : round.memory.take size = round.chunk.take size := by
  rcases read with ⟨stale, whole⟩
  rw [← whole, List.take_append_of_le_length inside]

theorem Stays.storeChunk (stays : Stays boundary round) (file : Bytes) :
    storeChunk boundary round.memory round.chunk.length file =
      some (file, [⟨file, kept boundary round⟩]) := by
  by_cases visible : Visible boundary round
  · rcases exists_breakAt_of_infix visible with ⟨before, after, found⟩
    have unended : breakAt crlfcrlf
        (cString (round.memory.drop (before.length + boundary.length + 2))) = none :=
      breakAt_eq_none_iff.mpr fun ended => stays.open_file ⟨before, after, found, ended⟩
    have long := stays.long visible
    simp only [Http.storeChunk, found, unended, kept, if_pos visible, if_neg (Nat.not_lt.mpr long)]
    rw [take_memory stays.read (Nat.sub_le _ _)]
  · have missing := breakAt_eq_none_iff.mpr visible
    simp only [Http.storeChunk, missing, kept, if_neg visible]
    rw [take_memory stays.read (Nat.le_refl _), List.take_length]

/-- A round that opens another file writes the boundary into the one before. -/
theorem not_switches_of_storeChunk
    (stored : Http.storeChunk boundary round.memory round.chunk.length file = some (next, writes))
    (clean : ∀ write ∈ writes, ¬boundary <:+: write.bytes) : ¬Switches boundary round := by
  rintro ⟨before, after, found, ended⟩
  rcases exists_breakAt_of_infix ended with ⟨head, tail, parts⟩
  have first : ⟨file, round.memory.take (before.length + boundary.length + 2)⟩ ∈ writes := by
    simp only [Http.storeChunk, found, parts] at stored
    split at stored
    · simp at stored
    · split at stored
      · simp at stored
      · split at stored
        · simp at stored
        · simp only [Option.some.injEq, Prod.mk.injEq] at stored
          exact stored.2 ▸ List.mem_cons_self
  have seen : before ++ boundary <+: cString round.memory := ⟨after, (breakAt_sound found).symm⟩
  have written : before ++ boundary <+:
      round.memory.take (before.length + boundary.length + 2) := by
    apply List.prefix_take_iff.mpr
    refine ⟨seen.trans (List.takeWhile_prefix _), ?_⟩
    simp only [List.length_append]
    omega
  exact clean _ first ((List.suffix_append before boundary).isInfix.trans written.isInfix)

theorem stays_of_storeChunk (read : round.chunk <+: round.memory)
    (stored : Http.storeChunk boundary round.memory round.chunk.length file = some (next, writes))
    (clean : ∀ write ∈ writes, ¬boundary <:+: write.bytes) : Stays boundary round := by
  have open_file := not_switches_of_storeChunk stored clean
  refine ⟨read, open_file, ?_⟩
  intro visible
  rcases exists_breakAt_of_infix visible with ⟨before, after, found⟩
  have unended : breakAt crlfcrlf
      (cString (round.memory.drop (before.length + boundary.length + 2))) = none :=
    breakAt_eq_none_iff.mpr fun ended => open_file ⟨before, after, found, ended⟩
  by_contra short
  simp [Http.storeChunk, found, unended, Nat.lt_of_not_le short] at stored

end Round

/-- The loop over its rounds. -/
def storeRounds (boundary : Bytes) : Bytes → List Round → Option (List Write)
  | _, [] => some []
  | file, round :: rounds =>
      (storeChunk boundary round.memory round.chunk.length file).bind fun (next, writes) =>
        (storeRounds boundary next rounds).map (writes ++ ·)

section Loop

variable {boundary file : Bytes} {stack : Stack} {writes : List Write}

/-- As long as the body is not complete, every read is a round. -/
theorem storeReads_eq {contentLength : Int} {round curlength : Nat} {filebuf : Bytes}
    {reads : List Bytes} (nonempty : ∀ chunk ∈ reads, chunk ≠ [])
    (complete : ((curlength + reads.flatten.length : Nat) : Int) = contentLength) :
    storeReads boundary stack contentLength round curlength file filebuf reads =
      (storeRounds boundary file (rounds stack round filebuf reads)).map fun writes =>
        (writes, []) := by
  induction reads generalizing round curlength file filebuf with
  | nil => rfl
  | cons chunk reads ih =>
      have here : chunk ≠ [] := nonempty chunk List.mem_cons_self
      have positive : 0 < chunk.length := List.length_pos_iff.mpr here
      simp only [List.flatten_cons, List.length_append] at complete
      have waiting : (curlength : Int) < contentLength := by omega
      simp only [storeReads, rounds, storeRounds, if_pos waiting, if_neg here]
      cases storeChunk boundary (overlay chunk filebuf ++ stack.beyond round) chunk.length file with
      | none => rfl
      | some stored =>
          simp only [Option.bind_some]
          rw [ih (fun other member => nonempty other (List.mem_cons_of_mem _ member)) (by omega)]
          cases storeRounds boundary stored.1
              (rounds stack (round + 1) (overlay chunk filebuf) reads) with
          | none => rfl
          | some later => rfl

theorem storeRounds_of_stays {given : List Round}
    (stays : ∀ round ∈ given, round.Stays boundary) :
    storeRounds boundary file given =
      some (given.map fun round => ⟨file, round.kept boundary⟩) := by
  induction given with
  | nil => rfl
  | cons round given ih =>
      have later := ih fun other member => stays other (List.mem_cons_of_mem _ member)
      simp [storeRounds, (stays round List.mem_cons_self).storeChunk, later]

theorem stays_of_storeRounds {given : List Round}
    (read : ∀ round ∈ given, round.chunk <+: round.memory)
    (stored : storeRounds boundary file given = some writes)
    (clean : ∀ write ∈ writes, ¬boundary <:+: write.bytes) :
    ∀ round ∈ given, round.Stays boundary := by
  induction given generalizing file writes with
  | nil => simp
  | cons round given ih =>
      rcases Option.bind_eq_some_iff.mp stored with ⟨⟨next, now⟩, first, rest⟩
      rcases Option.map_eq_some_iff.mp rest with ⟨later, others, rfl⟩
      have here : round.Stays boundary :=
        Round.stays_of_storeChunk (read round List.mem_cons_self) first
          fun write member => clean write (List.mem_append_left _ member)
      have there := ih (fun other member => read other (List.mem_cons_of_mem _ member)) others
        fun write member => clean write (List.mem_append_right _ member)
      intro other member
      rcases List.mem_cons.mp member with rfl | member
      · exact here
      · exact there other member

theorem rounds_chunk (stack : Stack) (round : Nat) (filebuf : Bytes) (reads : List Bytes) :
    (rounds stack round filebuf reads).map Round.chunk = reads := by
  induction reads generalizing round filebuf with
  | nil => rfl
  | cons chunk reads ih => simp [rounds, ih]

theorem rounds_append (stack : Stack) (round : Nat) (filebuf : Bytes) (earlier later : List Bytes) :
    rounds stack round filebuf (earlier ++ later) =
      rounds stack round filebuf earlier ++
        rounds stack (round + earlier.length) (filebufAfter filebuf earlier) later := by
  induction earlier generalizing round filebuf with
  | nil => rfl
  | cons chunk earlier ih =>
      simp only [List.cons_append, rounds, ih, List.length_cons]
      rw [Nat.add_right_comm round 1, Nat.add_assoc]
      rfl

theorem read_of_mem_rounds {stack : Stack} {start : Nat} {filebuf : Bytes} {reads : List Bytes} :
    ∀ round ∈ rounds stack start filebuf reads, round.chunk <+: round.memory := by
  induction reads generalizing start filebuf with
  | nil => simp [rounds]
  | cons chunk reads ih =>
      intro round member
      rcases List.mem_cons.mp member with rfl | member
      · exact (List.prefix_append _ _).trans (List.prefix_append _ _)
      · exact ih round member

/-- A round of the list belongs to a read. -/
theorem rounds_eq_append_cons {start : Nat} {filebuf : Bytes} {reads : List Bytes}
    {first second : List Round} {round : Round}
    (split : rounds stack start filebuf reads = first ++ round :: second) :
    ∃ earlier chunk later, reads = earlier ++ chunk :: later ∧
      first = rounds stack start filebuf earlier ∧
      round = ⟨chunk, overlay chunk (filebufAfter filebuf earlier) ++
        stack.beyond (start + earlier.length)⟩ ∧
      second = rounds stack (start + earlier.length + 1)
        (overlay chunk (filebufAfter filebuf earlier)) later := by
  induction first generalizing start filebuf reads with
  | nil =>
      cases reads with
      | nil => simp [rounds] at split
      | cons chunk later =>
          rw [rounds, List.nil_append, List.cons.injEq] at split
          exact ⟨[], chunk, later, rfl, rfl, split.1.symm, split.2.symm⟩
  | cons other first ih =>
      cases reads with
      | nil => simp [rounds] at split
      | cons head reads =>
          rw [rounds, List.cons_append, List.cons.injEq] at split
          rcases split with ⟨rfl, split⟩
          rcases ih split with ⟨earlier, chunk, later, rfl, rfl, rfl, rfl⟩
          refine ⟨head :: earlier, chunk, later, rfl, rfl, ?_, ?_⟩
          · rw [List.length_cons, Nat.add_right_comm start 1, Nat.add_assoc]
            rfl
          · rw [List.length_cons, Nat.add_right_comm start 1, Nat.add_assoc start]
            rfl

end Loop

/-! ## The closing delimiter -/

section Delimiter

variable {boundary : Bytes}

theorem length_closing (boundary : Bytes) : (closing boundary).length = boundary.length + 8 := by
  simp [closing, crlf, ascii]

/-- The line of the closing delimiter, `--` on both sides. -/
def closingLine (boundary : Bytes) : Bytes := ascii "--" ++ boundary ++ ascii "--"

theorem closing_eq (boundary : Bytes) :
    closing boundary = 13 :: 10 :: (closingLine boundary ++ crlf) := by
  simp [closing, closingLine, crlf, ascii]

theorem not_mem_closingLine {c : UInt8} (other : c ≠ 45) (foreign : c ∉ boundary) :
    c ∉ closingLine boundary := by
  simp [closingLine, ascii, other, foreign]

theorem boundary_infix_closing (boundary : Bytes) : boundary <:+: closing boundary :=
  ⟨crlf ++ ascii "--", ascii "--" ++ crlf, by simp [closing]⟩

section Plain

/-! A boundary without NUL, carriage return and line feed. -/

variable (plain : ∀ c ∈ boundary, c ≠ 0 ∧ c ≠ 13 ∧ c ≠ 10)

include plain

theorem control_not_mem {c : UInt8} (control : c = 0 ∨ c = 13 ∨ c = 10) : c ∉ boundary := by
  intro member
  have other := plain c member
  rcases control with rfl | rfl | rfl
  · exact other.1 rfl
  · exact other.2.1 rfl
  · exact other.2.2 rfl

theorem control_not_mem_closingLine {c : UInt8} (control : c = 0 ∨ c = 13 ∨ c = 10) :
    c ∉ closingLine boundary := by
  apply not_mem_closingLine _ (control_not_mem plain control)
  rcases control with rfl | rfl | rfl <;> decide

variable {round : Round} {content stale : Bytes} (noNul : 0 ∉ content)
  (memory : round.memory = content ++ closing boundary ++ stale)

include noNul memory

/-- What `strstr` searches in a round that ends with the closing delimiter. -/
theorem cString_closing :
    cString round.memory =
      content ++ 13 :: (10 :: (closingLine boundary ++ cString (crlf ++ stale))) := by
  have front : 0 ∉ content ++ [13, 10] ++ closingLine boundary := by
    simp [noNul, control_not_mem_closingLine plain (.inl rfl)]
  calc cString round.memory
      = cString (content ++ [13, 10] ++ closingLine boundary ++ (crlf ++ stale)) := by
        rw [memory, closing_eq]
        simp
    _ = content ++ [13, 10] ++ closingLine boundary ++ cString (crlf ++ stale) :=
        cString_append front _
    _ = _ := by simp

variable (nonempty : boundary ≠ []) (absent : ¬boundary <:+: content) {before after : Bytes}
  (found : breakAt boundary (cString round.memory) = some (before, after))

include nonempty absent found

/-- The first occurrence starts at most two characters into the line of the
delimiter. -/
theorem breakAt_closing : ∃ gap, before = content ++ 13 :: 10 :: gap ∧ gap.length ≤ 2 := by
  have searched := cString_closing plain noNul memory
  have sound := (breakAt_sound found).symm
  rw [searched] at sound
  rcases occurrence_beside (control_not_mem plain (.inr (.inl rfl))) sound with ⟨gap, inside⟩ |
    ⟨gap, rfl, rest⟩
  · exact absurd ⟨before, gap, inside.symm⟩ absent
  · have next : gap ++ boundary ++ after =
        [] ++ 10 :: (closingLine boundary ++ cString (crlf ++ stale)) := rest.symm
    rcases occurrence_beside (control_not_mem plain (.inr (.inr rfl))) next with
      ⟨inner, inside⟩ | ⟨inner, rfl, _⟩
    · simp [nonempty] at inside
    · refine ⟨inner, rfl, ?_⟩
      have there : cString round.memory = (content ++ [13, 10] ++ ascii "--") ++ boundary ++
          (ascii "--" ++ cString (crlf ++ stale)) := by
        rw [searched]
        simp [closingLine]
      have first := breakAt_first found there
      simp [ascii] at first
      omega

/-- An empty line behind that occurrence lies behind the delimiter. -/
theorem emptyLine_closing :
    crlfcrlf <:+: cString (round.memory.drop (before.length + boundary.length + 2)) ↔
      crlfcrlf <:+: cString (crlf ++ stale) := by
  rcases breakAt_closing plain noNul memory nonempty absent found with ⟨gap, rfl, short⟩
  have size : (closingLine boundary).length = boundary.length + 4 := by
    simp [closingLine, ascii]
  have split : round.memory =
      (content ++ [13, 10]) ++ (closingLine boundary ++ (crlf ++ stale)) := by
    rw [memory, closing_eq]
    simp
  have place : (content ++ 13 :: 10 :: gap).length + boundary.length + 2 =
      (content ++ [13, 10]).length + (gap.length + boundary.length + 2) := by
    simp only [List.length_append, List.length_cons, List.length_nil]
    omega
  have free (c : UInt8) (control : c = 0 ∨ c = 13 ∨ c = 10) :
      c ∉ (closingLine boundary).drop (gap.length + boundary.length + 2) :=
    fun member => control_not_mem_closingLine plain control (List.mem_of_mem_drop member)
  rw [split, place, List.drop_length_add_append, List.drop_append_of_le_length (by omega),
    cString_append (free 0 (.inl rfl))]
  exact infix_append_iff_of_head_not_mem (free 13 (.inr (.inl rfl)))

end Plain

/-- A round that ends with the closing delimiter sees the boundary, and opens another
file exactly if an empty line is visible from the end of the delimiter on. -/
theorem switches_closing {round : Round} {content stale : Bytes} (nonempty : boundary ≠ [])
    (plain : ∀ c ∈ boundary, c ≠ 0 ∧ c ≠ 13 ∧ c ≠ 10)
    (noNul : 0 ∉ content) (absent : ¬boundary <:+: content)
    (memory : round.memory = content ++ closing boundary ++ stale) :
    round.Visible boundary ∧
      (round.Switches boundary ↔ crlfcrlf <:+: cString (crlf ++ stale)) := by
  have visible : round.Visible boundary := by
    rw [Round.Visible, cString_closing plain noNul memory, closingLine]
    exact ⟨content ++ [13, 10] ++ ascii "--", ascii "--" ++ cString (crlf ++ stale), by simp⟩
  refine ⟨visible, ?_, ?_⟩
  · rintro ⟨before, after, found, ended⟩
    exact (emptyLine_closing plain noNul memory nonempty absent found).mp ended
  · intro ended
    rcases exists_breakAt_of_infix visible with ⟨before, after, found⟩
    exact ⟨before, after, found,
      (emptyLine_closing plain noNul memory nonempty absent found).mpr ended⟩

end Delimiter

/-! ## A submission -/

theorem atoi_digits {text : Bytes} (nonempty : text ≠ []) (digits : ∀ c ∈ text, isdigit c) :
    atoi text =
      if digitsValue text < 2 ^ 31 then some (digitsValue text : Int) else none := by
  have noNul : 0 ∉ text := fun member => absurd (digits 0 member) (by decide)
  have taken : text.takeWhile isdigit = text := List.takeWhile_eq_self_iff.mpr digits
  cases text with
  | nil => exact absurd rfl nonempty
  | cons first rest =>
      have digit := digits first List.mem_cons_self
      have bounds : 48 ≤ first ∧ first ≤ 57 := by simpa [isdigit] using digit
      have space : isspace first = false := by
        rcases bounds with ⟨low, high⟩
        have low := UInt8.le_iff_toNat_le.mp low
        simp only [isspace, Bool.or_eq_false_iff, Bool.and_eq_false_iff, beq_eq_false_iff_ne]
        constructor
        · rintro rfl
          exact absurd low (by decide)
        · right
          rw [decide_eq_false_iff_not]
          intro small
          have small := UInt8.le_iff_toNat_le.mp small
          have : (48 : UInt8).toNat ≤ (13 : UInt8).toNat := low.trans small
          exact absurd this (by decide)
      have minus : first ≠ 45 := by
        rintro rfl
        exact absurd bounds.1 (by decide)
      have plus : first ≠ 43 := by
        rintro rfl
        exact absurd bounds.1 (by decide)
      have start : (cString (first :: rest)).dropWhile isspace = first :: rest := by
        rw [cString_eq_self noNul, List.dropWhile_cons_of_neg (by simp [space])]
      simp only [atoi, start]
      split
      · rename_i same
        exact absurd (List.cons.inj same).1 minus
      · rename_i same
        exact absurd (List.cons.inj same).1 plus
      · rw [taken]
        by_cases fits : digitsValue (first :: rest) < 2 ^ 31
        · rw [if_pos fits, if_pos (by omega)]
        · rw [if_neg fits, if_neg (by omega)]

theorem formBody_single (boundary : Bytes) (part : Part) :
    formBody boundary [part] = opening boundary part ++ part.content ++ closing boundary := by
  simp [formBody, closing]

namespace Submission

variable {request : Request} {parts : List Part} {firstRead : Bytes} {reads : List Bytes}
  {stack : Stack} {writes : List Write} {left : List Bytes}

theorem noNul (sent : Submission request parts firstRead reads) :
    0 ∉ formBody request.boundary parts := by
  have boundary : 0 ∉ request.boundary := fun member => (sent.boundary_characters 0 member).1 rfl
  intro member
  simp only [formBody, opening, List.mem_append, List.mem_flatMap] at member
  have crlf_free : (0 : UInt8) ∉ crlf := by decide
  have crlfcrlf_free : (0 : UInt8) ∉ crlfcrlf := by decide
  have dashes_free : (0 : UInt8) ∉ ascii "--" := by decide
  have header := sent.header_characters
  have content := sent.content_characters
  grind

theorem noNul_firstRead (sent : Submission request parts firstRead reads) : 0 ∉ firstRead :=
  fun member => sent.noNul (sent.cut ▸ List.mem_append_left _ member)

theorem noNul_reads (sent : Submission request parts firstRead reads) : 0 ∉ reads.flatten :=
  fun member => sent.noNul (sent.cut ▸ List.mem_append_right _ member)

/-- Once the header is in the first read, every later read is a round of the loop. -/
theorem handlePost_eq (sent : Submission request parts firstRead reads) (stack : Stack)
    {head extra : Bytes} (found : breakAt crlfcrlf firstRead = some (head, extra))
    (fits : (formBody request.boundary parts).length < 2 ^ 31) :
    handlePost request firstRead stack reads =
      (attachmentName firstRead).bind fun name =>
        (storeRounds request.boundary name (rounds stack 0 stack.filebuf reads)).map fun writes =>
          (⟨name, extra⟩ :: writes, []) := by
  have length : atoi (request.getField (ascii "Content-Length")) =
      some ((formBody request.boundary parts).length : Int) := by
    rw [atoi_digits sent.length_digits.1 sent.length_digits.2, sent.length_value, if_pos fits]
  have rest : firstRead.drop (head.length + 4) = extra := by
    have whole : head.length + 4 = (head ++ crlfcrlf).length := by simp [crlfcrlf, ascii]
    rw [breakAt_sound found, whole, List.drop_left]
  have complete : ((firstRead.length + reads.flatten.length : Nat) : Int) =
      ((formBody request.boundary parts).length : Int) := by
    rw [← sent.cut, List.length_append]
  simp only [handlePost, cString_eq_self sent.noNul_firstRead, found, length, Option.bind_some,
    rest]
  cases attachmentName firstRead with
  | none => rfl
  | some name =>
      simp only [Option.bind_some]
      rw [storeReads_eq (fun chunk member => (sent.reads_length chunk member).1) complete,
        Option.map_map]
      rfl

/-- `handle_post` does not come through without the header and a length it can read. -/
theorem of_handlePost (sent : Submission request parts firstRead reads)
    (stored : handlePost request firstRead stack reads = some (writes, left)) :
    (formBody request.boundary parts).length < 2 ^ 31 ∧
      ∃ head extra, breakAt crlfcrlf firstRead = some (head, extra) := by
  rw [handlePost, cString_eq_self sent.noNul_firstRead] at stored
  cases found : breakAt crlfcrlf firstRead with
  | none => simp [found] at stored
  | some split =>
      refine ⟨?_, split.1, split.2, rfl⟩
      by_contra large
      have length : atoi (request.getField (ascii "Content-Length")) = none := by
        rw [atoi_digits sent.length_digits.1 sent.length_digits.2, sent.length_value, if_neg large]
      simp [found, length] at stored

end Submission

theorem appended_of_same_file {writes : List Write} {file : Bytes}
    (same : ∀ write ∈ writes, write.file = file) :
    appended writes file = writes.flatMap Write.bytes := by
  rw [appended, List.filter_eq_self.mpr]
  intro write member
  exact beq_iff_eq.mpr (same write member)

theorem bytes_infix_appended {writes : List Write} {write : Write} (member : write ∈ writes) :
    write.bytes <:+: appended writes write.file := by
  have kept : write ∈ writes.filter fun other => other.file == write.file := by
    simp [member]
  rcases List.append_of_mem kept with ⟨before, after, split⟩
  rw [appended, split, List.flatMap_append, List.flatMap_cons]
  exact ⟨_, _, List.append_assoc _ _ _⟩

/-- Distinct names that are all the same name are one. -/
theorem eq_singleton_of_same_filename {parts : List Part} {name : Bytes} (nonempty : parts ≠ [])
    (distinct : (parts.map Part.filename).Nodup) (same : ∀ part ∈ parts, part.filename = name) :
    ∃ part, parts = [part] := by
  match parts, nonempty with
  | [part], _ => exact ⟨part, rfl⟩
  | first :: second :: rest, _ =>
      have equal : first.filename = second.filename := by
        rw [same first (by simp), same second (by simp)]
      simp [equal] at distinct

namespace Submission

variable {request : Request} {parts : List Part} {firstRead : Bytes} {reads : List Bytes}
  {stack : Stack} {writes : List Write} {left : List Bytes}

/-- The header found in the first read is that of the first part. -/
theorem firstRead_eq {part : Part} {others : List Part} {head extra : Bytes}
    (sent : Submission request (part :: others) firstRead reads)
    (found : breakAt crlfcrlf firstRead = some (head, extra)) :
    firstRead = opening request.boundary part ++ extra := by
  have body : formBody request.boundary (part :: others) =
      opening request.boundary part ++
        (part.content ++ crlf ++ formBody request.boundary others) := by
    simp [formBody]
  have inside := breakAt_append reads.flatten found
  rw [sent.cut, body,
    breakAt_append _ (sent.header_ends part List.mem_cons_self), Option.some.injEq,
    Prod.mk.injEq] at inside
  rw [breakAt_sound found, ← inside.1]
  rfl

/-- What a run of `handle_post` that stores the form looks like. -/
theorem of_stores (sent : Submission request parts firstRead reads)
    (stored : handlePost request firstRead stack reads = some (writes, left))
    (stores : Stores parts writes) :
    ∃ part extra, parts = [part] ∧ firstRead = opening request.boundary part ++ extra ∧
      attachmentName firstRead = some part.filename ∧
      (∀ round ∈ rounds stack 0 stack.filebuf reads, round.Stays request.boundary) ∧
      extra ++ ((rounds stack 0 stack.filebuf reads).map (Round.kept request.boundary)).flatten =
        part.content := by
  rcases sent.of_handlePost stored with ⟨fits, head, extra, found⟩
  rw [sent.handlePost_eq stack found fits] at stored
  rcases Option.bind_eq_some_iff.mp stored with ⟨name, named, rest⟩
  rcases Option.map_eq_some_iff.mp rest with ⟨later, looped, same⟩
  rw [Prod.mk.injEq] at same
  rcases same with ⟨rfl, _⟩
  -- every block written is inside the content of a part
  have clean : ∀ write ∈ (⟨name, extra⟩ :: later : List Write),
      ¬request.boundary <:+: write.bytes := by
    intro write member occurs
    rcases (stores.files write.file).mp ⟨write, member, rfl⟩ with ⟨part, sent_part, file⟩
    apply sent.content_boundary part sent_part
    rw [← stores.contents part sent_part, file]
    exact occurs.trans (bytes_infix_appended member)
  have stays := stays_of_storeRounds read_of_mem_rounds looped fun write member =>
    clean write (List.mem_cons_of_mem _ member)
  rw [storeRounds_of_stays stays, Option.some.injEq] at looped
  have one_file : ∀ write ∈ (⟨name, extra⟩ :: later : List Write), write.file = name := by
    rw [← looped]
    intro write member
    rcases List.mem_cons.mp member with rfl | member
    · rfl
    · rcases List.mem_map.mp member with ⟨round, _, rfl⟩
      rfl
  have names : ∀ part ∈ parts, part.filename = name := by
    intro part member
    rcases (stores.files part.filename).mpr ⟨part, member, rfl⟩ with ⟨write, written, file⟩
    rw [← file, one_file write written]
  rcases eq_singleton_of_same_filename sent.parts_nonempty sent.distinct names with ⟨part, rfl⟩
  have member : part ∈ [part] := List.mem_singleton_self part
  refine ⟨part, extra, rfl, sent.firstRead_eq found, ?_, stays, ?_⟩
  · rw [named, names part member]
  · have content := stores.contents part member
    rw [names part member, appended_of_same_file one_file, ← looped] at content
    simpa [List.flatMap, Function.comp_def] using content

/-- A run all of whose rounds stay in the file of the only part. -/
theorem handlePost_single {part : Part} {extra : Bytes}
    (sent : Submission request [part] firstRead reads)
    (fits : (formBody request.boundary [part]).length < 2 ^ 31)
    (header : firstRead = opening request.boundary part ++ extra)
    (named : attachmentName firstRead = some part.filename)
    (stays : ∀ round ∈ rounds stack 0 stack.filebuf reads, round.Stays request.boundary)
    (content : extra ++
      ((rounds stack 0 stack.filebuf reads).map (Round.kept request.boundary)).flatten =
        part.content) :
    ∃ writes left, handlePost request firstRead stack reads = some (writes, left) ∧
      Stores [part] writes := by
  have found : breakAt crlfcrlf firstRead =
      some (ascii "--" ++ request.boundary ++ crlf ++ part.header, [] ++ extra) := by
    rw [header]
    exact breakAt_append extra (sent.header_ends part List.mem_cons_self)
  let later : List Write := (rounds stack 0 stack.filebuf reads).map fun round =>
    ⟨part.filename, round.kept request.boundary⟩
  have one_file : ∀ write ∈ (⟨part.filename, extra⟩ :: later : List Write),
      write.file = part.filename := by
    intro write member
    rcases List.mem_cons.mp member with rfl | member
    · rfl
    · rcases List.mem_map.mp member with ⟨round, _, rfl⟩
      rfl
  refine ⟨⟨part.filename, extra⟩ :: later, [], ?_, ?_, ?_⟩
  · rw [sent.handlePost_eq stack found fits, named, Option.bind_some,
      storeRounds_of_stays stays]
    rfl
  · intro name
    constructor
    · rintro ⟨write, member, rfl⟩
      exact ⟨part, List.mem_singleton_self part, (one_file write member).symm⟩
    · rintro ⟨other, member, rfl⟩
      rw [List.mem_singleton] at member
      exact ⟨_, List.mem_cons_self, by rw [member]⟩
  · intro other member
    rw [List.mem_singleton] at member
    rw [member, appended_of_same_file one_file]
    simpa [later, List.flatMap, Function.comp_def] using content

end Submission

/-! ## Where the closing delimiter is cut off

A round that sees the boundary takes the length of the closing delimiter off the end of its
own read, wherever the delimiter is.  A run that stores the content has exactly one such round;
it is the last one, and its read ends with the whole delimiter.
-/

/-- A list with one element of a kind, taken apart at it. -/
theorem exists_only_of_countP_eq_one {Item : Type} {kind : Item → Prop} [DecidablePred kind]
    {items : List Item} (one : items.countP (fun item => decide (kind item)) = 1) :
    ∃ before item after, items = before ++ item :: after ∧ kind item ∧
      (∀ other ∈ before, ¬kind other) ∧ ∀ other ∈ after, ¬kind other := by
  have some_item : 0 < items.countP (fun item => decide (kind item)) := by omega
  rcases List.countP_pos_iff.mp some_item with ⟨item, member, this⟩
  rcases List.append_of_mem member with ⟨before, after, rfl⟩
  have here : kind item := of_decide_eq_true this
  simp only [List.countP_append, List.countP_cons, this, if_true] at one
  have none_before : before.countP (fun item => decide (kind item)) = 0 := by omega
  have none_after : after.countP (fun item => decide (kind item)) = 0 := by omega
  refine ⟨before, item, after, rfl, here, ?_, ?_⟩
  · simpa using none_before
  · simpa using none_after

/-- A block moved from behind a text to its front. -/
theorem suffix_or_split_of_moved {text block moved : Bytes} (same : text ++ block = moved ++ text) :
    block <:+ text ∨ ∃ front, front ≠ [] ∧ block = front ++ text ∧ moved = text ++ front := by
  have tail : text <:+ text ++ block := ⟨moved, same.symm⟩
  by_cases fits : block.length ≤ text.length
  · exact .inl (List.suffix_of_suffix_length_le (List.suffix_append _ _) tail fits)
  · rcases List.suffix_of_suffix_length_le tail (List.suffix_append _ _) (by omega) with
      ⟨front, rfl⟩
    refine .inr ⟨front, ?_, rfl, ?_⟩
    · rintro rfl
      simp at fits
    · rw [← List.append_assoc] at same
      exact (List.append_cancel_right same).symm

namespace Round

variable {boundary : Bytes} {given : List Round}

theorem map_kept_of_unseen (unseen : ∀ round ∈ given, ¬Visible boundary round) :
    given.map (kept boundary) = given.map Round.chunk :=
  List.map_congr_left fun round member => if_neg (unseen round member)

/-- Each round that sees the boundary cuts off as much as the closing delimiter has. -/
theorem length_kept (stays : ∀ round ∈ given, Stays boundary round) :
    (given.map (kept boundary)).flatten.length +
        given.countP (fun round => decide (Visible boundary round)) * (boundary.length + 8) =
      (given.map Round.chunk).flatten.length := by
  induction given with
  | nil => simp
  | cons round given ih =>
      have rest := ih fun other member => stays other (List.mem_cons_of_mem _ member)
      have here := (stays round List.mem_cons_self).long
      simp only [List.map_cons, List.flatten_cons, List.length_append]
      by_cases visible : Visible boundary round
      · have long := here visible
        rw [List.countP_cons_of_pos (by simp [visible]), Nat.add_mul, kept, if_pos visible,
          List.length_take]
        omega
      · rw [List.countP_cons_of_neg (by simp [visible]), kept, if_neg visible]
        omega

end Round

section Cut

variable {boundary content extra : Bytes} {reads : List Bytes} {stack : Stack}

/-- Exactly one round sees the boundary. -/
theorem one_round_visible
    (stays : ∀ round ∈ rounds stack 0 stack.filebuf reads, round.Stays boundary)
    (stored : extra ++
      ((rounds stack 0 stack.filebuf reads).map (Round.kept boundary)).flatten = content)
    (cut : extra ++ reads.flatten = content ++ closing boundary) :
    (rounds stack 0 stack.filebuf reads).countP
      (fun round => decide (round.Visible boundary)) = 1 := by
  have lengths := Round.length_kept stays
  have whole := congrArg List.length cut
  have kept := congrArg List.length stored
  rw [rounds_chunk] at lengths
  simp only [List.length_append, length_closing] at whole kept
  have once : (rounds stack 0 stack.filebuf reads).countP
      (fun round => decide (round.Visible boundary)) * (boundary.length + 8) =
      1 * (boundary.length + 8) := by
    omega
  exact Nat.eq_of_mul_eq_mul_right (by omega) once

/-- What a shorter read leaves behind stays visible. -/
theorem visible_behind_shorter_read {front rest stale chunk : Bytes} (foreign : 13 ∉ boundary)
    (absent : ¬boundary <:+: front) (noNul : 0 ∉ front ++ 13 :: rest) (also : 0 ∉ chunk)
    (shorter : chunk.length ≤ front.length)
    (visible : boundary <:+: cString (front ++ 13 :: rest ++ stale)) :
    boundary <:+: cString (overlay chunk (front ++ 13 :: rest ++ stale)) := by
  have after : boundary <:+: rest ++ cString stale := by
    rw [cString_append noNul, List.append_assoc, List.cons_append] at visible
    exact (infix_or_infix_of_not_mem visible foreign).resolve_left absent
  have memory : overlay chunk (front ++ 13 :: rest ++ stale) =
      (chunk ++ front.drop chunk.length ++ 13 :: rest) ++ stale := by
    rw [overlay, List.append_assoc, List.drop_append_of_le_length shorter]
    simp
  have free : 0 ∉ chunk ++ front.drop chunk.length ++ 13 :: rest := by
    simp only [List.mem_append, not_or] at noNul ⊢
    exact ⟨⟨also, fun member => noNul.1 (List.mem_of_mem_drop member)⟩, noNul.2⟩
  rw [memory, cString_append free]
  exact after.trans ⟨chunk ++ front.drop chunk.length ++ [13], [], by simp⟩

/-- A delimiter that goes on into a shorter read is seen again in that read. -/
theorem visible_in_next_read {kept middle rest next filebuf : Bytes} (foreign : 13 ∉ boundary)
    (absent : ¬boundary <:+: kept ++ middle) (noNul : 0 ∉ kept ++ middle ++ 13 :: rest)
    (also : 0 ∉ next) (shorter : next.length ≤ middle.length)
    (visible : boundary <:+: cString (overlay (kept ++ (middle ++ 13 :: rest)) filebuf)) :
    boundary <:+:
      cString (overlay next (overlay (kept ++ (middle ++ 13 :: rest)) filebuf)) := by
  have memory : overlay (kept ++ (middle ++ 13 :: rest)) filebuf = kept ++ middle ++ 13 :: rest ++
      filebuf.drop (kept ++ (middle ++ 13 :: rest)).length := by
    simp [overlay]
  rw [memory] at visible ⊢
  apply visible_behind_shorter_read foreign absent noNul also _ visible
  rw [List.length_append]
  exact Nat.le_trans shorter (Nat.le_add_left _ _)

/-- On a stack of zeros, a run that stores the content has read the whole closing
delimiter with its last read. -/
theorem closing_suffix_of_stored (foreign : 13 ∉ boundary) (absent : ¬boundary <:+: content)
    (noNul : 0 ∉ reads.flatten) (nonempty : ∀ chunk ∈ reads, chunk ≠ [])
    (nothing : ∀ round, stack.beyond round = [])
    (stays : ∀ round ∈ rounds stack 0 stack.filebuf reads, round.Stays boundary)
    (stored : extra ++
      ((rounds stack 0 stack.filebuf reads).map (Round.kept boundary)).flatten = content)
    (cut : extra ++ reads.flatten = content ++ closing boundary) :
    ∃ earlier last, reads = earlier ++ [last] ∧ closing boundary <:+ last := by
  rcases exists_only_of_countP_eq_one (one_round_visible stays stored cut) with
    ⟨first, round, second, split, visible, unseen_before, unseen_after⟩
  have long := (stays round (by rw [split]; simp)).long visible
  rcases rounds_eq_append_cons split with ⟨earlier, chunk, later, rfl, rfl, rfl, rfl⟩
  simp only at long
  -- `kept` is what the round of `chunk` appends, `moved` what it cuts off
  obtain ⟨kept, moved, rfl, size⟩ : ∃ kept moved : Bytes, chunk = kept ++ moved ∧
      moved.length = boundary.length + 8 :=
    ⟨_, _, (List.take_append_drop (chunk.length - (boundary.length + 8)) chunk).symm, by
      rw [List.length_drop]
      omega⟩
  have appends : (rounds stack 0 stack.filebuf (earlier ++ (kept ++ moved) :: later)).map
      (Round.kept boundary) = earlier ++ kept :: later := by
    rw [split, List.map_append, List.map_cons, Round.map_kept_of_unseen unseen_before,
      Round.map_kept_of_unseen unseen_after, rounds_chunk, rounds_chunk, Round.kept,
      if_pos visible]
    simp [size]
  rw [appends] at stored
  have moved_over : later.flatten ++ closing boundary = moved ++ later.flatten := by
    rw [← stored] at cut
    simp only [List.flatten_append, List.flatten_cons, List.append_assoc] at cut
    simpa using cut.symm
  rcases suffix_or_split_of_moved moved_over with inside | ⟨front, front_nonempty, ends, rfl⟩
  · refine absurd ((boundary_infix_closing boundary).trans (inside.isInfix.trans ?_)) absent
    rw [← stored]
    simp only [List.flatten_append, List.flatten_cons]
    exact ⟨extra ++ earlier.flatten ++ kept, [], by simp⟩
  · cases later with
    | nil =>
        refine ⟨earlier, _, rfl, ?_⟩
        rw [List.flatten_nil, List.append_nil] at ends
        exact ⟨kept, by simp [ends]⟩
    | cons next later =>
        -- the delimiter goes on into the next read, which is too short to hide it
        exfalso
        obtain ⟨rest, rfl⟩ : ∃ rest, front = 13 :: rest := by
          cases front with
          | nil => exact absurd rfl front_nonempty
          | cons head rest =>
              rw [closing_eq, List.cons_append, List.cons.injEq] at ends
              exact ⟨rest, by rw [ends.1]⟩
        simp only [List.flatten_append, List.flatten_cons, List.mem_append, not_or] at noNul
        obtain ⟨-, ⟨keptFree, ⟨nextFree, laterFree⟩, restFree⟩, -⟩ := noNul
        rw [Round.Visible, nothing, List.append_nil] at visible
        apply unseen_after ⟨next, _⟩ List.mem_cons_self
        rw [Round.Visible, nothing, List.append_nil]
        apply visible_in_next_read foreign _ _ nextFree _ visible
        · intro occurs
          apply absent
          rw [← stored]
          simp only [List.flatten_append, List.flatten_cons]
          exact occurs.trans ⟨extra ++ earlier.flatten, [], by simp⟩
        · simp only [List.flatten_cons, List.mem_append, not_or]
          exact ⟨⟨keptFree, nextFree, laterFree⟩, restFree⟩
        · rw [List.flatten_cons, List.length_append]
          exact Nat.le_add_right _ _

end Cut

/-! ## The condition -/

section Condition

variable {stack : Stack} {reads : List Bytes}

theorem rounds_append_cons (stack : Stack) (before after : List Bytes) (chunk : Bytes) :
    rounds stack 0 stack.filebuf (before ++ chunk :: after) =
      rounds stack 0 stack.filebuf before ++ ⟨chunk, chunk ++ stack.behind before chunk⟩ ::
        rounds stack (before.length + 1)
          (overlay chunk (filebufAfter stack.filebuf before)) after := by
  rw [rounds_append, rounds, Nat.zero_add, overlay, Stack.behind, List.append_assoc]

theorem mem_rounds {round : Round} (member : round ∈ rounds stack 0 stack.filebuf reads) :
    ∃ before chunk after, reads = before ++ chunk :: after ∧
      round = ⟨chunk, chunk ++ stack.behind before chunk⟩ := by
  rcases List.append_of_mem member with ⟨first, second, split⟩
  rcases rounds_eq_append_cons split with ⟨before, chunk, after, rfl, _, rfl, _⟩
  refine ⟨before, chunk, after, rfl, ?_⟩
  rw [Nat.zero_add, overlay, Stack.behind, List.append_assoc]

theorem Round.stays_of_unseen {boundary : Bytes} {round : Round}
    (read : round.chunk <+: round.memory) (unseen : ¬round.Visible boundary) :
    round.Stays boundary := by
  refine ⟨read, ?_, fun visible => absurd visible unseen⟩
  rintro ⟨before, after, found, _⟩
  exact unseen (infix_of_breakAt found)

end Condition

namespace Submission

variable {request : Request} {part : Part} {firstRead : Bytes} {reads : List Bytes}
  {garbage : Set Stack}

theorem foreign (sent : Submission request [part] firstRead reads) : 13 ∉ request.boundary :=
  fun member => (sent.boundary_characters 13 member).2.1 rfl

/-- Behind the header, the reads deliver the content and the closing delimiter. -/
theorem cut_content {extra : Bytes} (sent : Submission request [part] firstRead reads)
    (header : firstRead = opening request.boundary part ++ extra) :
    extra ++ reads.flatten = part.content ++ closing request.boundary := by
  have cut := sent.cut
  rw [header, formBody_single, List.append_assoc, List.append_assoc] at cut
  exact List.append_cancel_left cut

/-- The round of a last read that ends with the closing delimiter. -/
theorem last_round {content : Bytes} (sent : Submission request [part] firstRead reads)
    (inside : content <:+: part.content) (stack : Stack) (earlier : List Bytes) :
    let last := content ++ closing request.boundary
    let round : Round := ⟨last, last ++ stack.behind earlier last⟩
    round.Visible request.boundary ∧ (round.Switches request.boundary ↔
      crlfcrlf <:+: cString (crlf ++ stack.behind earlier last)) :=
  switches_closing sent.boundary_nonempty sent.boundary_characters
    (fun member => sent.content_characters part List.mem_cons_self (inside.subset member))
    (fun occurs => sent.content_boundary part List.mem_cons_self (occurs.trans inside)) rfl

theorem delivered_of_stores (sent : Submission request [part] firstRead reads)
    (zeroed : Stack.zeroed ∈ garbage)
    (stored : ∀ stack ∈ garbage, ∃ writes left,
      handlePost request firstRead stack reads = some (writes, left) ∧ Stores [part] writes) :
    ∃ earlier last, reads = earlier ++ [last] ∧
      Delivered garbage request.boundary part firstRead earlier last := by
  have run (stack : Stack) (possible : stack ∈ garbage) :
      (formBody request.boundary [part]).length < 2 ^ 31 ∧ ∃ extra,
        firstRead = opening request.boundary part ++ extra ∧
        attachmentName firstRead = some part.filename ∧
        (∀ round ∈ rounds stack 0 stack.filebuf reads, round.Stays request.boundary) ∧
        extra ++
          ((rounds stack 0 stack.filebuf reads).map (Round.kept request.boundary)).flatten =
            part.content := by
    rcases stored stack possible with ⟨writes, left, stored, stores⟩
    rcases sent.of_stores stored stores with ⟨same, extra, single, rest⟩
    rw [List.cons.injEq] at single
    rw [← single.1] at rest
    exact ⟨(sent.of_handlePost stored).1, extra, rest⟩
  rcases run _ zeroed with ⟨fits, extra, header, named, stays, content⟩
  have cut := sent.cut_content header
  have absent := sent.content_boundary part List.mem_cons_self
  rcases closing_suffix_of_stored sent.foreign absent sent.noNul_reads
    (fun chunk member => (sent.reads_length chunk member).1) (fun _ => rfl) stays content cut with
    ⟨earlier, last, rfl, front, rfl⟩
  have inside : front <:+: part.content := by
    have aligned : extra ++ earlier.flatten ++ front ++ closing request.boundary =
        part.content ++ closing request.boundary := by
      simpa using cut
    have whole := List.append_cancel_right aligned
    exact ⟨extra ++ earlier.flatten, [], by rw [List.append_nil, whole]⟩
  refine ⟨earlier, _, rfl, fits, ⟨extra, header.symm⟩, named, List.suffix_append _ _, ?_, ?_⟩
  · intro stack possible before chunk after split
    rcases run stack possible with ⟨_, extra', header', _, stays', content'⟩
    rw [header, List.append_cancel_left_eq] at header'
    rw [← header'] at content'
    have once := one_round_visible stays' content' cut
    rw [rounds_append_cons, List.countP_append, List.countP_cons_of_pos
      (by simpa using (sent.last_round inside stack earlier).1)] at once
    have unseen : (rounds stack 0 stack.filebuf earlier).countP
        (fun round => decide (round.Visible request.boundary)) = 0 := by omega
    rw [List.countP_eq_zero] at unseen
    have member : ⟨chunk, chunk ++ stack.behind before chunk⟩ ∈
        rounds stack 0 stack.filebuf earlier := by
      rw [split, rounds_append_cons]
      simp
    exact fun visible => unseen _ member (decide_eq_true visible)
  · intro stack possible
    rcases run stack possible with ⟨_, _, _, _, stays', _⟩
    rw [rounds_append_cons] at stays'
    have last := stays' _ (List.mem_append_right _ List.mem_cons_self)
    exact fun ended => last.open_file ((sent.last_round inside stack earlier).2.mpr ended)

/-- The reads of a delivered form, put together. -/
theorem content_of_delivered {earlier : List Bytes} {last : Bytes}
    (sent : Submission request [part] firstRead (earlier ++ [last]))
    (delivered : Delivered garbage request.boundary part firstRead earlier last) :
    ∃ extra front, opening request.boundary part ++ extra = firstRead ∧
      last = front ++ closing request.boundary ∧
      extra ++ earlier.flatten ++ front = part.content ∧ front <:+: part.content := by
  rcases delivered.header with ⟨extra, header⟩
  rcases delivered.closed with ⟨front, rfl⟩
  have cut := sent.cut_content header.symm
  have aligned : extra ++ earlier.flatten ++ front ++ closing request.boundary =
      part.content ++ closing request.boundary := by
    simpa using cut
  have content := List.append_cancel_right aligned
  exact ⟨extra, front, header, rfl, content, extra ++ earlier.flatten, [], by
    rw [List.append_nil, content]⟩

theorem stores_of_delivered {earlier : List Bytes} {last : Bytes}
    (sent : Submission request [part] firstRead (earlier ++ [last]))
    (delivered : Delivered garbage request.boundary part firstRead earlier last)
    (stack : Stack) (possible : stack ∈ garbage) :
    ∃ writes left, handlePost request firstRead stack (earlier ++ [last]) = some (writes, left) ∧
      Stores [part] writes := by
  rcases sent.content_of_delivered delivered with ⟨extra, front, header, rfl, content, inside⟩
  have unseen : ∀ round ∈ rounds stack 0 stack.filebuf earlier,
      ¬round.Visible request.boundary := by
    intro round member
    rcases mem_rounds member with ⟨before, chunk, after, split, rfl⟩
    exact delivered.unseen stack possible before chunk after split
  have visible := sent.last_round inside stack earlier
  apply sent.handlePost_single delivered.length header.symm delivered.name
  · intro round member
    have read := read_of_mem_rounds round member
    rw [rounds_append_cons] at member
    rcases List.mem_append.mp member with member | member
    · exact Round.stays_of_unseen read (unseen round member)
    · rw [rounds, List.mem_singleton] at member
      subst member
      refine ⟨read, fun switches => ?_, fun _ => ?_⟩
      · exact delivered.ended stack possible (visible.2.mp switches)
      · simp only [List.length_append, length_closing]
        omega
  · have last : Round.kept request.boundary ⟨front ++ closing request.boundary,
        (front ++ closing request.boundary) ++
          stack.behind earlier (front ++ closing request.boundary)⟩ = front := by
      rw [Round.kept, if_pos visible.1]
      simp [length_closing]
    rw [rounds_append_cons, List.map_append, Round.map_kept_of_unseen unseen, rounds_chunk,
      ← content, rounds, List.map_cons, last]
    simp

end Submission

/-- A form is stored as it was sent, whatever the stack holds, exactly if it has one
part, the first read has the whole header of it and the last read the whole closing
delimiter, and neither a boundary nor an empty line is found in the wrong place. -/
theorem stores_iff_delivered {request : Request} {parts : List Part} {firstRead : Bytes}
    {reads : List Bytes} {garbage : Set Stack} (zeroed : Stack.zeroed ∈ garbage)
    (sent : Submission request parts firstRead reads) :
    (∀ stack ∈ garbage, ∃ writes left,
      handlePost request firstRead stack reads = some (writes, left) ∧ Stores parts writes) ↔
    ∃ part earlier last, parts = [part] ∧ reads = earlier ++ [last] ∧
      Delivered garbage request.boundary part firstRead earlier last := by
  constructor
  · intro stored
    rcases stored _ zeroed with ⟨writes, left, once, stores⟩
    rcases sent.of_stores once stores with ⟨part, extra, rfl, _⟩
    rcases sent.delivered_of_stores zeroed stored with ⟨earlier, last, split, delivered⟩
    exact ⟨part, earlier, last, rfl, split, delivered⟩
  · rintro ⟨part, earlier, last, rfl, rfl, delivered⟩ stack possible
    exact sent.stores_of_delivered delivered stack possible

/-! A form of two parts, with the second one in the second read: the boundary line
between them ends up in the first file, the closing delimiter in the second. -/

def twoParts : List Part :=
  [⟨ascii "Content-Disposition: form-data; name=\"f\"; ", ascii "a", [], ascii "x"⟩,
    ⟨ascii "Content-Disposition: form-data; name=\"f\"; ", ascii "b", [], ascii "y"⟩]

def uploadOf (boundary length : Bytes) : Request where
  type := .POST
  path := ascii "/"
  version := ascii "HTTP/1.1"
  fields := Function.update noFields (ascii "Content-Length") (some length)
  boundary := boundary

def twoPartsFirstRead : Bytes :=
  ascii "--B\r\nContent-Disposition: form-data; name=\"f\"; filename=\"a\"\r\n\r\nx"

def twoPartsReads : List Bytes :=
  [ascii "\r\n--B\r\nContent-Disposition: form-data; name=\"f\"; filename=\"b\"\r\n\r\ny\r\n--B--\r\n"]

theorem twoParts_sent :
    Submission (uploadOf (ascii "B") (ascii "139")) twoParts twoPartsFirstRead twoPartsReads := by
  constructor <;> decide +kernel

/-- The files are not those sent for some submission. -/
theorem second_part_mangles_first :
    ¬∀ (request : Request) (parts : List Part) (firstRead : Bytes) (reads : List Bytes),
      Submission request parts firstRead reads → ∃ writes left,
        handlePost request firstRead Stack.zeroed reads = some (writes, left) ∧
          Stores parts writes := by
  intro claimed
  rcases claimed _ _ _ _ twoParts_sent with ⟨writes, left, stored, stores⟩
  have run : (handlePost (uploadOf (ascii "B") (ascii "139")) twoPartsFirstRead Stack.zeroed
      twoPartsReads).map Prod.fst = some
        [⟨ascii "a", ascii "x"⟩, ⟨ascii "a", ascii "\r\n--B\r\n"⟩,
          ⟨ascii "b", ascii "y\r\n--B--\r\n"⟩] := by
    decide +kernel
  rw [stored, Option.map_some, Option.some.injEq] at run
  have content := stores.contents _ List.mem_cons_self
  rw [show writes = _ from run] at content
  exact absurd content (by decide +kernel)

/-! A form of one part that `handle_post` gets right: a piece of the content in a read
of its own, the closing delimiter in the last one. -/

def onePart : Part :=
  ⟨ascii "Content-Disposition: form-data; name=\"f\"; ", ascii "a", [], ascii "xyz"⟩

theorem onePart_sent :
    Submission (uploadOf (ascii "B") (ascii "75")) [onePart] twoPartsFirstRead
      [ascii "y", ascii "z\r\n--B--\r\n"] := by
  constructor <;> decide +kernel

theorem onePart_delivered :
    Delivered {Stack.zeroed} (ascii "B") onePart twoPartsFirstRead [ascii "y"]
      (ascii "z\r\n--B--\r\n") := by
  refine ⟨by decide +kernel, by decide +kernel, by decide +kernel, by decide +kernel, ?_, ?_⟩
  · rintro stack rfl before chunk after split
    have first : before = [] := by
      cases before with
      | nil => rfl
      | cons head before => simp at split
    subst first
    simp only [List.nil_append, List.cons.injEq] at split
    rw [← split.1]
    decide +kernel
  · rintro stack rfl
    decide +kernel

theorem stores_iff_delivered_onePart : ∃ writes left,
    handlePost (uploadOf (ascii "B") (ascii "75")) twoPartsFirstRead Stack.zeroed
      [ascii "y", ascii "z\r\n--B--\r\n"] = some (writes, left) ∧ Stores [onePart] writes :=
  (stores_iff_delivered (rfl : Stack.zeroed ∈ {Stack.zeroed}) onePart_sent).mpr
    ⟨onePart, [ascii "y"], _, rfl, rfl, onePart_delivered⟩ _ rfl

end Ivos.Http
