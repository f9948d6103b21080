/-
Module: Ivos.Fat.Reading
Purpose: `read`: the name it compares with, its search, and which requests find the
  regular file they name.
Trusted boundary: none
Main exports: Frame, strlen, namecmp, Fat16Entry.bytes, Matches, selectTurn,
  selectFile, read, FindsByName, finds_by_name_iff, read_only_file_not_found
-/
import Ivos.Fat.Extraction
import Ivos.Fat.Navigation
import Ivos.Library.Search

namespace Ivos.Fat

/-! ### The name searched for

`read` splits its argument with `strtok` and pads the two parts with spaces into `namecmp`,
an array of twelve bytes whose last one stays a space.  No NUL ends that array.
-/

/-- `strtok` with the delimiter `.`: the token, and the text for the next call. -/
def strtok (text : List UInt8) : Option (List UInt8 × List UInt8) :=
  match text.dropWhile fun character => character = 0x2E with
  | [] => none
  | token => some (token.takeWhile fun character => character ≠ 0x2E,
      (token.dropWhile fun character => character ≠ 0x2E).tail)

/-- The loops that fill a field of `namecmp`. -/
def padded (length : Nat) (text : List UInt8) : List UInt8 :=
  text.take length ++ List.replicate (length - text.length) 0x20

/-- `namecmp` for the text of a request; `none` is `strlen(NULL)`. -/
def namecmp (filename : List UInt8) : Option (List UInt8) :=
  (strtok filename).map fun (name, rest) =>
    padded 8 name ++
      (match strtok rest with
        | none => List.replicate 3 0x20
        | some (ext, _) => padded 3 ext) ++
      [0x20]

/-! ### The comparison -/

/-- The bytes of an `unsigned short`. -/
def ushortBytes (value : UInt16) : List UInt8 :=
  [UInt8.ofNat value.toNat, UInt8.ofNat (value.toNat / 256)]

/-- The bytes of an `unsigned int`. -/
def uintBytes (value : UInt32) : List UInt8 :=
  [UInt8.ofNat value.toNat, UInt8.ofNat (value.toNat / 256), UInt8.ofNat (value.toNat / 65536),
    UInt8.ofNat (value.toNat / 16777216)]

/-- The bytes of the record behind the attributes. -/
def Fat16Entry.behindAttributes (entry : Fat16Entry) : List UInt8 :=
  entry.reserved ++ ushortBytes entry.modifyTime ++ ushortBytes entry.modifyDate ++
    ushortBytes entry.startingCluster ++ uintBytes entry.fileSize

/-- The packed record. -/
def Fat16Entry.bytes (entry : Fat16Entry) : List UInt8 :=
  entry.filename ++ entry.ext ++ entry.attributes :: entry.behindAttributes

/-- What the stack holds behind `entry` and behind `namecmp`. -/
structure Frame where
  behindEntry : List UInt8
  behindNamecmp : List UInt8

/-- The bytes of a C string, up to its NUL. -/
def beforeNul (memory : List UInt8) : List UInt8 :=
  memory.takeWhile fun byte => byte ≠ 0

/-- `strlen`. -/
def strlen (memory : List UInt8) : Nat :=
  (beforeNul memory).length

/-- The condition of the search.  Neither `filename` nor `namecmp` ends with a NUL, so
that `strlen` and `strncmp` run on into the record and into the stack. -/
def Matches (frame : Frame) (namecmp : List UInt8) (entry : Fat16Entry) : Prop :=
  entry.firstByte ≠ 0 ∧
    strncmpEq (strlen (entry.bytes ++ frame.behindEntry)) (entry.bytes ++ frame.behindEntry)
      (namecmp ++ frame.behindNamecmp)

instance (frame : Frame) (namecmp : List UInt8) : DecidablePred (Matches frame namecmp) :=
  fun _ => inferInstanceAs (Decidable (_ ∧ _))

/-! ### read

The search takes the first entry for which the comparison holds; the loops are those of the
other commands.
-/

/-- One turn of a search: the first entry that is taken ends it. -/
def selectTurn (taken : Fat16Entry → Prop) [DecidablePred taken] (_index : Nat)
    (entry : Fat16Entry) (position : Nat) (state : Unit) : Option (Flow Unit Fat16Entry) :=
  if taken entry then some (.done entry position) else some (.next state position)

/-- The entry with which a search returns. -/
def Flow.selected : Flow Unit Fat16Entry → Option Fat16Entry
  | .next _ _ => none
  | .done entry _ => some entry

def Flow.position {State Result : Type} : Flow State Result → Nat
  | .next _ position => position
  | .done _ position => position

section Read

variable (volume : Volume) (frame : Frame)

/-- The search of `read`, over the root directory or along the chain of the current
directory. -/
def selectFile (fuel : Nat) (key : List UInt8) (navigator : Navigator) :
    Option (Flow Unit Fat16Entry) :=
  let position := fseek navigator.currentDirectoryOffset navigator.position
  if navigator.currentDirectoryOffset = volume.rootDirectoryOffset then
    (forEntries volume (selectTurn (Matches frame key)) volume.bs.rootDirEntries.toNat 0
      volume.uninitialised position ()).map Prod.fst
  else
    walkChain volume (fun _ => selectTurn (Matches frame key)) fuel
      navigator.currentDirectoryEntry.startingCluster.toNat volume.uninitialised position ()

/-- What `read` has done when it returns. -/
inductive ReadOutcome where
  /-- `Filename is NULL` -/
  | noFilename
  /-- `File not found` -/
  | notFound
  | extracted (entry : Fat16Entry) (written : List UInt8)

/-- `read`, with the position it leaves; `fuel` bounds the turns of each `while` loop.
`none` is also a filename without a name. -/
def read (fuel : Nat) (filename : Option (List UInt8)) (navigator : Navigator) :
    Option (ReadOutcome × Nat) :=
  match filename with
  | none => some (.noFilename, navigator.position)
  | some filename =>
      (namecmp filename).bind fun key =>
        (selectFile volume frame fuel key navigator).bind fun
          | .next _ position => some (.notFound, position)
          | .done entry position =>
              (extract volume (navigator.currentDirectoryOffset == volume.rootDirectoryOffset)
                fuel entry position).map fun final =>
                  (.extracted entry final.written, final.position)

/-- The entries of the directory that the navigator is in, as the offset test tells. -/
def Volume.Contains (navigator : Navigator) (entries : List Fat16Entry) : Prop :=
  if navigator.currentDirectoryOffset = volume.rootDirectoryOffset then
    volume.RootReadable ∧ entries = volume.rootEntries
  else
    ∃ clusters, volume.Chain navigator.currentDirectoryEntry.startingCluster.toNat clusters ∧
      entries = volume.directoryEntries clusters

end Read

/-! ### Requests

What a user means by `NAME.EXT` is stated apart from the code: a regular file whose eleven
name bytes are the padded name.
-/

/-- A request `NAME` or `NAME.EXT`. -/
structure FileRequest where
  name : List UInt8
  ext : Option (List UInt8)
deriving Repr, DecidableEq

namespace FileRequest

def text (request : FileRequest) : List UInt8 :=
  request.name ++ match request.ext with
    | none => []
    | some ext => 0x2E :: ext

/-- The 11 name bytes of an entry with that name. -/
def nameBytes (request : FileRequest) : List UInt8 :=
  padded 8 request.name ++ padded 3 (request.ext.getD [])

structure Valid (request : FileRequest) : Prop where
  nonempty : request.name ≠ []
  nameLength : request.name.length ≤ 8
  extLength : (request.ext.getD []).length ≤ 3
  characters : ∀ character ∈ request.name ++ request.ext.getD [],
    character ≠ 0x2E ∧ character ≠ 0

/-- The entry is a regular file of that name. -/
def Names (request : FileRequest) (entry : Fat16Entry) : Prop :=
  entry.attributes &&& 0x18 = 0 ∧ entry.filename ++ entry.ext = request.nameBytes

instance (request : FileRequest) : DecidablePred request.Names :=
  fun _ => inferInstanceAs (Decidable (_ ∧ _))

end FileRequest

/-- `read` selects the first regular file of that name, and says that there is none
exactly when there is none. -/
structure FindsByName (volume : Volume) (frame : Frame) (navigator : Navigator)
    (entries : List Fat16Entry) (request : FileRequest) : Prop where
  selects : ∃ key fuel flow, namecmp request.text = some key ∧
    selectFile volume frame fuel key navigator = some flow ∧
      flow.selected = entries.find? request.Names
  reports : (∃ fuel finish, read volume frame fuel (some request.text) navigator =
    some (.notFound, finish)) ↔ ∀ entry ∈ entries, ¬ request.Names entry

/-- The comparison does not fail behind the name: there are no attributes, or only the
archive bit, and the bytes up to the next NUL are also those behind `namecmp`. -/
def Fat16Entry.PassesBehindName (frame : Frame) (entry : Fat16Entry) : Prop :=
  entry.attributes = 0 ∨ entry.attributes = 0x20 ∧
    beforeNul (entry.behindAttributes ++ frame.behindEntry) <+: frame.behindNamecmp

instance (frame : Frame) : DecidablePred (Fat16Entry.PassesBehindName frame) :=
  fun _ => inferInstanceAs (Decidable (_ ∨ _))

variable {volume : Volume}

/-! ### Searches -/

section Search

variable {taken : Fat16Entry → Prop} [DecidablePred taken]

theorem directoryTurn_eq_selectTurn (name : List UInt8) :
    directoryTurn name = selectTurn (TakenFor name) := by
  funext index entry position state
  exact directoryTurn_eq name index entry position state

/-- The `for` loop of a search finds the first entry that is taken. -/
theorem forEntries_select {base count index : Nat}
    (inside : base + entrySize * (index + count) ≤ volume.image.size) (held : Bytes) :
    ∃ flow heldAfter, forEntries volume (selectTurn taken) count index held
        (base + entrySize * index) () = some (flow, heldAfter) ∧
      flow.selected = (volume.image.entriesAt (base + entrySize * index) count).find? taken := by
  induction count generalizing index held with
  | zero => exact ⟨_, _, rfl, rfl⟩
  | succ count inductionHypothesis =>
      obtain ⟨entry, moved⟩ := decode_fread (entry_inside inside) held
      unfold forEntries
      simp only [entry, moved, entry_behind]
      by_cases found : taken (volume.image.entryAt (base + entrySize * index))
      · simp only [selectTurn, if_pos found]
        exact ⟨_, _, rfl, by simp [Image.entriesAt, found, Flow.selected]⟩
      · have ends : index + 1 + count = index + (count + 1) := by omega
        rw [← ends] at inside
        obtain ⟨flow, heldAfter, looped, selected⟩ := inductionHypothesis inside
          (fread volume.image entrySize (base + entrySize * index) held).1
        refine ⟨flow, heldAfter, by simpa only [selectTurn, if_neg found] using looped, ?_⟩
        rw [selected, Image.entriesAt, List.find?_cons_of_neg (by simpa using found), entry_behind]

/-- The `while` loop of a search finds the first entry of the chain that is taken. -/
theorem walkChain_select {cluster : Nat} {clusters : List Nat}
    (chain : volume.Chain cluster clusters) {fuel : Nat} (enough : clusters.length < fuel)
    (held : Bytes) (position : Nat) :
    ∃ flow, walkChain volume (fun _ => selectTurn taken) fuel cluster held position () =
        some flow ∧ flow.selected = (volume.directoryEntries clusters).find? taken := by
  induction chain generalizing fuel held position with
  | finish mark =>
      cases fuel with
      | zero => cases enough
      | succ fuel => exact ⟨.next () position, by simp [walkChain, mark], rfl⟩
  | @link cluster clusters inside valid readable rest inductionHypothesis =>
      cases fuel with
      | zero => cases enough
      | succ fuel =>
          have searched : ∃ flow heldAfter, forEntries volume (selectTurn taken)
              volume.entriesPerCluster 0 held
              ((volume.clusterOffset cluster).toNat + entrySize * 0) () = some (flow, heldAfter) ∧
              flow.selected = (volume.clusterEntries cluster).find? taken :=
            forEntries_select readable.entriesInside held
          obtain ⟨flow, heldAfter, looped, selected⟩ := searched
          simp only [walkChain, inside, Bool.false_eq_true, if_false, readable.sought, looped]
          rw [Volume.directoryEntries_cons, List.find?_append, ← selected]
          cases flow with
          | done entry finish => exact ⟨_, rfl, rfl⟩
          | next state finish =>
              dsimp only
              rw [getNextCluster_fst readable]
              exact inductionHypothesis (Nat.lt_of_succ_lt_succ enough) _ _

variable {frame : Frame} {navigator : Navigator} {entries : List Fat16Entry} {key : List UInt8}

theorem selectFile_mono {fuel more : Nat} {flow : Flow Unit Fat16Entry} (enough : fuel ≤ more)
    (ran : selectFile volume frame fuel key navigator = some flow) :
    selectFile volume frame more key navigator = some flow := by
  unfold selectFile at ran ⊢
  dsimp only at ran ⊢
  split
  · rename_i inRoot
    rw [if_pos inRoot] at ran
    exact ran
  · rename_i elsewhere
    rw [if_neg elsewhere] at ran
    exact walkChain_mono enough ran

/-- In a directory with entries the search of `read` ends, with the first entry that it
takes for the file. -/
theorem selectFile_returns (frame : Frame) (contains : volume.Contains navigator entries)
    (key : List UInt8) :
    ∃ fuel flow, selectFile volume frame fuel key navigator = some flow ∧
      flow.selected = entries.find? (Matches frame key) := by
  unfold Volume.Contains at contains
  unfold selectFile
  dsimp only
  split at contains
  · rename_i inRoot
    obtain ⟨readable, rfl⟩ := contains
    have searched : ∃ flow heldAfter, forEntries volume (selectTurn (Matches frame key))
        volume.bs.rootDirEntries.toNat 0 volume.uninitialised
        (volume.rootDirectoryOffset.toNat + entrySize * 0) () = some (flow, heldAfter) ∧
        flow.selected = volume.rootEntries.find? (Matches frame key) :=
      forEntries_select readable.entriesInside _
    obtain ⟨flow, heldAfter, looped, selected⟩ := searched
    refine ⟨0, flow, ?_, selected⟩
    rw [if_pos inRoot, inRoot, readable.sought, looped]
    rfl
  · rename_i elsewhere
    obtain ⟨clusters, chain, rfl⟩ := contains
    have searched : ∃ flow, walkChain volume (fun _ => selectTurn (Matches frame key))
        (clusters.length + 1) navigator.currentDirectoryEntry.startingCluster.toNat
        volume.uninitialised (fseek navigator.currentDirectoryOffset navigator.position) () =
          some flow ∧
        flow.selected = (volume.directoryEntries clusters).find? (Matches frame key) :=
      walkChain_select chain (Nat.lt_succ_self _) _ _
    obtain ⟨flow, walked, selected⟩ := searched
    refine ⟨clusters.length + 1, flow, ?_, selected⟩
    rw [if_neg elsewhere]
    exact walked

/-- It ends with no other entry. -/
theorem selectFile_selected (contains : volume.Contains navigator entries) {fuel : Nat}
    {flow : Flow Unit Fat16Entry}
    (ran : selectFile volume frame fuel key navigator = some flow) :
    flow.selected = entries.find? (Matches frame key) := by
  obtain ⟨enough, other, returned, selected⟩ := selectFile_returns frame contains key
  have same := selectFile_mono (Nat.le_max_left fuel enough) ran
  rw [selectFile_mono (Nat.le_max_right fuel enough) returned, Option.some.injEq] at same
  rw [← same, selected]

end Search

/-! ### The comparison -/

section Comparison

variable {frame : Frame} {entry : Fat16Entry}

theorem ushortBytes_ushort (bytes : Bytes) (offset : Nat) :
    ushortBytes (ushort bytes offset) = [bytes offset, bytes (offset + 1)] := by
  have low := (bytes offset).toNat_lt
  have high := (bytes (offset + 1)).toNat_lt
  have fits : (bytes offset).toNat + 256 * (bytes (offset + 1)).toNat < UInt16.size := by
    unfold UInt16.size
    omega
  unfold ushortBytes ushort
  rw [UInt16.toNat_ofNat_of_lt' fits]
  congr 2
  · apply UInt8.toNat_inj.mp
    simp
  · apply UInt8.toNat_inj.mp
    simp
    omega

theorem uintBytes_uint (bytes : Bytes) (offset : Nat) :
    uintBytes (uint bytes offset) =
      [bytes offset, bytes (offset + 1), bytes (offset + 2), bytes (offset + 3)] := by
  have first := (bytes offset).toNat_lt
  have second := (bytes (offset + 1)).toNat_lt
  have third := (bytes (offset + 2)).toNat_lt
  have fourth := (bytes (offset + 3)).toNat_lt
  have fits : (bytes offset).toNat + 256 * (bytes (offset + 1)).toNat +
      65536 * (bytes (offset + 2)).toNat + 16777216 * (bytes (offset + 3)).toNat <
        UInt32.size := by
    unfold UInt32.size
    omega
  unfold uintBytes uint
  rw [UInt32.toNat_ofNat_of_lt' fits]
  congr 4
  · apply UInt8.toNat_inj.mp
    simp
  · apply UInt8.toNat_inj.mp
    simp
    omega
  · apply UInt8.toNat_inj.mp
    simp
    omega
  · apply UInt8.toNat_inj.mp
    simp
    omega

/-- The record holds the bytes that were read. -/
theorem bytes_decode (bytes : Bytes) :
    (Fat16Entry.decode bytes).bytes = (List.range entrySize).map bytes := by
  simp only [Fat16Entry.bytes, Fat16Entry.behindAttributes, Fat16Entry.decode, ushortBytes_ushort,
    uintBytes_uint]
  rfl

theorem beforeNul_append {first : List UInt8} (noNul : 0 ∉ first) (second : List UInt8) :
    beforeNul (first ++ second) = first ++ beforeNul second := by
  apply List.takeWhile_append_of_pos
  intro byte member
  simpa using fun isNul : byte = 0 => noNul (isNul ▸ member)

/-- `strncmp` over the length of a string finds it in front of the other one. -/
theorem strncmpEq_strlen (memory other : List UInt8) :
    strncmpEq (strlen memory) memory other = true ↔ beforeNul memory <+: other := by
  induction memory generalizing other with
  | nil => simp [strlen, beforeNul, strncmpEq]
  | cons byte memory inductionHypothesis =>
      by_cases isNul : byte = 0
      · simp [strlen, beforeNul, isNul, strncmpEq]
      · have whole : beforeNul (byte :: memory) = byte :: beforeNul memory := by
          simp [beforeNul, isNul]
        rw [strlen, whole, List.length_cons]
        cases other with
        | nil => simp [strncmpEq]
        | cons head other =>
            rw [List.cons_prefix_cons, ← inductionHypothesis other]
            simp [strncmpEq, isNul, strlen]

/-- A prefix of a text is compared part by part. -/
theorem append_prefix_append_iff {first firstRest second secondRest : List UInt8}
    (same : first.length = second.length) :
    first ++ firstRest <+: second ++ secondRest ↔ first = second ∧ firstRest <+: secondRest := by
  constructor
  · rintro ⟨rest, whole⟩
    rw [List.append_assoc] at whole
    obtain ⟨rfl, rests⟩ := List.append_inj whole same
    exact ⟨rfl, rest, rests⟩
  · rintro ⟨rfl, rest, rfl⟩
    exact ⟨rest, by simp⟩

/-- What the comparison takes for a file, on an entry with a full name. -/
theorem matches_iff {key : List UInt8} (keyLength : key.length = 11)
    (lengths : entry.filename.length = 8 ∧ entry.ext.length = 3)
    (filled : 0 ∉ entry.filename ++ entry.ext) :
    Matches frame (key ++ [0x20]) entry ↔
      entry.filename ++ entry.ext = key ∧ entry.PassesBehindName frame := by
  have used : entry.firstByte ≠ 0 := by
    intro unused
    unfold Fat16Entry.firstByte at unused
    cases name : entry.filename with
    | nil => simp [name] at lengths
    | cons first rest =>
        rw [name, List.headD_cons] at unused
        exact filled (by simp [name, unused])
  have nameLength : (entry.filename ++ entry.ext).length = key.length := by
    rw [List.length_append, lengths.1, lengths.2, keyLength]
  have memory : entry.bytes ++ frame.behindEntry = (entry.filename ++ entry.ext) ++
      entry.attributes :: (entry.behindAttributes ++ frame.behindEntry) := by
    simp [Fat16Entry.bytes]
  have attributes : beforeNul (entry.attributes ::
      (entry.behindAttributes ++ frame.behindEntry)) <+: 0x20 :: frame.behindNamecmp ↔
        entry.PassesBehindName frame := by
    unfold Fat16Entry.PassesBehindName
    by_cases none : entry.attributes = 0
    · simp [beforeNul, none]
    · simp [beforeNul, none]
  unfold Matches
  rw [strncmpEq_strlen, memory, beforeNul_append filled, List.append_assoc key,
    append_prefix_append_iff nameLength, List.singleton_append, attributes]
  exact ⟨fun both => both.2, fun both => ⟨used, both⟩⟩

end Comparison

/-! ### The file found -/

section Found

variable {request : FileRequest}

theorem length_padded {length : Nat} {text : List UInt8} (short : text.length ≤ length) :
    (padded length text).length = length := by
  unfold padded
  rw [List.length_append, List.length_take, List.length_replicate]
  omega

/-- The next token of a text without leading delimiters. -/
theorem strtok_token {token rest : List UInt8} (nonempty : token ≠ []) (free : 0x2E ∉ token)
    (ends : rest.head? = none ∨ rest.head? = some 0x2E) :
    strtok (token ++ rest) = some (token, rest.tail) := by
  have plain (character : UInt8) (member : character ∈ token) : character ≠ 0x2E :=
    fun dot => free (dot ▸ member)
  have start : (token ++ rest).dropWhile (fun character => character = 0x2E) = token ++ rest := by
    cases token with
    | nil => exact absurd rfl nonempty
    | cons first others => simp [plain first List.mem_cons_self]
  have stop : rest.takeWhile (fun character => character ≠ 0x2E) = [] ∧
      rest.dropWhile (fun character => character ≠ 0x2E) = rest := by
    cases rest with
    | nil => exact ⟨rfl, rfl⟩
    | cons first others =>
        have dot : first = 0x2E := by simpa using ends
        simp [dot]
  unfold strtok
  rw [start]
  cases whole : token ++ rest with
  | nil => exact absurd (List.append_eq_nil_iff.mp whole).1 nonempty
  | cons first others =>
      simp only [← whole]
      rw [List.takeWhile_append_of_pos (by simpa using plain),
        List.dropWhile_append_of_pos (by simpa using plain), stop.1, stop.2, List.append_nil]

theorem strtok_last {token : List UInt8} (nonempty : token ≠ []) (free : 0x2E ∉ token) :
    strtok token = some (token, []) := by
  have found : strtok (token ++ []) = some (token, List.tail []) :=
    strtok_token nonempty free (.inl rfl)
  rwa [List.append_nil] at found

theorem strtok_nil : strtok [] = none := rfl

/-- `namecmp` holds the 11 name bytes of the request and a space. -/
theorem FileRequest.Valid.namecmp_text (valid : request.Valid) :
    namecmp request.text = some (request.nameBytes ++ [0x20]) := by
  have free : 0x2E ∉ request.name := fun member =>
    (valid.characters _ (List.mem_append_left _ member)).1 rfl
  unfold namecmp FileRequest.text FileRequest.nameBytes
  cases given : request.ext with
  | none => simp [strtok_last valid.nonempty free, strtok_nil, padded]
  | some ext =>
      rw [strtok_token valid.nonempty free (.inr rfl)]
      by_cases empty : ext = []
      · simp [empty, strtok_nil, padded]
      · have extFree : 0x2E ∉ ext := fun member =>
          (valid.characters _ (List.mem_append_right _ (by simpa [given] using member))).1 rfl
        simp [strtok_last empty extFree]

theorem FileRequest.Valid.length_nameBytes (valid : request.Valid) :
    request.nameBytes.length = 11 := by
  unfold FileRequest.nameBytes
  rw [List.length_append, length_padded valid.nameLength, length_padded valid.extLength]

/-- With a full name the request has no NUL. -/
theorem FileRequest.Valid.noNul (valid : request.Valid) : 0 ∉ request.nameBytes := by
  intro member
  have sources (length : Nat) (text : List UInt8) (inside : 0 ∈ padded length text) : 0 ∈ text := by
    rcases List.mem_append.mp inside with inText | inFilling
    · exact List.mem_of_mem_take inText
    · exact absurd (List.eq_of_mem_replicate inFilling) (by decide)
  have inRequest : 0 ∈ request.name ++ request.ext.getD [] := by
    rcases List.mem_append.mp member with inName | inExt
    · exact List.mem_append_left _ (sources 8 _ inName)
    · exact List.mem_append_right _ (sources 3 _ inExt)
  exact (valid.characters _ inRequest).2 rfl

theorem Volume.Contains.lengths {navigator : Navigator} {entries : List Fat16Entry}
    {entry : Fat16Entry} (contains : volume.Contains navigator entries)
    (member : entry ∈ entries) : entry.filename.length = 8 ∧ entry.ext.length = 3 := by
  unfold Volume.Contains at contains
  split at contains
  · rw [contains.2] at member
    exact Image.lengths_of_mem_entriesAt member
  · obtain ⟨clusters, -, rfl⟩ := contains
    obtain ⟨cluster, -, inside⟩ := List.mem_flatMap.mp member
    exact Image.lengths_of_mem_entriesAt inside

/-- `main` starts in the root directory. -/
theorem Volume.contains_start (readable : volume.RootReadable) (position : Nat) :
    volume.Contains (.start volume position) volume.rootEntries := by
  unfold Volume.Contains
  rw [if_pos (show (Navigator.start volume position).currentDirectoryOffset =
    volume.rootDirectoryOffset from rfl)]
  exact ⟨readable, rfl⟩

end Found

section Outcome

variable {frame : Frame} {navigator : Navigator} {entries : List Fat16Entry}
  {request : FileRequest}

/-- `File not found` is said when the search takes no entry. -/
theorem read_notFound_iff {key : List UInt8} (given : namecmp request.text = some key)
    (contains : volume.Contains navigator entries) :
    (∃ fuel finish, read volume frame fuel (some request.text) navigator =
      some (.notFound, finish)) ↔ entries.find? (Matches frame key) = none := by
  constructor
  · rintro ⟨fuel, finish, ran⟩
    simp only [read, given, Option.bind_some] at ran
    obtain ⟨flow, searched, ended⟩ := Option.bind_eq_some_iff.mp ran
    rw [← selectFile_selected contains searched]
    cases flow with
    | next state position => rfl
    | done entry position =>
        obtain ⟨final, -, same⟩ := Option.map_eq_some_iff.mp ended
        cases same
  · intro nothing
    obtain ⟨fuel, flow, searched, selected⟩ := selectFile_returns frame contains key
    rw [nothing] at selected
    cases flow with
    | done entry position => cases selected
    | next state position =>
        refine ⟨fuel, position, ?_⟩
        simp only [read, given, Option.bind_some, searched]

/-- What the search takes for the file, in a directory whose names are filled up. -/
theorem matches_request_iff (valid : request.Valid)
    (contains : volume.Contains navigator entries) {entry : Fat16Entry} (member : entry ∈ entries)
    (filled : entry.firstByte = 0 ∨ 0 ∉ entry.filename ++ entry.ext) :
    Matches frame (request.nameBytes ++ [0x20]) entry ↔
      request.Names entry ∧ entry.PassesBehindName frame := by
  have regular (passes : entry.PassesBehindName frame) : entry.attributes &&& 0x18 = 0 := by
    rcases passes with plain | ⟨archived, -⟩
    · rw [plain]
      decide
    · rw [archived]
      decide
  have compared (noNul : 0 ∉ entry.filename ++ entry.ext) :
      Matches frame (request.nameBytes ++ [0x20]) entry ↔
        entry.filename ++ entry.ext = request.nameBytes ∧ entry.PassesBehindName frame :=
    matches_iff valid.length_nameBytes (contains.lengths member) noNul
  constructor
  · intro taken
    have noNul := filled.resolve_left taken.1
    obtain ⟨name, passes⟩ := (compared noNul).mp taken
    exact ⟨⟨regular passes, name⟩, passes⟩
  · rintro ⟨⟨-, name⟩, passes⟩
    have noNul : 0 ∉ entry.filename ++ entry.ext := name ▸ valid.noNul
    exact (compared noNul).mpr ⟨name, passes⟩

/-- In every directory whose names are filled up, `read` finds the first regular file of
the name requested exactly when that file, if there is one, has no attributes but the
archive bit, and nothing behind that differs. -/
theorem finds_by_name_iff (volume : Volume) (frame : Frame) (navigator : Navigator)
    (entries : List Fat16Entry) (request : FileRequest) (valid : request.Valid)
    (contains : volume.Contains navigator entries)
    (filled : ∀ entry ∈ entries, entry.firstByte = 0 ∨ 0 ∉ entry.filename ++ entry.ext) :
    FindsByName volume frame navigator entries request ↔
      ∀ entry, entries.find? request.Names = some entry → entry.PassesBehindName frame := by
  have given := valid.namecmp_text
  have taken {entry : Fat16Entry} (member : entry ∈ entries) :
      Matches frame (request.nameBytes ++ [0x20]) entry ↔
        request.Names entry ∧ entry.PassesBehindName frame :=
    matches_request_iff valid contains member (filled entry member)
  have same : entries.find? (Matches frame (request.nameBytes ++ [0x20])) =
        entries.find? request.Names ↔
      ∀ entry, entries.find? request.Names = some entry → entry.PassesBehindName frame := by
    rw [find?_eq_find?_iff]
    · apply forall_congr'
      intro entry
      apply imp_congr_right
      intro found
      have named : request.Names entry := by simpa using List.find?_some found
      rw [decide_eq_true_eq, taken (List.mem_of_find?_eq_some found)]
      exact and_iff_right named
    · intro entry member matching
      rw [decide_eq_true_eq] at matching ⊢
      exact ((taken member).mp matching).1
  rw [← same]
  constructor
  · intro finds
    obtain ⟨key, fuel, flow, isKey, searched, selected⟩ := finds.selects
    rw [given, Option.some.injEq] at isKey
    rw [isKey, ← selectFile_selected contains searched, selected]
  · intro equal
    constructor
    · obtain ⟨fuel, flow, searched, selected⟩ := selectFile_returns frame contains
        (request.nameBytes ++ [0x20])
      exact ⟨_, fuel, flow, given, searched, selected.trans equal⟩
    · rw [read_notFound_iff given contains, equal, List.find?_eq_none]
      simp

/-- A volume with the file `A` in its root. -/
def oneFileVolume (attributes : UInt8) : Volume :=
  mount (.ofPatches 3072
    [(454, [1]), (523, [0x00, 0x02, 1, 1, 0, 1, 16, 0]), (534, [1, 0]),
      (1536, entryBytes [0x41] attributes 2)]) fun _ => 0

/-- The request `A`. -/
def requestA : FileRequest := ⟨[0x41], none⟩

theorem requestA_valid : requestA.Valid where
  nonempty := by decide
  nameLength := by decide
  extLength := by decide
  characters := by
    intro character member
    have letter : character = 0x41 := by simpa [requestA] using member
    rw [letter]
    decide

/-- An archived file is found. -/
theorem finds_archived_file :
    FindsByName (oneFileVolume 0x20) ⟨[], []⟩ (.start (oneFileVolume 0x20) 0)
      (oneFileVolume 0x20).rootEntries requestA := by
  have contains : (oneFileVolume 0x20).Contains (.start (oneFileVolume 0x20) 0)
      (oneFileVolume 0x20).rootEntries :=
    Volume.contains_start ⟨by decide, by decide⟩ 0
  apply (finds_by_name_iff _ _ _ _ requestA requestA_valid contains (by decide)).mpr
  have passes : ∀ entry ∈ (oneFileVolume 0x20).rootEntries.find? requestA.Names,
      entry.PassesBehindName ⟨[], []⟩ := by decide
  exact passes

/-- A read-only file is not found. -/
theorem read_only_file_not_found :
    ¬ ∀ (image : Image) (uninitialised : Bytes) (frame : Frame) (navigator : Navigator)
        (entries : List Fat16Entry) (request : FileRequest), request.Valid →
      (mount image uninitialised).Contains navigator entries →
      (∀ entry ∈ entries, entry.firstByte = 0 ∨ 0 ∉ entry.filename ++ entry.ext) →
        FindsByName (mount image uninitialised) frame navigator entries request := by
  intro claimed
  have contains : (oneFileVolume 0x21).Contains (.start (oneFileVolume 0x21) 0)
      (oneFileVolume 0x21).rootEntries :=
    Volume.contains_start ⟨by decide, by decide⟩ 0
  have filled : ∀ entry ∈ (oneFileVolume 0x21).rootEntries,
      entry.firstByte = 0 ∨ 0 ∉ entry.filename ++ entry.ext := by decide
  have finds : FindsByName (oneFileVolume 0x21) ⟨[], []⟩ (.start (oneFileVolume 0x21) 0)
      (oneFileVolume 0x21).rootEntries requestA :=
    claimed _ _ _ _ _ _ requestA_valid contains filled
  have passes := (finds_by_name_iff _ _ _ _ _ requestA_valid contains filled).mp finds
  have refused : ∃ entry ∈ (oneFileVolume 0x21).rootEntries.find? requestA.Names,
      ¬ entry.PassesBehindName ⟨[], []⟩ := by decide
  obtain ⟨entry, found, refuses⟩ := refused
  exact refuses (passes entry found)

end Outcome

end Ivos.Fat
