/-
Module: Ivos.Fat.UnsetLinks
Purpose: The walks over a directory when every call of `get_next_cluster` has its own
  uninitialised variable, and which FAT entries such a walk depends on.
Trusted boundary: none
Main exports: Volume.Delivers, nextOr, Unset, walkOr, walkOr_eq_walkTrace, Image.readEntries,
  LinksDelivered, Follows, walkOr_follows, linksDelivered_or_endless
-/
import Ivos.Fat.EndMarks

namespace Ivos.Fat

/-! ### The variable of `get_next_cluster`

`next` is not initialised, and what `fread` returns is not looked at.  Where the image ends
before the FAT entry does, no element is delivered, and the function returns what C leaves
in the variable: anything.  The other modules take one value for all calls, that of a stack
on which nothing else is written; here each call brings a value of its own, by the number
of the call and the place where the FAT entry was to be read, so that two walks over the
same directory may be told different links.
-/

section Links

variable (volume : Volume)

/-- Where `get_next_cluster` reads. -/
def Volume.linkPosition (cluster position : Nat) : Nat :=
  fseek (volume.fatEntryOffset cluster) position

/-- The image holds the whole FAT entry there. -/
def Volume.Delivers (cluster position : Nat) : Prop :=
  volume.linkPosition cluster position + 2 ≤ volume.image.size

instance (cluster position : Nat) : Decidable (volume.Delivers cluster position) :=
  inferInstanceAs (Decidable (_ ≤ _))

/-- What `get_next_cluster` returns when `next` holds `unset` unless it is read. -/
def nextOr (unset : Nat → UInt16) (cluster position : Nat) : Nat :=
  if volume.Delivers cluster position then (getNextCluster volume cluster position).1
  else (unset (volume.linkPosition cluster position)).toNat

/-- What the variable of the other modules holds. -/
def Volume.leftBehind (position : Nat) : UInt16 :=
  ushort (fread volume.image 2 position volume.uninitialised).1 0

/-- What the variables of one command hold that are not set. -/
structure Unset where
  /-- `entry` or `cluster_data`, at first. -/
  held : Bytes
  /-- `next`, by the number of the call and the position of the FAT entry. -/
  next : Nat → Nat → UInt16

/-- What the other modules take for it. -/
def Volume.unset : Unset :=
  ⟨volume.uninitialised, fun _ => volume.leftBehind⟩

end Links

section NextOr

variable {volume : Volume} {unset : Nat → UInt16} {cluster position : Nat}

theorem nextOr_of_delivers (delivers : volume.Delivers cluster position) :
    nextOr volume unset cluster position = (getNextCluster volume cluster position).1 :=
  if_pos delivers

theorem nextOr_of_not_delivers (cut : ¬ volume.Delivers cluster position) :
    nextOr volume unset cluster position =
      (unset (volume.linkPosition cluster position)).toNat :=
  if_neg cut

/-- The other modules are a case of this one. -/
theorem nextOr_leftBehind :
    nextOr volume volume.leftBehind cluster position =
      (getNextCluster volume cluster position).1 := by
  unfold nextOr
  split
  · rfl
  · rfl

theorem Volume.Readable.delivers (readable : volume.Readable cluster) (position : Nat) :
    volume.Delivers cluster position := by
  unfold Volume.Delivers Volume.linkPosition fseek
  rw [if_pos readable.fat]
  exact readable.fatInside

end NextOr

/-! ### Walks -/

section Walks

variable {State Result : Type} (volume : Volume)

/-- `walkTrace` with these values of `next`, from the call of this number on. -/
def walkOr (unset : Nat → Nat → UInt16)
    (body : Nat → Fat16Entry → Nat → State → Option (Flow State Result)) :
    Nat → Nat → Nat → Bytes → Nat → State → Trace State Result
  | 0, _, _, _, _, _ => ⟨[], [], none⟩
  | fuel + 1, call, cluster, held, position, state =>
      if isEndOfChain cluster then ⟨[], [], some (.next state position)⟩
      else
        match forTrace volume body volume.entriesPerCluster 0 held
            (fseek (volume.clusterOffset cluster) position) state with
        | (entries, none) => ⟨[cluster], entries, none⟩
        | (entries, some (.done result position, _)) =>
            ⟨[cluster], entries, some (.done result position)⟩
        | (entries, some (.next state position, held)) =>
            let next := nextOr volume (unset call) cluster position
            let rest := walkOr unset body fuel (call + 1) next held
              (getNextCluster volume cluster position).2 state
            ⟨cluster :: rest.clusters, entries ++ rest.entries, rest.outcome⟩

section Equations

variable {volume : Volume} (unset : Nat → Nat → UInt16)
  {body : Nat → Fat16Entry → Nat → State → Option (Flow State Result)} (fuel call : Nat)
  {cluster : Nat} {held : Bytes} {position : Nat} {state : State}

theorem walkOr_of_mark (mark : isEndOfChain cluster = true) :
    walkOr volume unset body (fuel + 1) call cluster held position state =
      ⟨[], [], some (.next state position)⟩ :=
  if_pos mark

/-- A loop that returns from the function. -/
theorem walkOr_of_done (inside : isEndOfChain cluster = false) {entries : List Fat16Entry}
    {result : Result} {finish : Nat} {after : Bytes}
    (traced : forTrace volume body volume.entriesPerCluster 0 held
      (fseek (volume.clusterOffset cluster) position) state =
        (entries, some (.done result finish, after))) :
    walkOr volume unset body (fuel + 1) call cluster held position state =
      ⟨[cluster], entries, some (.done result finish)⟩ := by
  simp only [walkOr, inside, Bool.false_eq_true, if_false, traced]

/-- A loop that goes on behind the entries. -/
theorem walkOr_of_next (inside : isEndOfChain cluster = false) {entries : List Fat16Entry}
    {next : State} {finish : Nat} {after : Bytes}
    (traced : forTrace volume body volume.entriesPerCluster 0 held
      (fseek (volume.clusterOffset cluster) position) state =
        (entries, some (.next next finish, after))) :
    walkOr volume unset body (fuel + 1) call cluster held position state =
      ⟨cluster :: (walkOr volume unset body fuel (call + 1)
          (nextOr volume (unset call) cluster finish) after
          (getNextCluster volume cluster finish).2 next).clusters,
        entries ++ (walkOr volume unset body fuel (call + 1)
          (nextOr volume (unset call) cluster finish) after
          (getNextCluster volume cluster finish).2 next).entries,
        (walkOr volume unset body fuel (call + 1)
          (nextOr volume (unset call) cluster finish) after
          (getNextCluster volume cluster finish).2 next).outcome⟩ := by
  simp only [walkOr, inside, Bool.false_eq_true, if_false, traced]

end Equations

/-- With one value for all calls this is the walk of the other modules. -/
theorem walkOr_eq_walkTrace
    (body : Nat → Fat16Entry → Nat → State → Option (Flow State Result))
    (fuel call cluster : Nat) (held : Bytes) (position : Nat) (state : State) :
    walkOr volume (fun _ => volume.leftBehind) body fuel call cluster held position state =
      walkTrace volume (fun _ => body) fuel cluster held position state := by
  induction fuel generalizing call cluster held position state with
  | zero => rfl
  | succ fuel inductionHypothesis =>
      cases mark : isEndOfChain cluster with
      | true => simp only [walkOr_of_mark _ _ _ mark, walkTrace, mark, if_true]
      | false =>
          cases traced : forTrace volume body volume.entriesPerCluster 0 held
              (fseek (volume.clusterOffset cluster) position) state with
          | mk entries outcome =>
          simp only [walkOr, walkTrace, mark, Bool.false_eq_true, if_false, traced]
          rcases outcome with - | ⟨result | next, after⟩
          · rfl
          · simp only [nextOr_leftBehind, inductionHypothesis]
          · rfl

end Walks

/-! ### The entries that are read -/

/-- Entries read one after the other, and the variable and the position behind them. -/
structure EntriesRead where
  entries : List Fat16Entry
  held : Bytes
  position : Nat

/-- As many reads of an entry, whatever is done with it. -/
def Image.readEntries (image : Image) : Nat → Bytes → Nat → EntriesRead
  | 0, held, position => ⟨[], held, position⟩
  | count + 1, held, position =>
      let (held, position) := fread image entrySize position held
      let rest := image.readEntries count held position
      ⟨.decode held :: rest.entries, rest.held, rest.position⟩

/-- The reads in one cluster. -/
def Volume.readCluster (volume : Volume) (cluster : Nat) (held : Bytes) (position : Nat) :
    EntriesRead :=
  volume.image.readEntries volume.entriesPerCluster held
    (fseek (volume.clusterOffset cluster) position)

theorem length_readEntries (image : Image) (count : Nat) (held : Bytes) (position : Nat) :
    (image.readEntries count held position).entries.length = count := by
  induction count generalizing held position with
  | zero => rfl
  | succ count inductionHypothesis => exact congrArg (· + 1) (inductionHypothesis ..)

theorem length_readCluster (volume : Volume) (cluster : Nat) (held : Bytes) (position : Nat) :
    (volume.readCluster cluster held position).entries.length = volume.entriesPerCluster :=
  length_readEntries ..

/-- Two variables hold the same entry. -/
def SameEntry (first second : Bytes) : Prop :=
  ∀ index, index < entrySize → first index = second index

/-- They hold the same where a read at the position leaves them alone. -/
def SameBehind (image : Image) (position : Nat) (first second : Bytes) : Prop :=
  ∀ index, index < entrySize → image.size ≤ position + index → first index = second index

section Reads

variable {image : Image} {first second : Bytes} {position : Nat}

theorem SameEntry.behind (same : SameEntry first second) (position : Nat) :
    SameBehind image position first second :=
  fun index within _ => same index within

theorem sameBehind_of_inside (inside : position + entrySize ≤ image.size)
    (first second : Bytes) : SameBehind image position first second :=
  fun index within outside => absurd (Nat.le_trans inside outside) (by omega)

/-- After such a read they hold the same entry. -/
theorem SameBehind.read (same : SameBehind image position first second) :
    SameEntry (fread image entrySize position first).1
      (fread image entrySize position second).1 := by
  intro index within
  unfold fread
  dsimp only
  split
  · rfl
  · rename_i unread
    apply same index within
    by_contra inside
    exact unread ⟨within, Nat.not_le.mp inside⟩

/-- The same entries are read, to the same end. -/
theorem SameBehind.readEntries (same : SameBehind image position first second) (count : Nat) :
    (image.readEntries count first position).entries =
        (image.readEntries count second position).entries ∧
      (image.readEntries count first position).position =
        (image.readEntries count second position).position ∧
      (0 < count ∨ SameEntry first second →
        SameEntry (image.readEntries count first position).held
          (image.readEntries count second position).held) := by
  induction count generalizing first second position with
  | zero => exact ⟨rfl, rfl, fun kept => kept.resolve_left (Nat.lt_irrefl 0)⟩
  | succ count inductionHypothesis =>
      have read := same.read
      obtain ⟨entries, finish, held⟩ := inductionHypothesis (read.behind _)
      refine ⟨?_, finish, fun _ => held (.inr read)⟩
      exact congrArg₂ _ (Fat16Entry.decode_congr read) entries

theorem readEntries_congr {count : Nat}
    (reads : 0 < count → SameBehind image position first second) :
    (image.readEntries count first position).entries =
        (image.readEntries count second position).entries ∧
      (image.readEntries count first position).position =
        (image.readEntries count second position).position ∧
      (0 < count → SameEntry (image.readEntries count first position).held
        (image.readEntries count second position).held) := by
  cases count with
  | zero => exact ⟨rfl, rfl, fun some => absurd some (Nat.lt_irrefl 0)⟩
  | succ count =>
      obtain ⟨entries, finish, kept⟩ := (reads (Nat.succ_pos count)).readEntries (count + 1)
      exact ⟨entries, finish, fun some => kept (.inl some)⟩

/-- The reads do not write what lies behind the end of the image from their start on. -/
theorem readEntries_sameBehind (image : Image) (count : Nat) (held : Bytes) (position : Nat) :
    SameBehind image position held (image.readEntries count held position).held := by
  induction count generalizing held position with
  | zero => exact fun _ _ _ => rfl
  | succ count inductionHypothesis =>
      intro index within outside
      have later := inductionHypothesis (fread image entrySize position held).1
        (fread image entrySize position held).2 index within
        (Nat.le_trans outside (Nat.add_le_add_right (Nat.le_add_right ..) _))
      refine Eq.trans ?_ later
      exact (if_neg fun both => absurd both.2 (Nat.not_lt.mpr outside)).symm

/-- Behind the image nothing is read. -/
theorem readEntries_of_behind {count : Nat} (outside : image.size ≤ position) (held : Bytes) :
    image.readEntries count held position =
      ⟨List.replicate count (.decode held), held, position⟩ := by
  have unmoved : fread image entrySize position held = (held, position) := by
    unfold fread
    congr 1
    · funext index
      exact if_neg fun both => absurd both.2 (by omega)
    · omega
  induction count with
  | zero => rfl
  | succ count inductionHypothesis =>
      simp only [Image.readEntries, unmoved, inductionHypothesis, List.replicate_succ]

/-- The variable holds the last entry read. -/
theorem decode_held_mem {count : Nat} (some : 0 < count) (held : Bytes) (position : Nat) :
    Fat16Entry.decode (image.readEntries count held position).held ∈
      (image.readEntries count held position).entries := by
  obtain ⟨count, rfl⟩ := Nat.exists_eq_add_one.mpr some
  clear some
  induction count generalizing held position with
  | zero => exact List.mem_singleton_self _
  | succ count inductionHypothesis =>
      exact List.mem_cons_of_mem _ (inductionHypothesis _ _)

end Reads

/-! ### Loops over them -/

section Loops

variable {volume : Volume} {State Result : Type}

/-- A body that goes on behind every entry, without moving the stream. -/
def Passing (body : Nat → Fat16Entry → Nat → State → Option (Flow State Result)) : Prop :=
  ∀ index entry position before, ∃ after,
    body index entry position before = some (.next after position)

theorem listTurn_passing : Passing listTurn :=
  fun index entry position before => ⟨_, listTurn_eq index entry position before⟩

/-- Such a loop reads all the entries. -/
theorem forTrace_passing (volume : Volume)
    {body : Nat → Fat16Entry → Nat → State → Option (Flow State Result)} (passing : Passing body)
    (count index : Nat) (held : Bytes) (position : Nat) (before : State) :
    ∃ after, forTrace volume body count index held position before =
      ((volume.image.readEntries count held position).entries,
        some (.next after (volume.image.readEntries count held position).position,
          (volume.image.readEntries count held position).held)) := by
  induction count generalizing index held position before with
  | zero => exact ⟨before, rfl⟩
  | succ count inductionHypothesis =>
      obtain ⟨after, turned⟩ := passing index
        (.decode (fread volume.image entrySize position held).1)
        (fread volume.image entrySize position held).2 before
      obtain ⟨last, through⟩ := inductionHypothesis (index + 1)
        (fread volume.image entrySize position held).1
        (fread volume.image entrySize position held).2 after
      refine ⟨last, ?_⟩
      simp only [forTrace, turned, through, Image.readEntries]

/-- How a search over entries that are read comes out: it has passed all of them, or it has
stopped at the first one taken. -/
inductive Beside (taken : Fat16Entry → Prop) [DecidablePred taken] (read : EntriesRead) :
    List Fat16Entry × Option (Flow Unit Fat16Entry × Bytes) → Prop where
  | passed (absent : read.entries.find? taken = none) :
      Beside taken read (read.entries, some (.next () read.position, read.held))
  | stopped {front : List Fat16Entry} {entry : Fat16Entry} {stop : Nat} {held : Bytes}
      (short : front <+: read.entries) (isFirst : read.entries.find? taken = some entry) :
      Beside taken read (front, some (.done entry stop, held))

theorem forTrace_beside (volume : Volume) (taken : Fat16Entry → Prop) [DecidablePred taken]
    (count index : Nat) (held : Bytes) (position : Nat) :
    Beside taken (volume.image.readEntries count held position)
      (forTrace volume (selectTurn taken) count index held position ()) := by
  induction count generalizing index held position with
  | zero => exact .passed rfl
  | succ count inductionHypothesis =>
      have later := inductionHypothesis (index + 1) (fread volume.image entrySize position held).1
        (fread volume.image entrySize position held).2
      simp only [forTrace, Image.readEntries, selectTurn]
      by_cases found : taken (.decode (fread volume.image entrySize position held).1)
      · simp only [if_pos found]
        apply Beside.stopped
        · exact List.cons_prefix_cons.mpr ⟨rfl, List.nil_prefix⟩
        · exact List.find?_cons_of_pos (by simpa using found)
      · simp only [if_neg found]
        generalize forTrace volume (selectTurn taken) count (index + 1)
          (fread volume.image entrySize position held).1
          (fread volume.image entrySize position held).2 () = traced at later
        cases later with
        | passed absent =>
            exact .passed ((List.find?_cons_of_neg (by simpa using found)).trans absent)
        | stopped short isFirst =>
            apply Beside.stopped (List.cons_prefix_cons.mpr ⟨rfl, short⟩)
            exact (List.find?_cons_of_neg (by simpa using found)).trans isFirst

end Loops

/-! ### The FAT entries that a search follows

Until its name is met a search goes on along the chain.  The inductive definition reads the
image only: where each FAT entry that is followed lies inside it, no value of `next` is ever
used.
-/

/-- The search along the chain from a cluster meets an entry that is taken, or the end of
the chain, and the FAT entries that it follows lie inside the image. -/
inductive LinksDelivered (volume : Volume) (taken : Fat16Entry → Prop) :
    Nat → Bytes → Nat → Prop where
  | finish {cluster : Nat} {held : Bytes} {position : Nat}
      (mark : isEndOfChain cluster = true) : LinksDelivered volume taken cluster held position
  | found {cluster : Nat} {held : Bytes} {position : Nat}
      (met : ∃ entry ∈ (volume.readCluster cluster held position).entries, taken entry) :
      LinksDelivered volume taken cluster held position
  | link {cluster : Nat} {held : Bytes} {position : Nat}
      (delivers : volume.Delivers cluster (volume.readCluster cluster held position).position)
      (rest : LinksDelivered volume taken
        (getNextCluster volume cluster (volume.readCluster cluster held position).position).1
        (volume.readCluster cluster held position).held
        (getNextCluster volume cluster (volume.readCluster cluster held position).position).2) :
      LinksDelivered volume taken cluster held position

/-- On a chain of readable clusters they do. -/
theorem Volume.Chain.linksDelivered {volume : Volume} {cluster : Nat} {clusters : List Nat}
    (chain : volume.Chain cluster clusters) (taken : Fat16Entry → Prop) (held : Bytes)
    (position : Nat) : LinksDelivered volume taken cluster held position := by
  induction chain generalizing held position with
  | finish mark => exact .finish mark
  | link inside valid readable rest inductionHypothesis =>
      apply LinksDelivered.link (readable.delivers _)
      rw [getNextCluster_fst readable]
      exact inductionHypothesis _ _

/-- Without entries nothing is met, whatever is searched for. -/
theorem LinksDelivered.of_no_entries {volume : Volume} {taken : Fat16Entry → Prop}
    (none : volume.entriesPerCluster = 0) {cluster : Nat} {held : Bytes} {position : Nat}
    (delivered : LinksDelivered volume taken cluster held position) (other : Fat16Entry → Prop) :
    LinksDelivered volume other cluster held position := by
  induction delivered with
  | finish mark => exact .finish mark
  | found met =>
      obtain ⟨entry, member, -⟩ := met
      rw [Volume.readCluster, none] at member
      exact absurd member List.not_mem_nil
  | link delivers _ inductionHypothesis => exact .link delivers inductionHypothesis

/-- A search that follows a walk: it has examined a beginning of it, and if it ends it ends
with the first entry of the walk that is taken. -/
structure Follows (taken : Fat16Entry → Prop) [DecidablePred taken]
    (search : Trace Unit Fat16Entry) (walked : List Fat16Entry) : Prop where
  examined : search.entries <+: walked
  selected : ∀ flow, search.outcome = some flow → flow.selected = walked.find? taken

/-- A search over entries follows the loop that reads them all. -/
theorem Beside.follows {taken : Fat16Entry → Prop} [DecidablePred taken] {read : EntriesRead}
    {traced : List Fat16Entry × Option (Flow Unit Fat16Entry × Bytes)}
    (beside : Beside taken read traced) (clusters : List Nat) :
    Follows taken ⟨clusters, traced.1, traced.2.map Prod.fst⟩ read.entries ∧
      (traced.2.map Prod.fst).isSome := by
  cases beside with
  | passed absent =>
      refine ⟨⟨List.prefix_rfl, fun flow ends => ?_⟩, rfl⟩
      cases ends
      exact absent.symm
  | stopped short isFirst =>
      refine ⟨⟨short, fun flow ends => ?_⟩, rfl⟩
      cases ends
      exact isFirst.symm

section Walks

variable {volume : Volume} {State Result : Type} {unset : Nat → Nat → UInt16}
  {body : Nat → Fat16Entry → Nat → State → Option (Flow State Result)}
  (taken : Fat16Entry → Prop) [DecidablePred taken]

theorem find?_ne_none_of_met {entries : List Fat16Entry}
    (met : ∃ entry ∈ entries, taken entry) : entries.find? taken ≠ none := by
  obtain ⟨entry, member, isTaken⟩ := met
  intro absent
  exact List.find?_eq_none.mp absent entry member (decide_eq_true isTaken)

theorem find?_eq_none_of_unmet {entries : List Fat16Entry}
    (unmet : ∀ entry ∈ entries, ¬ taken entry) : entries.find? taken = none :=
  List.find?_eq_none.mpr fun entry member => by simpa using unmet entry member

/-- Two variables that do not show are read over in the same way. -/
theorem readCluster_congr {cluster position : Nat} {held other : Bytes}
    (reads : 0 < volume.entriesPerCluster →
      SameBehind volume.image (fseek (volume.clusterOffset cluster) position) held other) :
    (volume.readCluster cluster held position).entries =
        (volume.readCluster cluster other position).entries ∧
      (volume.readCluster cluster held position).position =
        (volume.readCluster cluster other position).position ∧
      (0 < volume.entriesPerCluster → SameEntry (volume.readCluster cluster held position).held
        (volume.readCluster cluster other position).held) :=
  readEntries_congr reads

/-- One cluster of a walk that passes every entry. -/
theorem walkOr_passing (passing : Passing body) (fuel call : Nat) {cluster : Nat}
    (inside : isEndOfChain cluster = false) (held : Bytes) (position : Nat) (before : State) :
    ∃ next rest, walkOr volume unset body (fuel + 1) call cluster held position before =
        ⟨cluster :: rest.clusters,
          (volume.readCluster cluster held position).entries ++ rest.entries, rest.outcome⟩ ∧
      rest = walkOr volume unset body fuel (call + 1)
        (nextOr volume (unset call) cluster (volume.readCluster cluster held position).position)
        (volume.readCluster cluster held position).held
        (getNextCluster volume cluster (volume.readCluster cluster held position).position).2
        next := by
  obtain ⟨next, through⟩ := forTrace_passing volume passing volume.entriesPerCluster 0 held
    (fseek (volume.clusterOffset cluster) position) before
  exact ⟨next, _, walkOr_of_next unset fuel call inside through, rfl⟩

/-- One cluster of a search in which nothing is taken. -/
theorem walkOr_passed (unset : Nat → Nat → UInt16) (fuel call : Nat) {cluster position : Nat}
    {held : Bytes}
    (inside : isEndOfChain cluster = false)
    (absent : (volume.readCluster cluster held position).entries.find? taken = none) :
    ∃ rest, walkOr volume unset (selectTurn taken) (fuel + 1) call cluster held position () =
        ⟨cluster :: rest.clusters,
          (volume.readCluster cluster held position).entries ++ rest.entries, rest.outcome⟩ ∧
      rest = walkOr volume unset (selectTurn taken) fuel (call + 1)
        (nextOr volume (unset call) cluster (volume.readCluster cluster held position).position)
        (volume.readCluster cluster held position).held
        (getNextCluster volume cluster (volume.readCluster cluster held position).position).2
        () := by
  have searched := forTrace_beside volume taken volume.entriesPerCluster 0 held
    (fseek (volume.clusterOffset cluster) position)
  generalize traced : forTrace volume (selectTurn taken) volume.entriesPerCluster 0 held
    (fseek (volume.clusterOffset cluster) position) () = outcome at searched
  cases searched with
  | passed _ => exact ⟨_, walkOr_of_next unset fuel call inside traced, rfl⟩
  | stopped _ isFirst =>
      rw [Volume.readCluster, isFirst] at absent
      cases absent

/-- One cluster of a search in which an entry is taken. -/
theorem walkOr_stopped (unset : Nat → Nat → UInt16) (fuel call : Nat) {cluster position : Nat}
    {held : Bytes}
    {entry : Fat16Entry} (inside : isEndOfChain cluster = false)
    (isFirst : (volume.readCluster cluster held position).entries.find? taken = some entry) :
    ∃ front stop,
      walkOr volume unset (selectTurn taken) (fuel + 1) call cluster held position () =
        ⟨[cluster], front, some (.done entry stop)⟩ ∧
      front <+: (volume.readCluster cluster held position).entries := by
  have searched := forTrace_beside volume taken volume.entriesPerCluster 0 held
    (fseek (volume.clusterOffset cluster) position)
  generalize traced : forTrace volume (selectTurn taken) volume.entriesPerCluster 0 held
    (fseek (volume.clusterOffset cluster) position) () = outcome at searched
  cases searched with
  | passed absent =>
      rw [Volume.readCluster, absent] at isFirst
      cases isFirst
  | stopped short first =>
      rw [Volume.readCluster, first, Option.some.injEq] at isFirst
      subst isFirst
      exact ⟨_, _, walkOr_of_done unset fuel call inside traced, short⟩

/-- A search whose links are delivered follows a walk that ends, and ends within the same
bound, whatever the two find in `next`. -/
theorem walkOr_follows (passing : Passing body) {fuel call cluster position finish : Nat}
    {held other : Bytes} {before after : State}
    (reads : isEndOfChain cluster = false → 0 < volume.entriesPerCluster →
      SameBehind volume.image (fseek (volume.clusterOffset cluster) position) held other)
    (delivered : LinksDelivered volume taken cluster other position)
    (ended : (walkOr volume unset body fuel call cluster held position before).outcome =
      some (.next after finish)) (more : Nat) (otherUnset : Nat → Nat → UInt16) :
    Follows taken (walkOr volume otherUnset (selectTurn taken) more call cluster other position ())
        (walkOr volume unset body fuel call cluster held position before).entries ∧
      (fuel ≤ more → (walkOr volume otherUnset (selectTurn taken) more call cluster other position
        ()).outcome.isSome) := by
  induction more generalizing fuel call cluster held other position before with
  | zero =>
      refine ⟨⟨List.nil_prefix, fun _ none => by cases none⟩, fun enough => ?_⟩
      rw [Nat.le_zero.mp enough] at ended
      cases ended
  | succ more inductionHypothesis =>
      cases fuel with
      | zero => cases ended
      | succ fuel =>
          cases mark : isEndOfChain cluster with
          | true =>
              rw [walkOr_of_mark _ _ _ mark, walkOr_of_mark _ _ _ mark]
              refine ⟨⟨List.nil_prefix, fun flow stopped => ?_⟩, fun _ => rfl⟩
              cases stopped
              rfl
          | false =>
              obtain ⟨entries, place, kept⟩ := readCluster_congr (reads mark)
              obtain ⟨next, rest, walked, onward⟩ :=
                walkOr_passing passing fuel call mark held position before
              rw [walked] at ended ⊢
              cases found : (volume.readCluster cluster other position).entries.find? taken with
              | some entry =>
                  obtain ⟨front, stop, stopped, short⟩ :=
                    walkOr_stopped taken otherUnset more call mark found
                  rw [← entries] at short
                  rw [stopped]
                  refine ⟨⟨short.trans (List.prefix_append _ _), fun flow ends => ?_⟩, fun _ => rfl⟩
                  cases ends
                  rw [List.find?_append, entries, found]
                  rfl
              | none =>
                  obtain ⟨searchRest, searched, searchOnward⟩ :=
                    walkOr_passed taken otherUnset more call mark found
                  cases delivered with
                  | finish isMark => exact absurd mark (by simp [isMark])
                  | found met => exact absurd found (find?_ne_none_of_met taken met)
                  | link delivers later =>
                      rw [nextOr_of_delivers delivers] at searchOnward
                      rw [place, nextOr_of_delivers delivers] at onward
                      subst onward searchOnward
                      obtain ⟨⟨examined, selected⟩, ends⟩ := inductionHypothesis
                        (fun _ nonempty => (kept nonempty).behind _) later ended
                      rw [searched]
                      refine ⟨⟨?_, fun flow stops => ?_⟩, fun enough => ends (by omega)⟩
                      · rw [entries]
                        exact (List.prefix_append_right_inj _).mpr examined
                      · rw [List.find?_append, entries, found, Option.none_or]
                        exact selected flow stops

end Walks

/-! ### A search that is sent round in circles

A FAT entry that is not delivered can be taken for a link of the cluster to itself.  The
cluster is then read again and again, and nothing new is met in it.
-/

/-- The search has met nothing in the cluster, and its FAT entry is cut off. -/
structure Stuck (volume : Volume) (taken : Fat16Entry → Prop) (cluster : Nat) (held : Bytes)
    (position : Nat) : Prop where
  inside : isEndOfChain cluster = false
  unmet : ∀ entry ∈ (volume.readCluster cluster held position).entries, ¬ taken entry
  cut : ¬ volume.Delivers cluster (volume.readCluster cluster held position).position

section Stuck

variable {volume : Volume} {taken : Fat16Entry → Prop} {cluster position : Nat} {held : Bytes}

/-- Behind a FAT entry that is cut off the stream is at the end of the image. -/
theorem size_le_of_cut (cut : ¬ volume.Delivers cluster position) :
    volume.image.size ≤ (getNextCluster volume cluster position).2 := by
  unfold Volume.Delivers Volume.linkPosition at cut
  simp only [getNextCluster, fread]
  omega

/-- The second time the search is stuck again. -/
theorem Stuck.again (stuck : Stuck volume taken cluster held position) :
    Stuck volume taken cluster (volume.readCluster cluster held position).held
      (getNextCluster volume cluster (volume.readCluster cluster held position).position).2 := by
  have cut := stuck.cut
  have behind := size_le_of_cut cut
  rcases Int.lt_or_le (volume.clusterOffset cluster) 0 with refused | sought
  · -- The seek to the cluster is refused: nothing is read at the end of the image.
    generalize finish : (getNextCluster volume cluster
      (volume.readCluster cluster held position).position).2 = stop at behind ⊢
    have again : volume.readCluster cluster (volume.readCluster cluster held position).held stop =
        ⟨List.replicate volume.entriesPerCluster
          (.decode (volume.readCluster cluster held position).held),
          (volume.readCluster cluster held position).held, stop⟩ := by
      rw [Volume.readCluster, show fseek (volume.clusterOffset cluster) stop = stop from
        if_neg (Int.not_le.mpr refused)]
      exact readEntries_of_behind behind _
    refine ⟨stuck.inside, ?_, ?_⟩
    · rw [again]
      intro entry member
      obtain ⟨some, rfl⟩ := List.mem_replicate.mp member
      exact stuck.unmet _ (decode_held_mem (Nat.pos_of_ne_zero some) _ _)
    · rw [again]
      unfold Volume.Delivers Volume.linkPosition fseek at cut ⊢
      dsimp only
      split
      · rename_i readThere
        rwa [if_pos readThere] at cut
      · omega
  · have start (place : Nat) : fseek (volume.clusterOffset cluster) place =
        (volume.clusterOffset cluster).toNat := if_pos sought
    have same := (readEntries_sameBehind volume.image volume.entriesPerCluster held
      (volume.clusterOffset cluster).toNat).readEntries volume.entriesPerCluster
    have first : volume.readCluster cluster held position = volume.image.readEntries
        volume.entriesPerCluster held (volume.clusterOffset cluster).toNat := by
      rw [Volume.readCluster, start]
    have second (place : Nat) : volume.readCluster cluster
        (volume.readCluster cluster held position).held place = volume.image.readEntries
          volume.entriesPerCluster (volume.image.readEntries volume.entriesPerCluster held
            (volume.clusterOffset cluster).toNat).held (volume.clusterOffset cluster).toNat := by
      rw [first, Volume.readCluster, start]
    refine ⟨stuck.inside, ?_, ?_⟩
    · rw [second, ← same.1, ← first]
      exact stuck.unmet
    · rw [second, ← same.2.1, ← first]
      exact cut

/-- A search that is told the cluster itself never ends. -/
theorem Stuck.endless [DecidablePred taken] (stuck : Stuck volume taken cluster held position)
    (more call : Nat) :
    (walkOr volume (fun _ _ => UInt16.ofNat cluster) (selectTurn taken) more call cluster held
        position ()).outcome = none ∧
      more * volume.entriesPerCluster ≤ (walkOr volume (fun _ _ => UInt16.ofNat cluster)
        (selectTurn taken) more call cluster held position ()).entries.length := by
  induction more generalizing call held position with
  | zero => exact ⟨rfl, by simp⟩
  | succ more inductionHypothesis =>
      have itself : (UInt16.ofNat cluster).toNat = cluster := by
        have below : cluster < 0xFFFF := by simpa [isEndOfChain] using stuck.inside
        rw [UInt16.toNat_ofNat']
        omega
      obtain ⟨rest, searched, onward⟩ := walkOr_passed taken (fun _ _ => UInt16.ofNat cluster)
        more call stuck.inside (find?_eq_none_of_unmet taken stuck.unmet)
      rw [nextOr_of_not_delivers stuck.cut, itself] at onward
      obtain ⟨never, longer⟩ := inductionHypothesis stuck.again (call + 1)
      rw [searched, onward]
      refine ⟨never, ?_⟩
      rw [List.length_append, length_readCluster, Nat.succ_mul]
      exact (Nat.add_comm _ _).trans_le (Nat.add_le_add_left longer _)

/-- Beside a walk that ends, the links of a search are delivered, or it can be sent round in
circles. -/
theorem linksDelivered_or_endless (taken : Fat16Entry → Prop) [DecidablePred taken]
    {State Result : Type}
    {unset : Nat → Nat → UInt16}
    {body : Nat → Fat16Entry → Nat → State → Option (Flow State Result)} (passing : Passing body)
    {fuel call finish : Nat} (other : Bytes) {before after : State}
    (reads : isEndOfChain cluster = false → 0 < volume.entriesPerCluster →
      SameBehind volume.image (fseek (volume.clusterOffset cluster) position) held other)
    (ended : (walkOr volume unset body fuel call cluster held position before).outcome =
      some (.next after finish)) :
    LinksDelivered volume taken cluster other position ∨ ∃ value : UInt16, ∀ more call,
      (walkOr volume (fun _ _ => value) (selectTurn taken) more call cluster other position
        ()).outcome = none ∧
      more * volume.entriesPerCluster ≤ (walkOr volume (fun _ _ => value) (selectTurn taken) more
        call cluster other position ()).entries.length := by
  induction fuel generalizing call cluster held other position before with
  | zero => cases ended
  | succ fuel inductionHypothesis =>
      cases mark : isEndOfChain cluster with
      | true => exact .inl (.finish mark)
      | false =>
          obtain ⟨-, place, kept⟩ := readCluster_congr (reads mark)
          obtain ⟨next, rest, walked, onward⟩ :=
            walkOr_passing passing fuel call mark held position before
          rw [walked] at ended
          by_cases met : ∃ entry ∈ (volume.readCluster cluster other position).entries, taken entry
          · exact .inl (.found met)
          · have unmet : ∀ entry ∈ (volume.readCluster cluster other position).entries,
                ¬ taken entry := fun entry member isTaken => met ⟨entry, member, isTaken⟩
            by_cases delivers : volume.Delivers cluster
              (volume.readCluster cluster other position).position
            · rw [place, nextOr_of_delivers delivers] at onward
              subst onward
              rcases inductionHypothesis _ (fun _ nonempty => (kept nonempty).behind _) ended with
                later | ⟨value, circles⟩
              · exact .inl (.link delivers later)
              · refine .inr ⟨value, fun more call => ?_⟩
                cases more with
                | zero => exact ⟨rfl, by simp⟩
                | succ more =>
                    obtain ⟨rest, searched, onward⟩ := walkOr_passed taken (fun _ _ => value)
                      more call mark (find?_eq_none_of_unmet taken unmet)
                    rw [nextOr_of_delivers delivers] at onward
                    obtain ⟨never, longer⟩ := circles more (call + 1)
                    rw [searched, onward]
                    refine ⟨never, ?_⟩
                    rw [List.length_append, length_readCluster, Nat.succ_mul]
                    exact (Nat.add_comm _ _).trans_le (Nat.add_le_add_left longer _)
            · exact .inr ⟨UInt16.ofNat cluster, fun more call =>
                Stuck.endless ⟨mark, unmet, delivers⟩ more call⟩

end Stuck

end Ivos.Fat
