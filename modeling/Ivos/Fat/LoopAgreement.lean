/-
Module: Ivos.Fat.LoopAgreement
Purpose: When the two extraction loops of `read` write the same, whatever their buffers and
  the variables of `get_next_cluster` hold that are not set.
Trusted boundary: none
Main exports: extractTurnOr, writtenOr, extract_written, LoopsAgree, MeetsOtherMark,
  ReadsInside, Standing, loops_agree_iff, short_chain_read_differently
-/
import Ivos.Fat.UnsetLinks

namespace Ivos.Fat

/-! ### The loops with their own variables

The buffer `cluster_data` is declared once beside each loop and never initialised.  What a
turn reads overwrites its front; where the image ends inside a cluster, or before it, the
bytes behind keep what they held and are written all the same.
-/

section Loops

variable (volume : Volume) (fileSize : Nat) (unset : Unset)

/-- The body of either loop; the bytes read so far number the calls of
`get_next_cluster`. -/
def extractTurnOr (loop : Extraction) : Extraction :=
  let position := fseek (volume.clusterOffset loop.currentCluster) loop.position
  let count := bytesToRead volume fileSize loop.bytesRead
  let read := fread volume.image count position loop.clusterData
  { currentCluster := nextOr volume (unset.next loop.bytesRead) loop.currentCluster read.2
    bytesRead := loop.bytesRead + count
    clusterData := read.1
    position := (getNextCluster volume loop.currentCluster read.2).2
    written := loop.written ++ (List.range count).map read.1 }

/-- The variables in front of the loop. -/
def Extraction.startOr (entry : Fat16Entry) (position : Nat) : Extraction :=
  { Extraction.start volume entry position with clusterData := unset.held }

/-- What the loop of an entry has written after a number of turns, matched in the root
directory or in another one. -/
def writtenOr (inRoot : Bool) (turns : Nat) (entry : Fat16Entry) (position : Nat) : List UInt8 :=
  (whileAfter (extractionGoesOn entry.fileSize.toNat inRoot)
    (extractTurnOr volume entry.fileSize.toNat unset) turns
    (.startOr volume unset entry position)).written

variable {volume fileSize unset} {loop : Extraction}

theorem extractTurnOr_bytesRead : (extractTurnOr volume fileSize unset loop).bytesRead =
    loop.bytesRead + bytesToRead volume fileSize loop.bytesRead := rfl

theorem extractTurnOr_clusterData : (extractTurnOr volume fileSize unset loop).clusterData =
    (fread volume.image (bytesToRead volume fileSize loop.bytesRead)
      (fseek (volume.clusterOffset loop.currentCluster) loop.position) loop.clusterData).1 := rfl

theorem extractTurnOr_written : (extractTurnOr volume fileSize unset loop).written =
    loop.written ++ (List.range (bytesToRead volume fileSize loop.bytesRead)).map
      (extractTurnOr volume fileSize unset loop).clusterData := rfl

theorem extractTurnOr_place :
    ((extractTurnOr volume fileSize unset loop).currentCluster,
      (extractTurnOr volume fileSize unset loop).position) =
    (nextOr volume (unset.next loop.bytesRead) loop.currentCluster
      (fread volume.image (bytesToRead volume fileSize loop.bytesRead)
        (fseek (volume.clusterOffset loop.currentCluster) loop.position) loop.clusterData).2,
      (getNextCluster volume loop.currentCluster
        (fread volume.image (bytesToRead volume fileSize loop.bytesRead)
          (fseek (volume.clusterOffset loop.currentCluster) loop.position)
          loop.clusterData).2).2) := rfl

/-- The loops of the other modules are a case of these. -/
theorem extractTurnOr_unset (volume : Volume) (fileSize : Nat) (loop : Extraction) :
    extractTurnOr volume fileSize volume.unset loop = extractTurn volume fileSize loop := by
  unfold extractTurnOr extractTurn Volume.unset
  simp only [nextOr_leftBehind]

/-- What `extract` has written when it returns is written here from some turn on. -/
theorem extract_written {volume : Volume} {inRoot : Bool} {fuel : Nat} {entry : Fat16Entry}
    {position : Nat} {final : Extraction}
    (returned : extract volume inRoot fuel entry position = some final) :
    ∃ turns, ∀ more, turns ≤ more →
      writtenOr volume volume.unset inRoot more entry position = final.written := by
  obtain ⟨turns, -, stops, rfl⟩ := whileLoop_eq_some_iff.mp returned
  refine ⟨turns, fun more behind => ?_⟩
  have same : extractTurnOr volume entry.fileSize.toNat volume.unset =
      extractTurn volume entry.fileSize.toNat := funext (extractTurnOr_unset volume _)
  unfold writtenOr
  rw [same]
  exact congrArg Extraction.written (whileAfter_of_stopsAt stops behind)

/-- Wherever the entry is matched, the loops write the same: what one of them has
written at any time the other has written too, sooner or later.  The positions of the
stream may differ if the first seek is not refused. -/
def LoopsAgree (volume : Volume) (entry : Fat16Entry) : Prop :=
  ∀ rootUnset otherUnset rootPosition position,
    (0 ≤ volume.clusterOffset entry.startingCluster.toNat ∨ rootPosition = position) →
    (∀ turns, ∃ more, writtenOr volume rootUnset true turns entry rootPosition <+:
      writtenOr volume otherUnset false more entry position) ∧
    ∀ turns, ∃ more, writtenOr volume otherUnset false turns entry position <+:
      writtenOr volume rootUnset true more entry rootPosition

end Loops

/-! ### What the loops depend on -/

section Conditions

variable (volume : Volume) (entry : Fat16Entry) (position : Nat)

/-- The cluster and the position of the stream before a turn. -/
def Volume.placeAt (turns : Nat) : Nat × Nat :=
  (volume.follow (clusterSize volume.bs))^[turns] (entry.startingCluster.toNat, position)

/-- Where the turn begins to read. -/
def Volume.dataStart (turns : Nat) : Nat :=
  fseek (volume.clusterOffset (volume.placeAt entry position turns).1)
    (volume.placeAt entry position turns).2

/-- Both loops come to the turn and do it: bytes are left, and the chain has had no value
from 0xFFF8 on. -/
structure BothTurn (turns : Nat) : Prop where
  left : turns * clusterSize volume.bs < entry.fileSize.toNat
  linked : ∀ earlier, earlier ≤ turns → (volume.placeAt entry position earlier).1 < 0xFFF8

/-- The bytes that the turn writes were read, in it or before it, and the FAT entry that it
follows, if bytes are left behind it, lies inside the image. -/
structure TurnInside (turns : Nat) : Prop where
  written : ∀ index, index < clusterSize volume.bs →
    turns * clusterSize volume.bs + index < entry.fileSize.toNat →
      ∃ earlier, earlier ≤ turns ∧
        volume.dataStart entry position earlier + index < volume.image.size
  link : (turns + 1) * clusterSize volume.bs < entry.fileSize.toNat →
    volume.Delivers (volume.placeAt entry position turns).1
      (volume.dataStart entry position turns +
        min (clusterSize volume.bs) (volume.image.size - volume.dataStart entry position turns))

/-- So do all turns of both loops. -/
def ReadsInside : Prop :=
  ∀ turns, BothTurn volume entry position turns → TurnInside volume entry position turns

/-- Bytes are left when the chain comes to its first value from 0xFFF8 on, and that
value is not 0xFFFF. -/
def MeetsOtherMark : Prop :=
  ∃ turns, turns * clusterSize volume.bs < entry.fileSize.toNat ∧
    (∀ earlier, earlier < turns → (volume.placeAt entry position earlier).1 < 0xFFF8) ∧
    (volume.placeAt entry position turns).1 ∈ Set.Ico 0xFFF8 0xFFFF

/-- A byte of the buffer before a turn: the last one read there, or what it held. -/
def bufferAt (held : Bytes) : Nat → Bytes
  | 0 => held
  | turns + 1 => fun index =>
      if volume.dataStart entry position turns + index < volume.image.size then
        volume.image.byte (volume.dataStart entry position turns + index)
      else bufferAt held turns index

/-- What a turn writes. -/
def turnBytes (held : Bytes) (turns : Nat) : List UInt8 :=
  (List.range (bytesToRead volume entry.fileSize.toNat (turns * clusterSize volume.bs))).map
    (bufferAt volume entry position held (turns + 1))

/-- What a number of turns write. -/
def bytesWritten (held : Bytes) (turns : Nat) : List UInt8 :=
  (List.range turns).flatMap (turnBytes volume entry position held)

end Conditions

section Buffers

variable {volume : Volume} {entry : Fat16Entry} {position : Nat}

theorem placeAt_succ (turns : Nat) : volume.placeAt entry position (turns + 1) =
    getNextCluster volume (volume.placeAt entry position turns).1
      (volume.dataStart entry position turns +
        min (clusterSize volume.bs) (volume.image.size - volume.dataStart entry position turns)) :=
  Function.iterate_succ_apply' ..

theorem bufferAt_succ (held : Bytes) (turns index : Nat) :
    bufferAt volume entry position held (turns + 1) index =
      if volume.dataStart entry position turns + index < volume.image.size then
        volume.image.byte (volume.dataStart entry position turns + index)
      else bufferAt volume entry position held turns index := rfl

/-- A byte that was read does not show what the buffer held. -/
theorem bufferAt_of_read {turns index : Nat}
    (read : ∃ earlier, earlier < turns ∧
      volume.dataStart entry position earlier + index < volume.image.size)
    (held other : Bytes) :
    bufferAt volume entry position held turns index =
      bufferAt volume entry position other turns index := by
  induction turns with
  | zero =>
      obtain ⟨earlier, early, -⟩ := read
      exact absurd early (Nat.not_lt_zero _)
  | succ turns inductionHypothesis =>
      rw [bufferAt_succ, bufferAt_succ]
      split
      · rfl
      · rename_i unread
        obtain ⟨earlier, early, inside⟩ := read
        apply inductionHypothesis
        refine ⟨earlier, Nat.lt_of_le_of_ne (Nat.le_of_lt_succ early) ?_, inside⟩
        rintro rfl
        exact unread inside

/-- A byte that was never read is what the buffer held. -/
theorem bufferAt_of_unread {turns index : Nat}
    (unread : ∀ earlier, earlier < turns →
      ¬ volume.dataStart entry position earlier + index < volume.image.size) (held : Bytes) :
    bufferAt volume entry position held turns index = held index := by
  induction turns with
  | zero => rfl
  | succ turns inductionHypothesis =>
      rw [bufferAt_succ, if_neg (unread turns (Nat.lt_succ_self turns))]
      exact inductionHypothesis fun earlier early => unread earlier (Nat.lt_succ_of_lt early)

theorem bytesWritten_succ (held : Bytes) (turns : Nat) :
    bytesWritten volume entry position held (turns + 1) =
      bytesWritten volume entry position held turns ++
        turnBytes volume entry position held turns := by
  unfold bytesWritten
  rw [List.range_succ, List.flatMap_append, List.flatMap_singleton]

/-- Turns inside the image write the same whatever the buffer held. -/
theorem bytesWritten_of_inside {turns : Nat}
    (inside : ∀ earlier, earlier < turns → TurnInside volume entry position earlier)
    (held other : Bytes) :
    bytesWritten volume entry position held turns =
      bytesWritten volume entry position other turns := by
  apply List.flatMap_congr
  intro earlier member
  apply List.map_congr_left
  intro index within
  have early := List.mem_range.mp within
  rw [bytesToRead_eq] at early
  obtain ⟨before, notLater, read⟩ := (inside earlier (List.mem_range.mp member)).written index
    (by omega) (by omega)
  exact bufferAt_of_read ⟨before, Nat.lt_succ_of_le notLater, read⟩ held other

end Buffers

/-! ### How a loop stands after some turns -/

section Turns

variable {volume : Volume} {entry : Fat16Entry} {position turns : Nat} {unset : Unset}
  {loop : Extraction} {inRoot : Bool}

/-- The bytes counted and written after a number of turns and, while bytes are left, the
place and the buffer. -/
structure Standing (volume : Volume) (entry : Fat16Entry) (position : Nat) (unset : Unset)
    (turns : Nat) (loop : Extraction) : Prop where
  bytesRead : loop.bytesRead = min (turns * clusterSize volume.bs) entry.fileSize.toNat
  written : loop.written = bytesWritten volume entry position unset.held turns
  place : turns * clusterSize volume.bs < entry.fileSize.toNat →
    (loop.currentCluster, loop.position) = volume.placeAt entry position turns
  clusterData : turns * clusterSize volume.bs < entry.fileSize.toNat →
    ∀ index, index < clusterSize volume.bs →
      loop.clusterData index = bufferAt volume entry position unset.held turns index

theorem Standing.start (volume : Volume) (entry : Fat16Entry) (position : Nat) (unset : Unset) :
    Standing volume entry position unset 0 (.startOr volume unset entry position) := by
  refine ⟨?_, rfl, fun _ => rfl, fun _ _ _ => rfl⟩
  rw [Nat.zero_mul, Nat.zero_min]
  rfl

/-- One more turn. -/
theorem Standing.turn (standing : Standing volume entry position unset turns loop)
    (left : turns * clusterSize volume.bs < entry.fileSize.toNat)
    (link : (turns + 1) * clusterSize volume.bs < entry.fileSize.toNat →
      volume.Delivers (volume.placeAt entry position turns).1
        (volume.dataStart entry position turns + min (clusterSize volume.bs)
          (volume.image.size - volume.dataStart entry position turns))) :
    Standing volume entry position unset (turns + 1)
      (extractTurnOr volume entry.fileSize.toNat unset loop) := by
  have counted : loop.bytesRead = turns * clusterSize volume.bs := by
    rw [standing.bytesRead, Nat.min_eq_left (Nat.le_of_lt left)]
  have cluster : loop.currentCluster = (volume.placeAt entry position turns).1 :=
    congrArg Prod.fst (standing.place left)
  have stop : loop.position = (volume.placeAt entry position turns).2 :=
    congrArg Prod.snd (standing.place left)
  have start : fseek (volume.clusterOffset loop.currentCluster) loop.position =
      volume.dataStart entry position turns := by
    rw [cluster, stop]
    rfl
  -- Over the bytes of a cluster the read leaves the buffer of the next turn.
  have read (index : Nat) (within : index < bytesToRead volume entry.fileSize.toNat
      (turns * clusterSize volume.bs)) :
      (extractTurnOr volume entry.fileSize.toNat unset loop).clusterData index =
        bufferAt volume entry position unset.held (turns + 1) index := by
    have inCluster := Nat.lt_of_lt_of_le within (bytesToRead_le_clusterSize volume _ _)
    rw [extractTurnOr_clusterData, start, counted, bufferAt_succ,
      ← standing.clusterData left index inCluster]
    unfold fread
    dsimp only
    split
    · rename_i inside
      rw [if_pos inside.2]
    · rename_i outside
      rw [if_neg fun inside => outside ⟨within, inside⟩]
  constructor
  · rw [extractTurnOr_bytesRead, counted, bytesToRead_eq, Nat.succ_mul]
    omega
  · rw [extractTurnOr_written, bytesWritten_succ, ← standing.written, counted]
    congr 1
    apply List.map_congr_left
    intro index member
    exact read index (List.mem_range.mp member)
  · intro more
    have whole : bytesToRead volume entry.fileSize.toNat (turns * clusterSize volume.bs) =
        clusterSize volume.bs := by
      rw [Nat.succ_mul] at more
      rw [bytesToRead_eq]
      omega
    rw [extractTurnOr_place, start, counted, whole, cluster, placeAt_succ]
    exact Prod.ext (nextOr_of_delivers (link more)) rfl
  · intro more index inCluster
    apply read
    rw [Nat.succ_mul] at more
    rw [bytesToRead_eq]
    omega

/-- Its test, while bytes are left. -/
theorem Standing.goesOn_iff (standing : Standing volume entry position unset turns loop)
    (left : turns * clusterSize volume.bs < entry.fileSize.toNat) (inRoot : Bool) :
    extractionGoesOn entry.fileSize.toNat inRoot loop = true ↔
      (volume.placeAt entry position turns).1 < if inRoot then 0xFFF8 else 0xFFFF := by
  have cluster : loop.currentCluster = (volume.placeAt entry position turns).1 :=
    congrArg Prod.fst (standing.place left)
  rw [extractionGoesOn_iff, cluster, standing.bytesRead, Nat.min_eq_left (Nat.le_of_lt left)]
  exact and_iff_left left

/-- When no bytes are left the test fails. -/
theorem Standing.stops (standing : Standing volume entry position unset turns loop)
    (used : entry.fileSize.toNat ≤ turns * clusterSize volume.bs) (inRoot : Bool) :
    extractionGoesOn entry.fileSize.toNat inRoot loop = false := by
  rw [Bool.eq_false_iff, Ne, extractionGoesOn_iff, standing.bytesRead, Nat.min_eq_right used]
  exact fun running => absurd running.2 (Nat.lt_irrefl _)

/-- Both loops do the turns before this one, all of them inside the image. -/
def DoneInside (volume : Volume) (entry : Fat16Entry) (position turns : Nat) : Prop :=
  ∀ earlier, earlier < turns →
    BothTurn volume entry position earlier ∧ TurnInside volume entry position earlier

theorem DoneInside.standing (done : DoneInside volume entry position turns) (unset : Unset) :
    Standing volume entry position unset turns
      ((extractTurnOr volume entry.fileSize.toNat unset)^[turns]
        (.startOr volume unset entry position)) := by
  induction turns with
  | zero => exact .start volume entry position unset
  | succ turns inductionHypothesis =>
      rw [Function.iterate_succ_apply']
      obtain ⟨both, inside⟩ := done turns (Nat.lt_succ_self turns)
      exact (inductionHypothesis fun earlier early => done earlier (Nat.lt_succ_of_lt early)).turn
        both.left inside.link

/-- Up to there both loops go on. -/
theorem DoneInside.goesOn (done : DoneInside volume entry position turns) (unset : Unset)
    (inRoot : Bool) {earlier : Nat} (early : earlier < turns) :
    extractionGoesOn entry.fileSize.toNat inRoot
      ((extractTurnOr volume entry.fileSize.toNat unset)^[earlier]
        (.startOr volume unset entry position)) = true := by
  have before : DoneInside volume entry position earlier := fun sooner less =>
    done sooner (Nat.lt_trans less early)
  obtain ⟨both, -⟩ := done earlier early
  rw [(before.standing unset).goesOn_iff both.left]
  have below := both.linked earlier (Nat.le_refl earlier)
  split <;> omega

/-- A seek that is not refused makes the position before it irrelevant. -/
theorem writtenOr_position (sought : 0 ≤ volume.clusterOffset entry.startingCluster.toNat)
    (unset : Unset) (inRoot : Bool) (turns first second : Nat) :
    writtenOr volume unset inRoot turns entry first =
      writtenOr volume unset inRoot turns entry second := by
  have same : extractTurnOr volume entry.fileSize.toNat unset (.startOr volume unset entry first) =
      extractTurnOr volume entry.fileSize.toNat unset (.startOr volume unset entry second) := by
    simp only [extractTurnOr, Extraction.startOr, Extraction.start, fseek, sought, if_true]
  have tests : extractionGoesOn entry.fileSize.toNat inRoot (.startOr volume unset entry first) =
      extractionGoesOn entry.fileSize.toNat inRoot (.startOr volume unset entry second) := by
    cases inRoot <;> rfl
  cases turns with
  | zero => rfl
  | succ turns =>
      unfold writtenOr
      simp only [whileAfter_succ, tests, same]
      split <;> rfl

/-- In clusters of no bytes nothing is written. -/
theorem writtenOr_of_no_bytes (none : clusterSize volume.bs = 0) (unset : Unset) (inRoot : Bool)
    (turns : Nat) : writtenOr volume unset inRoot turns entry position = [] := by
  apply whileAfter_invariant fun loop : Extraction => loop.written = []
  · intro before nothing _
    have count : bytesToRead volume entry.fileSize.toNat before.bytesRead = 0 := by
      rw [bytesToRead_eq, none, Nat.zero_min]
    rw [extractTurnOr_written, nothing, count]
    rfl
  · rfl

/-! ### Reads inside the image -/

/-- Two loops that have done the same turns, all of them inside the image. -/
def InStep (volume : Volume) (entry : Fat16Entry) (position : Nat) (rootUnset unset : Unset)
    (root other : Extraction) : Prop :=
  ∃ turns, DoneInside volume entry position turns ∧
    Standing volume entry position rootUnset turns root ∧
    Standing volume entry position unset turns other

/-- The two loops keep step when their reads lie inside the image and no such mark is met. -/
theorem writtenOr_same (inside : ReadsInside volume entry position)
    (unmet : ¬ MeetsOtherMark volume entry position) (rootUnset unset : Unset) (turns : Nat) :
    writtenOr volume rootUnset true turns entry position =
      writtenOr volume unset false turns entry position := by
  have kept : InStep volume entry position rootUnset unset
      (whileAfter (extractionGoesOn entry.fileSize.toNat true)
        (extractTurnOr volume entry.fileSize.toNat rootUnset) turns
        (.startOr volume rootUnset entry position))
      (whileAfter (extractionGoesOn entry.fileSize.toNat false)
        (extractTurnOr volume entry.fileSize.toNat unset) turns
        (.startOr volume unset entry position)) := by
    apply whileAfter_lockstep
    · rintro root other ⟨done, doneInside, rootStanding, standing⟩
      rcases Nat.lt_or_ge (done * clusterSize volume.bs) entry.fileSize.toNat with left | used
      · rw [Bool.eq_iff_iff, rootStanding.goesOn_iff left, standing.goesOn_iff left]
        have notMark : ¬ (volume.placeAt entry position done).1 ∈ Set.Ico 0xFFF8 0xFFFF :=
          fun marked => unmet ⟨done, left, fun earlier early =>
            (doneInside earlier early).1.linked earlier (Nat.le_refl earlier), marked⟩
        rw [Set.mem_Ico] at notMark
        simp only [if_true, Bool.false_eq_true, if_false]
        omega
      · rw [rootStanding.stops used, standing.stops used]
    · rintro root other ⟨done, doneInside, rootStanding, standing⟩ running
      have left : done * clusterSize volume.bs < entry.fileSize.toNat := by
        by_contra used
        rw [rootStanding.stops (Nat.not_lt.mp used)] at running
        cases running
      have both : BothTurn volume entry position done := by
        refine ⟨left, fun earlier early => ?_⟩
        rcases Nat.lt_or_eq_of_le early with sooner | rfl
        · exact (doneInside earlier sooner).1.linked earlier (Nat.le_refl earlier)
        · exact (rootStanding.goesOn_iff left true).mp running
      have here := inside done both
      refine ⟨done + 1, fun earlier early => ?_, rootStanding.turn left here.link,
        standing.turn left here.link⟩
      rcases Nat.lt_succ_iff_lt_or_eq.mp early with sooner | rfl
      · exact doneInside earlier sooner
      · exact ⟨both, here⟩
    · exact ⟨0, fun _ early => absurd early (Nat.not_lt_zero _), .start .., .start ..⟩
  obtain ⟨done, doneInside, rootStanding, standing⟩ := kept
  unfold writtenOr
  rw [rootStanding.written, standing.written]
  exact bytesWritten_of_inside (fun earlier early => (doneInside earlier early).2) _ _

/-! ### Reads that are cut off -/

/-- Whatever the links, a loop has written the bytes that it has counted. -/
theorem iterate_written (unset : Unset) (turns : Nat) :
    ((extractTurnOr volume entry.fileSize.toNat unset)^[turns]
        (.startOr volume unset entry position)).bytesRead =
      min (turns * clusterSize volume.bs) entry.fileSize.toNat ∧
    ((extractTurnOr volume entry.fileSize.toNat unset)^[turns]
        (.startOr volume unset entry position)).written.length =
      min (turns * clusterSize volume.bs) entry.fileSize.toNat := by
  have counts (loop : Extraction) :
      (extractTurnOr volume entry.fileSize.toNat unset loop).bytesRead =
        loop.bytesRead + bytesToRead volume entry.fileSize.toNat loop.bytesRead :=
    extractTurnOr_bytesRead
  have counted (turns : Nat) :=
    iterate_bytesRead counts (rfl : (Extraction.startOr volume unset entry position).bytesRead = 0)
      turns
  refine ⟨counted turns, ?_⟩
  rw [← counted]
  induction turns with
  | zero => rfl
  | succ turns inductionHypothesis =>
      rw [Function.iterate_succ_apply', extractTurnOr_written, extractTurnOr_bytesRead,
        List.length_append, inductionHypothesis, List.length_map, List.length_range]

/-- Loops that agree do not stop at different places while bytes are left. -/
theorem LoopsAgree.not_longer (agree : LoopsAgree volume entry) (unset : Unset)
    (left : turns * clusterSize volume.bs < entry.fileSize.toNat)
    (nonempty : 0 < clusterSize volume.bs) {rootUnset : Unset}
    (rootStops : StopsAt (extractionGoesOn entry.fileSize.toNat true)
      (extractTurnOr volume entry.fileSize.toNat rootUnset)
      (.startOr volume rootUnset entry position) turns)
    (otherRuns : ∀ earlier, earlier < turns + 1 →
      extractionGoesOn entry.fileSize.toNat false
        ((extractTurnOr volume entry.fileSize.toNat unset)^[earlier]
          (.startOr volume unset entry position)) = true) : False := by
  obtain ⟨more, inside⟩ := (agree rootUnset unset position position (.inr rfl)).2 (turns + 1)
  have longer : (writtenOr volume unset false (turns + 1) entry position).length =
      min ((turns + 1) * clusterSize volume.bs) entry.fileSize.toNat := by
    unfold writtenOr
    rw [whileAfter_eq otherRuns, (iterate_written unset _).2]
  have shorter : (writtenOr volume rootUnset true more entry position).length ≤
      turns * clusterSize volume.bs := by
    unfold writtenOr
    rcases Nat.le_total more turns with early | late
    · rw [whileAfter_eq fun earlier sooner =>
        rootStops.before earlier (Nat.lt_of_lt_of_le sooner early), (iterate_written rootUnset _).2]
      exact (Nat.min_le_left _ _).trans (Nat.mul_le_mul_right _ early)
    · rw [whileAfter_of_stopsAt rootStops late, (iterate_written rootUnset _).2]
      exact Nat.min_le_left _ _
  have lengths := inside.length_le
  rw [longer, Nat.succ_mul] at lengths
  omega

/-- A turn whose FAT entry is cut off goes to the cluster that `next` holds. -/
theorem Standing.next_of_cut (standing : Standing volume entry position unset turns loop)
    (more : (turns + 1) * clusterSize volume.bs < entry.fileSize.toNat)
    (cut : ¬ volume.Delivers (volume.placeAt entry position turns).1
      (volume.dataStart entry position turns + min (clusterSize volume.bs)
        (volume.image.size - volume.dataStart entry position turns))) {value : UInt16}
    (constant : ∀ call place, unset.next call place = value) :
    (extractTurnOr volume entry.fileSize.toNat unset loop).currentCluster = value.toNat := by
  rw [Nat.succ_mul] at more
  have left : turns * clusterSize volume.bs < entry.fileSize.toNat := by omega
  have counted : bytesToRead volume entry.fileSize.toNat loop.bytesRead =
      clusterSize volume.bs := by
    rw [bytesToRead_eq, standing.bytesRead]
    omega
  have cluster : loop.currentCluster = (volume.placeAt entry position turns).1 :=
    congrArg Prod.fst (standing.place left)
  have stop : loop.position = (volume.placeAt entry position turns).2 :=
    congrArg Prod.snd (standing.place left)
  have place : (extractTurnOr volume entry.fileSize.toNat unset loop).currentCluster = _ :=
    congrArg Prod.fst extractTurnOr_place
  dsimp only at place
  rw [place, counted, cluster, stop, ← constant loop.bytesRead (volume.linkPosition _ _)]
  exact nextOr_of_not_delivers cut

/-- Both loops go on into a turn that they both do. -/
theorem BothTurn.goesOn (both : BothTurn volume entry position turns)
    (done : DoneInside volume entry position turns) (unset : Unset) (inRoot : Bool)
    {earlier : Nat} (early : earlier < turns + 1) :
    extractionGoesOn entry.fileSize.toNat inRoot
      ((extractTurnOr volume entry.fileSize.toNat unset)^[earlier]
        (.startOr volume unset entry position)) = true := by
  rcases Nat.lt_succ_iff_lt_or_eq.mp early with sooner | rfl
  · exact done.goesOn unset inRoot sooner
  · rw [(done.standing unset).goesOn_iff both.left]
    have below := both.linked earlier (Nat.le_refl earlier)
    split <;> omega

/-- A FAT entry that is cut off can end one of the loops and not the other. -/
theorem LoopsAgree.link (agree : LoopsAgree volume entry) (nonempty : 0 < clusterSize volume.bs)
    (both : BothTurn volume entry position turns) (done : DoneInside volume entry position turns)
    (more : (turns + 1) * clusterSize volume.bs < entry.fileSize.toNat) :
    volume.Delivers (volume.placeAt entry position turns).1
      (volume.dataStart entry position turns + min (clusterSize volume.bs)
        (volume.image.size - volume.dataStart entry position turns)) := by
  by_contra cut
  let rootUnset : Unset := ⟨volume.uninitialised, fun _ _ => 0xFFFF⟩
  let unset : Unset := ⟨volume.uninitialised, fun _ _ => 2⟩
  have test (unset : Unset) (value : UInt16)
      (constant : ∀ call place, unset.next call place = value) (inRoot : Bool) :
      extractionGoesOn entry.fileSize.toNat inRoot
          ((extractTurnOr volume entry.fileSize.toNat unset)^[turns + 1]
            (.startOr volume unset entry position)) = true ↔
        value.toNat < if inRoot then 0xFFF8 else 0xFFFF := by
    rw [extractionGoesOn_iff, (iterate_written unset _).1, Nat.min_eq_left (Nat.le_of_lt more),
      Function.iterate_succ_apply', (done.standing unset).next_of_cut more cut constant]
    exact and_iff_left more
  have rootStops : StopsAt (extractionGoesOn entry.fileSize.toNat true)
      (extractTurnOr volume entry.fileSize.toNat rootUnset)
      (.startOr volume rootUnset entry position) (turns + 1) := by
    refine ⟨?_, fun earlier early => both.goesOn done rootUnset true early⟩
    rw [Bool.eq_false_iff, Ne, test rootUnset 0xFFFF fun _ _ => rfl]
    decide
  refine agree.not_longer unset more nonempty rootStops fun earlier early => ?_
  rcases Nat.lt_succ_iff_lt_or_eq.mp early with sooner | rfl
  · exact both.goesOn done unset false sooner
  · rw [test unset 2 fun _ _ => rfl]
    decide

/-- What a loop has written it does not take back. -/
theorem writtenOr_grows (unset : Unset) (inRoot : Bool) (entry : Fat16Entry) (position : Nat)
    {first second : Nat} (earlier : first ≤ second) :
    writtenOr volume unset inRoot first entry position <+:
      writtenOr volume unset inRoot second entry position := by
  obtain ⟨more, rfl⟩ := Nat.exists_eq_add_of_le earlier
  unfold writtenOr
  rw [whileAfter_add]
  generalize whileAfter _ _ first _ = middle
  apply whileAfter_invariant fun loop : Extraction => middle.written <+: loop.written
  · intro before begins _
    rw [extractTurnOr_written]
    exact begins.trans (List.prefix_append _ _)
  · exact List.prefix_rfl

theorem stays_written {first second : List UInt8} (begins : first <+: second) {index : Nat}
    {byte : UInt8} (written : first[index]? = some byte) : second[index]? = some byte := by
  obtain ⟨behind, rfl⟩ := begins
  obtain ⟨within, -⟩ := List.getElem?_eq_some_iff.mp written
  rw [List.getElem?_append_left within, written]

/-- A byte that was never read is written as it was held. -/
theorem writtenOr_getElem_of_unread (both : BothTurn volume entry position turns)
    (done : DoneInside volume entry position turns)
    (link : (turns + 1) * clusterSize volume.bs < entry.fileSize.toNat →
      volume.Delivers (volume.placeAt entry position turns).1
        (volume.dataStart entry position turns + min (clusterSize volume.bs)
          (volume.image.size - volume.dataStart entry position turns)))
    {index : Nat} (inCluster : index < clusterSize volume.bs)
    (inFile : turns * clusterSize volume.bs + index < entry.fileSize.toNat)
    (unread : ∀ earlier, earlier < turns + 1 →
      ¬ volume.dataStart entry position earlier + index < volume.image.size)
    (unset : Unset) (inRoot : Bool) :
    (writtenOr volume unset inRoot (turns + 1) entry position)[turns * clusterSize volume.bs +
      index]? = some (unset.held index) := by
  have standing := done.standing unset
  have length : (bytesWritten volume entry position unset.held turns).length =
      turns * clusterSize volume.bs := by
    rw [← standing.written, (iterate_written unset turns).2,
      Nat.min_eq_left (Nat.le_of_lt both.left)]
  have written : writtenOr volume unset inRoot (turns + 1) entry position =
      bytesWritten volume entry position unset.held turns ++
        turnBytes volume entry position unset.held turns := by
    rw [← bytesWritten_succ, ← (standing.turn both.left link).written,
      ← Function.iterate_succ_apply' (extractTurnOr volume entry.fileSize.toNat unset)]
    unfold writtenOr
    rw [whileAfter_eq fun earlier early => both.goesOn done unset inRoot early]
  have within : index < bytesToRead volume entry.fileSize.toNat
      (turns * clusterSize volume.bs) := by
    rw [bytesToRead_eq]
    omega
  rw [written, List.getElem?_append_right (by omega), length, Nat.add_sub_cancel_left, turnBytes,
    List.getElem?_map, List.getElem?_range within, Option.map_some, bufferAt_of_unread unread]

/-- A byte that was never read can be different in the two loops. -/
theorem LoopsAgree.turnInside (agree : LoopsAgree volume entry)
    (nonempty : 0 < clusterSize volume.bs) (both : BothTurn volume entry position turns)
    (done : DoneInside volume entry position turns) : TurnInside volume entry position turns := by
  have link := agree.link nonempty both done
  refine ⟨fun index inCluster inFile => ?_, link⟩
  by_contra! outside
  have unread : ∀ earlier, earlier < turns + 1 →
      ¬ volume.dataStart entry position earlier + index < volume.image.size :=
    fun earlier early => Nat.not_lt.mpr (outside earlier (Nat.le_of_lt_succ early))
  have shows := writtenOr_getElem_of_unread both done link inCluster inFile unread
  -- One buffer holds zeros and the other ones.
  let zeros : Unset := ⟨fun _ => 0, volume.unset.next⟩
  let ones : Unset := ⟨fun _ => 1, volume.unset.next⟩
  obtain ⟨more, inside⟩ := (agree zeros ones position position (.inr rfl)).1 (turns + 1)
  -- Both are seen in what the second loop writes in the end.
  have zero := stays_written (inside.trans (writtenOr_grows ones false entry position
    (Nat.le_max_right (turns + 1) more))) (shows zeros true)
  have one := stays_written (writtenOr_grows ones false entry position
    (Nat.le_max_left (turns + 1) more)) (shows ones false)
  have same : (1 : UInt8) = 0 := Option.some_inj.mp (one.symm.trans zero)
  exact absurd same (by decide)

/-- Loops that agree read inside the image. -/
theorem LoopsAgree.readsInside (agree : LoopsAgree volume entry)
    (nonempty : 0 < clusterSize volume.bs) (position : Nat) :
    ReadsInside volume entry position := by
  intro turns
  induction turns using Nat.strong_induction_on with
  | h turns inductionHypothesis =>
      intro both
      apply agree.turnInside nonempty both
      intro earlier early
      have before : BothTurn volume entry position earlier := by
        refine ⟨(Nat.mul_le_mul_right _ (Nat.le_of_lt early)).trans_lt both.left, ?_⟩
        exact fun sooner less => both.linked sooner (less.trans (Nat.le_of_lt early))
      exact ⟨before, inductionHypothesis earlier early before⟩

/-- They do not meet a mark that only one of them knows. -/
theorem LoopsAgree.unmet (agree : LoopsAgree volume entry)
    (nonempty : 0 < clusterSize volume.bs) (position : Nat) :
    ¬ MeetsOtherMark volume entry position := by
  rintro ⟨turns, left, before, marked⟩
  have done : DoneInside volume entry position turns := by
    intro earlier early
    have both : BothTurn volume entry position earlier := by
      refine ⟨(Nat.mul_le_mul_right _ (Nat.le_of_lt early)).trans_lt left, ?_⟩
      exact fun sooner less => before sooner (Nat.lt_of_le_of_lt less early)
    exact ⟨both, agree.readsInside nonempty position earlier both⟩
  have rootStops : StopsAt (extractionGoesOn entry.fileSize.toNat true)
      (extractTurnOr volume entry.fileSize.toNat volume.unset)
      (.startOr volume volume.unset entry position) turns := by
    refine ⟨?_, fun earlier early => done.goesOn volume.unset true early⟩
    rw [Bool.eq_false_iff, Ne, (done.standing volume.unset).goesOn_iff left]
    exact Nat.not_lt.mpr marked.1
  refine agree.not_longer volume.unset left nonempty rootStops fun earlier early => ?_
  rcases Nat.lt_succ_iff_lt_or_eq.mp early with sooner | rfl
  · exact done.goesOn volume.unset false sooner
  · rw [(done.standing volume.unset).goesOn_iff left]
    exact marked.2

end Turns

/-- For every image, geometry and entry the two loops write the same exactly if clusters
have no bytes, or no end mark from 0xFFF8 to 0xFFFE is met while bytes of the file are left
and, as long as there are, what is written and followed is read inside the image. -/
theorem loops_agree_iff (volume : Volume) (entry : Fat16Entry) :
    LoopsAgree volume entry ↔
      clusterSize volume.bs = 0 ∨ ∀ position,
        ¬ MeetsOtherMark volume entry position ∧ ReadsInside volume entry position := by
  constructor
  · intro agree
    rcases Nat.eq_zero_or_pos (clusterSize volume.bs) with none | nonempty
    · exact .inl none
    · exact .inr fun position =>
        ⟨agree.unmet nonempty position, agree.readsInside nonempty position⟩
  · rintro (none | fits) rootUnset unset rootPosition position same
    · simp only [writtenOr_of_no_bytes none]
      exact ⟨fun _ => ⟨0, List.prefix_rfl⟩, fun _ => ⟨0, List.prefix_rfl⟩⟩
    · have equal (turns : Nat) : writtenOr volume rootUnset true turns entry rootPosition =
          writtenOr volume unset false turns entry position := by
        rcases same with sought | rfl
        · rw [writtenOr_position sought rootUnset true turns rootPosition position]
          exact writtenOr_same (fits position).2 (fits position).1 rootUnset unset turns
        · exact writtenOr_same (fits rootPosition).2 (fits rootPosition).1 rootUnset unset turns
      constructor
      · intro turns
        exact ⟨turns, equal turns ▸ List.prefix_rfl⟩
      · intro turns
        exact ⟨turns, equal turns ▸ List.prefix_rfl⟩

/-- The end mark 0xFFF8 behind cluster 2 ends a file of 600 bytes in the root
directory, and only there. -/
theorem short_chain_read_differently :
    ¬ ∀ (image : Image) (uninitialised : Bytes) (entry : Fat16Entry),
      LoopsAgree (mount image uninitialised) entry := by
  intro claimed
  have agree : LoopsAgree (fileVolume [0xF8, 0xFF]) sampleFile := claimed _ _ _
  have meets : MeetsOtherMark (fileVolume [0xF8, 0xFF]) sampleFile 0 := by
    refine ⟨1, by decide, fun earlier early => ?_, by decide, by decide⟩
    obtain rfl := Nat.lt_one_iff.mp early
    decide
  exact agree.unmet (by decide) 0 meets

end Ivos.Fat
