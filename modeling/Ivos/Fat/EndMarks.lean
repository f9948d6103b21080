/-
Module: Ivos.Fat.EndMarks
Purpose: The clusters and entries that the walks over a directory visit, and the end
  marks at which they stop.
Trusted boundary: none
Main exports: Trace, forTrace, walkTrace, Volume.EndedChain, StopsAtMark,
  stops_at_mark_iff, other_end_mark_followed
-/
import Ivos.Fat.Listing
import Ivos.Fat.Reading

namespace Ivos.Fat

/-! ### What a walk visits

The clusters that a loop examines are read off the loop itself, by a body that writes down
the clusters it is called for, so that the four walks can be compared.
-/

/-- What a walk has visited when it ends, or when one of its bodies does not return. -/
structure Trace (State Result : Type) where
  clusters : List Nat
  entries : List Fat16Entry
  outcome : Option (Flow State Result)

section Traces

variable {State Result : Type} (volume : Volume)

/-- `forEntries` with the entries that it reads. -/
def forTrace (body : Nat → Fat16Entry → Nat → State → Option (Flow State Result)) :
    Nat → Nat → Bytes → Nat → State → List Fat16Entry × Option (Flow State Result × Bytes)
  | 0, _, held, position, state => ([], some (.next state position, held))
  | count + 1, index, held, position, state =>
      let (held, position) := fread volume.image entrySize position held
      match body index (.decode held) position state with
      | none => ([.decode held], none)
      | some (.done result position) => ([.decode held], some (.done result position, held))
      | some (.next state position) =>
          let (entries, outcome) := forTrace body count (index + 1) held position state
          (.decode held :: entries, outcome)

/-- `walkChain` with the clusters that it goes through and the entries that it reads. -/
def walkTrace (body : Int → Nat → Fat16Entry → Nat → State → Option (Flow State Result)) :
    Nat → Nat → Bytes → Nat → State → Trace State Result
  | 0, _, _, _, _ => ⟨[], [], none⟩
  | fuel + 1, cluster, held, position, state =>
      if isEndOfChain cluster then ⟨[], [], some (.next state position)⟩
      else
        let offset := volume.clusterOffset cluster
        match forTrace volume (body offset) volume.entriesPerCluster 0 held
            (fseek offset position) state with
        | (entries, none) => ⟨[cluster], entries, none⟩
        | (entries, some (.done result position, _)) =>
            ⟨[cluster], entries, some (.done result position)⟩
        | (entries, some (.next state position, held)) =>
            let (next, position) := getNextCluster volume cluster position
            let rest := walkTrace body fuel next held position state
            ⟨cluster :: rest.clusters, entries ++ rest.entries, rest.outcome⟩

end Traces

section Bodies

variable {State Result : Type} {volume : Volume}

theorem forTrace_outcome (body : Nat → Fat16Entry → Nat → State → Option (Flow State Result))
    (count index : Nat) (held : Bytes) (position : Nat) (state : State) :
    (forTrace volume body count index held position state).2 =
      forEntries volume body count index held position state := by
  induction count generalizing index held position state with
  | zero => rfl
  | succ count inductionHypothesis =>
      cases turned : body index (.decode (fread volume.image entrySize position held).1)
          (fread volume.image entrySize position held).2 state with
      | none => simp only [forTrace, forEntries, turned]
      | some flow =>
          cases flow with
          | done result finish => simp only [forTrace, forEntries, turned]
          | next after finish =>
              simp only [forTrace, forEntries, turned]
              exact inductionHypothesis ..

/-- The walk traced is the one of the commands. -/
theorem walkTrace_outcome
    (body : Int → Nat → Fat16Entry → Nat → State → Option (Flow State Result))
    (fuel cluster : Nat) (held : Bytes) (position : Nat) (state : State) :
    (walkTrace volume body fuel cluster held position state).outcome =
      walkChain volume body fuel cluster held position state := by
  induction fuel generalizing cluster held position state with
  | zero => rfl
  | succ fuel inductionHypothesis =>
      simp only [walkTrace, walkChain, ← forTrace_outcome]
      split
      · rfl
      · split
        · rename_i traced
          simp only [traced]
        · rename_i traced
          simp only [traced]
        · rename_i traced
          simp only [traced]
          exact inductionHypothesis ..

/-- A `for` loop reads entries in their order; to go on it reads them all. -/
theorem forTrace_follows {body : Nat → Fat16Entry → Nat → State → Option (Flow State Result)}
    {base : Nat}
    (turn : ∀ index entry before after position,
      body index entry (base + entrySize * (index + 1)) before = some (.next after position) →
        position = base + entrySize * (index + 1))
    {count index : Nat} (held : Bytes) (before : State)
    (inside : base + entrySize * (index + count) ≤ volume.image.size) :
    (forTrace volume body count index held (base + entrySize * index) before).1 <+:
        volume.image.entriesAt (base + entrySize * index) count ∧
      ∀ after position heldAfter,
        (forTrace volume body count index held (base + entrySize * index) before).2 =
            some (.next after position, heldAfter) →
          (forTrace volume body count index held (base + entrySize * index) before).1 =
            volume.image.entriesAt (base + entrySize * index) count := by
  induction count generalizing index held before with
  | zero => exact ⟨List.prefix_rfl, fun _ _ _ _ => rfl⟩
  | succ count inductionHypothesis =>
      obtain ⟨entry, moved⟩ := decode_fread (entry_inside inside) held
      have one : [volume.image.entryAt (base + entrySize * index)] <+:
          volume.image.entriesAt (base + entrySize * index) (count + 1) :=
        ⟨_, rfl⟩
      simp only [forTrace, entry, moved, entry_behind]
      split
      · exact ⟨one, fun _ _ _ none => by cases none⟩
      · exact ⟨one, fun _ _ _ done => by cases done⟩
      · rename_i turned
        obtain rfl := turn _ _ _ _ _ turned
        have ends : index + 1 + count = index + (count + 1) := by omega
        rw [← ends] at inside
        obtain ⟨front, whole⟩ := inductionHypothesis
          (fread volume.image entrySize (base + entrySize * index) held).1 _ inside
        rw [← entry_behind] at front whole ⊢
        refine ⟨List.cons_prefix_cons.mpr ⟨rfl, front⟩, fun after position heldAfter goes => ?_⟩
        exact congrArg _ (whole after position heldAfter goes)

/-- A walk goes along the chain; to end without a result it goes to its end. -/
theorem walkTrace_follows
    {body : Int → Nat → Fat16Entry → Nat → State → Option (Flow State Result)}
    (turn : ∀ offset index entry before after position, 0 ≤ offset →
      body offset index entry (offset.toNat + entrySize * (index + 1)) before =
        some (.next after position) → position = offset.toNat + entrySize * (index + 1))
    {cluster : Nat} {clusters : List Nat} (chain : volume.Chain cluster clusters)
    (fuel : Nat) (held : Bytes) (position : Nat) (before : State) :
    (walkTrace volume body fuel cluster held position before).clusters <+: clusters ∧
      (walkTrace volume body fuel cluster held position before).entries <+:
        volume.directoryEntries clusters ∧
      ∀ after finish, (walkTrace volume body fuel cluster held position before).outcome =
          some (.next after finish) →
        walkTrace volume body fuel cluster held position before =
          ⟨clusters, volume.directoryEntries clusters, some (.next after finish)⟩ := by
  induction chain generalizing fuel held position before with
  | finish mark =>
      cases fuel with
      | zero => exact ⟨List.nil_prefix, List.nil_prefix, fun _ _ goes => by cases goes⟩
      | succ fuel =>
          simp only [walkTrace, mark, if_true]
          exact ⟨List.nil_prefix, List.nil_prefix, fun _ _ goes => by rw [← goes]; rfl⟩
  | @link cluster clusters inside valid readable rest inductionHypothesis =>
      cases fuel with
      | zero => exact ⟨List.nil_prefix, List.nil_prefix, fun _ _ goes => by cases goes⟩
      | succ fuel =>
          have follows := forTrace_follows
            (fun index entry before after position =>
              turn _ index entry before after position readable.data)
            held before readable.entriesInside
          have first : [cluster] <+: cluster :: clusters := ⟨clusters, rfl⟩
          have here : volume.clusterEntries cluster <+:
              volume.directoryEntries (cluster :: clusters) := by
            rw [Volume.directoryEntries_cons]
            exact List.prefix_append _ _
          simp only [walkTrace, inside, Bool.false_eq_true, if_false, readable.sought]
          split
          · rename_i entries traced
            rw [traced] at follows
            exact ⟨first, follows.1.trans here, fun _ _ goes => by cases goes⟩
          · rename_i entries result finish held traced
            rw [traced] at follows
            exact ⟨first, follows.1.trans here, fun _ _ goes => by cases goes⟩
          · rename_i entries after finish held traced
            rw [traced] at follows
            have whole : entries = volume.clusterEntries cluster := follows.2 _ _ _ rfl
            dsimp only
            rw [getNextCluster_fst readable]
            obtain ⟨clustersFollow, entriesFollow, exact⟩ := inductionHypothesis fuel held
              (getNextCluster volume cluster finish).2 after
            refine ⟨List.cons_prefix_cons.mpr ⟨rfl, clustersFollow⟩, ?_, ?_⟩
            · rw [whole, Volume.directoryEntries_cons]
              exact (List.prefix_append_right_inj _).mpr entriesFollow
            · intro last stop goes
              rw [exact last stop goes, whole, Volume.directoryEntries_cons]

/-- When every turn goes on, a walk visits the chain and ends. -/
theorem walkTrace_whole
    {body : Int → Nat → Fat16Entry → Nat → State → Option (Flow State Result)}
    (stays : ∀ offset index entry before after position, 0 ≤ offset →
      body offset index entry (offset.toNat + entrySize * (index + 1)) before =
        some (.next after position) → position = offset.toNat + entrySize * (index + 1))
    {cluster : Nat} {clusters : List Nat} (chain : volume.Chain cluster clusters)
    (turn : ∀ offset, 0 ≤ offset → ∀ index, ∀ entry ∈ volume.directoryEntries clusters,
      ∀ state, ∃ after, body offset index entry (offset.toNat + entrySize * (index + 1)) state =
        some (.next after (offset.toNat + entrySize * (index + 1))))
    {fuel : Nat} (enough : clusters.length < fuel) (held : Bytes) (position : Nat)
    (before : State) :
    ∃ after finish, walkTrace volume body fuel cluster held position before =
      ⟨clusters, volume.directoryEntries clusters, some (.next after finish)⟩ := by
  obtain ⟨after, finish, walked⟩ := walkChain_total chain turn enough held position before
  rw [← walkTrace_outcome] at walked
  exact ⟨after, finish, (walkTrace_follows stays chain fuel held position before).2.2 _ _ walked⟩

end Bodies

/-! ### End marks -/

/-- A chain of readable data clusters that ends with one of the end marks of FAT16.  The
links make its clusters distinct. -/
inductive Volume.EndedChain (volume : Volume) (mark : Nat) : Nat → List Nat → Prop where
  | finish (first : 0xFFF8 ≤ mark) (last : mark ≤ 0xFFFF) : EndedChain volume mark mark []
  | link {cluster : Nat} {clusters : List Nat} (valid : 2 ≤ cluster) (below : cluster < 0xFFF8)
      (readable : volume.Readable cluster)
      (rest : EndedChain volume mark (volume.nextCluster cluster) clusters) :
      EndedChain volume mark cluster (cluster :: clusters)

section Walks

variable {State Result : Type} (volume : Volume)

/-- The walk visits exactly these clusters, in their order, and ends: it reads exactly
their entries. -/
def VisitsExactly (body : Int → Nat → Fat16Entry → Nat → State → Option (Flow State Result))
    (cluster : Nat) (clusters : List Nat) (before : State) : Prop :=
  ∃ bound, ∀ fuel, bound ≤ fuel → ∀ position, ∃ after finish,
    walkTrace volume body fuel cluster volume.uninitialised position before =
      ⟨clusters, volume.directoryEntries clusters, some (.next after finish)⟩

/-- The walk of `print_tree` over a directory, whose recursive calls have `fuel`. -/
def treeTrace (directory : Fat16Entry) (depth : Int) (fuel position : Nat) :
    Trace (List Line) Empty :=
  walkTrace volume (subdirectoryTurn
      (fun entry position => printTree volume fuel (some entry) depth position) directory depth)
    (fuel + 1) directory.startingCluster.toNat volume.uninitialised position []

/-- The walks over a directory visit its chain and stop at the end of it. -/
structure StopsAtMark (directory : Fat16Entry) (clusters : List Nat) : Prop where
  /-- `list_files`. -/
  list : VisitsExactly volume (fun _ => listTurn) directory.startingCluster.toNat clusters []
  /-- `print_tree` never leaves the chain, and visits all of it when its recursive calls
  return. -/
  tree : ∀ depth fuel position,
    (treeTrace volume directory depth fuel position).clusters <+: clusters ∧
      (treeTrace volume directory depth fuel position).entries <+:
        volume.directoryEntries clusters ∧
      (clusters.length ≤ fuel → (∀ entry ∈ volume.directoryEntries clusters,
          entry.ShownIn directory.startingCluster → entry.isDirectory →
            ∀ position, (printTree volume fuel (some entry) depth position).isSome) →
        ∃ lines finish, treeTrace volume directory depth fuel position =
          ⟨clusters, volume.directoryEntries clusters, some (.next lines finish)⟩)
  /-- `change_directory` without success. -/
  change : ∀ name, (∀ entry ∈ volume.directoryEntries clusters, ¬ TakenFor name entry) →
    VisitsExactly volume (fun _ => directoryTurn name) directory.startingCluster.toNat clusters ()
  /-- `read` without success. -/
  read : ∀ frame key, (∀ entry ∈ volume.directoryEntries clusters, ¬ Matches frame key entry) →
    VisitsExactly volume (fun _ => selectTurn (Matches frame key))
      directory.startingCluster.toNat clusters ()

end Walks

variable {volume : Volume}

/-- Ended by 0xFFFF, it is a chain to the program. -/
theorem Volume.EndedChain.chain {mark cluster : Nat} {clusters : List Nat}
    (ended : volume.EndedChain mark cluster clusters) (known : mark = 0xFFFF) :
    volume.Chain cluster clusters := by
  induction ended with
  | finish => exact .finish (by rw [known]; rfl)
  | link valid below readable rest inductionHypothesis =>
      apply Volume.Chain.link _ valid readable inductionHypothesis
      simp only [isEndOfChain, decide_eq_false_iff_not]
      omega

/-- A walk that has visited the chain and ends has taken its end mark for one. -/
theorem Volume.EndedChain.known {State Result : Type} {mark cluster : Nat} {clusters : List Nat}
    (ended : volume.EndedChain mark cluster clusters)
    {body : Int → Nat → Fat16Entry → Nat → State → Option (Flow State Result)}
    {fuel position finish : Nat} {held : Bytes} {before after : State}
    (visited : (walkTrace volume body fuel cluster held position before).clusters = clusters)
    (ends : (walkTrace volume body fuel cluster held position before).outcome =
      some (.next after finish)) : mark = 0xFFFF := by
  induction ended generalizing fuel held position before with
  | finish first last =>
      cases fuel with
      | zero => cases ends
      | succ fuel =>
          unfold walkTrace at visited
          split at visited
          · rename_i known
            have above : 0xFFFF ≤ mark := by simpa [isEndOfChain] using known
            omega
          · dsimp only at visited
            split at visited <;> cases visited
  | @link cluster clusters valid below readable rest inductionHypothesis =>
      have inside : isEndOfChain cluster = false := by
        simp only [isEndOfChain, decide_eq_false_iff_not]
        omega
      cases fuel with
      | zero => cases ends
      | succ fuel =>
          simp only [walkTrace, inside, Bool.false_eq_true, if_false] at visited ends
          split at ends
          · cases ends
          · cases ends
          · rename_i traced
            simp only [traced, List.cons.injEq, true_and] at visited
            rw [getNextCluster_fst readable] at visited ends
            exact inductionHypothesis visited ends

/-- The walk of a search without success visits its chain. -/
theorem visitsExactly_select {cluster : Nat} {clusters : List Nat}
    (chain : volume.Chain cluster clusters) {taken : Fat16Entry → Prop} [DecidablePred taken]
    (absent : ∀ entry ∈ volume.directoryEntries clusters, ¬ taken entry) :
    VisitsExactly volume (fun _ => selectTurn taken) cluster clusters () := by
  refine ⟨clusters.length + 1, fun fuel enough position => ?_⟩
  apply walkTrace_whole _ chain _ enough
  · intro offset index entry before after position _ turned
    unfold selectTurn at turned
    split at turned
    · cases turned
    · cases turned
      rfl
  · intro offset _ index entry member state
    exact ⟨state, if_neg (absent entry member)⟩

/-- For every chain of data clusters with an end mark, the walks over the directory visit
its clusters, read their entries and stop exactly if the end mark is 0xFFFF. -/
theorem stops_at_mark_iff (volume : Volume) (directory : Fat16Entry) (clusters : List Nat)
    (mark : Nat) (ended : volume.EndedChain mark directory.startingCluster.toNat clusters) :
    StopsAtMark volume directory clusters ↔ mark = 0xFFFF := by
  constructor
  · intro stops
    obtain ⟨bound, visits⟩ := stops.list
    obtain ⟨lines, finish, traced⟩ := visits bound (Nat.le_refl bound) 0
    exact ended.known (congrArg Trace.clusters traced) (congrArg Trace.outcome traced)
  · intro known
    have chain := ended.chain known
    constructor
    · refine ⟨clusters.length + 1, fun fuel enough position => ?_⟩
      apply walkTrace_whole _ chain _ enough
      · intro offset index entry before after position _ turned
        rw [listTurn_eq] at turned
        cases turned
        rfl
      · intro offset _ index entry _ lines
        exact ⟨_, listTurn_eq index entry _ lines⟩
    · intro depth fuel position
      have stays (offset : Int) (index : Nat) (entry : Fat16Entry) (before after : List Line)
          (position : Nat) (nonneg : 0 ≤ offset) (turned : subdirectoryTurn
            (fun entry position => printTree volume fuel (some entry) depth position) directory
            depth offset index entry (offset.toNat + entrySize * (index + 1)) before =
              some (.next after position)) :
          position = offset.toNat + entrySize * (index + 1) :=
        (subdirectoryTurn_next nonneg turned).1
      have follows := walkTrace_follows stays chain (fuel + 1) volume.uninitialised position []
      refine ⟨follows.1, follows.2.1, fun enough returns => ?_⟩
      apply walkTrace_whole stays chain _ (Nat.lt_succ_of_le enough)
      intro offset nonneg index entry member lines
      apply subdirectoryTurn_total nonneg
      intro isShown isDirectory position
      obtain ⟨⟨inner, finish⟩, ran⟩ :=
        Option.isSome_iff_exists.mp (returns entry member isShown isDirectory position)
      exact ⟨inner, finish, ran⟩
    · intro name absent
      rw [directoryTurn_eq_selectTurn]
      exact visitsExactly_select chain absent
    · intro frame key absent
      exact visitsExactly_select chain absent

theorem flatVolume_ended : flatVolume.EndedChain 0xFFFF 2 [2] := by
  apply Volume.EndedChain.link (by decide) (by decide)
    ⟨by decide, by decide, by decide, by decide⟩
  rw [show flatVolume.nextCluster 2 = 0xFFFF by decide]
  exact .finish (by decide) (by decide)

/-- A directory at cluster 2. -/
def sampleDirectory : Fat16Entry :=
  { sampleFile with attributes := 0x10, fileSize := 0 }

/-- The walks over `/A` in `flatVolume` stop. -/
theorem stops_at_mark_flat : StopsAtMark flatVolume sampleDirectory [2] :=
  (stops_at_mark_iff flatVolume sampleDirectory [2] 0xFFFF flatVolume_ended).mpr rfl

theorem fileVolume_ended : (fileVolume [0xF8, 0xFF]).EndedChain 0xFFF8 2 [2] := by
  apply Volume.EndedChain.link (by decide) (by decide)
    ⟨by decide, by decide, by decide, by decide⟩
  rw [show (fileVolume [0xF8, 0xFF]).nextCluster 2 = 0xFFF8 by decide]
  exact .finish (by decide) (by decide)

/-- Behind the end mark 0xFFF8 the walks go on. -/
theorem other_end_mark_followed :
    ¬ ∀ (image : Image) (uninitialised : Bytes) (directory : Fat16Entry) (clusters : List Nat)
        (mark : Nat), (mount image uninitialised).EndedChain mark directory.startingCluster.toNat
          clusters → StopsAtMark (mount image uninitialised) directory clusters := by
  intro claimed
  have stops : StopsAtMark (fileVolume [0xF8, 0xFF]) sampleDirectory [2] :=
    claimed _ _ _ _ _ fileVolume_ended
  have known := (stops_at_mark_iff _ sampleDirectory [2] 0xFFF8 fileVolume_ended).mp stops
  exact absurd known (by decide)

end Ivos.Fat
