import Pdcc.Scheduler.Wria

/-!
# Conflict detection and rescue of the PDCC scheduler

After re-validation a transaction of a round is aborted exactly when it reads
key bytes that an earlier transaction of the round writes and that transaction
itself stands. The detection phase looks at all earlier writers, the rescue
phase removes those that were aborted.
-/

set_option autoImplicit false

namespace Pdcc.Scheduler.Wria

open Ledger Library Snapshot

variable {Tx Result : Type}

/-- One reads key bytes that the other writes. -/
def ReadsWriteOf (reader writer : TxExecInfo Tx Result) : Prop :=
  ∃ read ∈ reader.txRWSet.txReads, ∃ write ∈ writer.txRWSet.txWrites, write.key = read.key

section Detection

private theorem foldl_mergeWrite (tagged : List VersionedTxWrite) (masterWS : MasterWriteSet) (key : Bytes) :
    tagged.foldl mergeWrite masterWS key = masterWS key ++ tagged.filter fun vw => vw.write.key = key := by
  induction tagged generalizing masterWS with
  | nil => simp
  | cons vw rest ih =>
    rw [List.foldl_cons, ih, mergeWrite, Function.update_apply, List.filter_cons]
    by_cases same : key = vw.write.key
    · simp [same]
    · simp [same, Ne.symm same]

theorem writeSetMerging_apply (versioned : List (List VersionedTxWrite)) (key : Bytes) :
    writeSetMerging versioned key = versioned.flatten.filter fun vw => vw.write.key = key := by
  rw [writeSetMerging, foldl_mergeWrite, List.nil_append]

variable (execInfos : List (TxExecInfo Tx Result))

theorem mem_versionTagging (vw : VersionedTxWrite) : vw ∈ (versionTagging execInfos).flatten ↔
      ∃ writer, execInfos[vw.version]? = some writer ∧ vw.write ∈ writer.txRWSet.txWrites := by
  rw [List.mem_flatten]
  constructor
  · intro tagged
    obtain ⟨writes, member, present⟩ := tagged
    obtain ⟨txIndex, inside, same⟩ := List.mem_mapIdx.mp member
    subst same
    obtain ⟨write, writeMember, same⟩ := List.mem_map.mp present
    subst same
    exact ⟨_, List.getElem?_eq_getElem inside, writeMember⟩
  · intro written
    obtain ⟨writer, found, member⟩ := written
    obtain ⟨inside, same⟩ := List.getElem?_eq_some_iff.mp found
    refine ⟨_, List.mem_mapIdx.mpr ⟨vw.version, inside, rfl⟩, List.mem_map.mpr ⟨vw.write, ?_, rfl⟩⟩
    rw [same]
    exact member

theorem versionTagging_ascending : (versionTagging execInfos).flatten.Pairwise fun earlier later =>
      earlier.version ≤ later.version := by
  rw [List.pairwise_flatten]
  constructor
  · intro writes member
    obtain ⟨txIndex, inside, same⟩ := List.mem_mapIdx.mp member
    subst same
    rw [List.pairwise_map]
    exact List.pairwise_of_forall fun _ _ => Nat.le_refl _
  · rw [List.pairwise_iff_getElem]
    intro early late earlyInside lateInside below left leftMember right rightMember
    simp only [versionTagging, List.getElem_mapIdx, List.mem_map] at leftMember rightMember
    obtain ⟨_, _, rfl⟩ := leftMember
    obtain ⟨_, _, rfl⟩ := rightMember
    exact Nat.le_of_lt below

private theorem mem_takeWhile_version {tagged : List VersionedTxWrite}
    (ascending : tagged.Pairwise fun earlier later => earlier.version ≤ later.version)
    (txIndex : Nat) (vw : VersionedTxWrite) :
    vw ∈ tagged.takeWhile (·.version < txIndex) ↔ vw ∈ tagged ∧ vw.version < txIndex := by
  induction tagged with
  | nil => simp
  | cons head rest ih =>
    obtain ⟨headFirst, restAscending⟩ := List.pairwise_cons.mp ascending
    by_cases below : head.version < txIndex
    · rw [List.takeWhile_cons_of_pos (by simpa using below), List.mem_cons, List.mem_cons, ih restAscending]
      constructor
      · rintro (rfl | ⟨member, early⟩)
        · exact ⟨.inl rfl, below⟩
        · exact ⟨.inr member, early⟩
      · rintro ⟨rfl | member, early⟩
        · exact .inl rfl
        · exact .inr ⟨member, early⟩
    · rw [List.takeWhile_cons_of_neg (by simpa using below)]
      simp only [List.not_mem_nil, false_iff, List.mem_cons]
      rintro ⟨rfl | member, early⟩
      · exact below early
      · have least := headFirst vw member
        omega

private theorem mem_foldl_noteConflict (tagged : List VersionedTxWrite) (noted : List Nat) (txIdx : Nat) :
    txIdx ∈ tagged.foldl noteConflict noted ↔ txIdx ∈ noted ∨ ∃ vw ∈ tagged, vw.version = txIdx := by
  induction tagged generalizing noted with
  | nil => simp
  | cons vw rest ih =>
    have step : txIdx ∈ noteConflict noted vw ↔ txIdx ∈ noted ∨ vw.version = txIdx := by
      unfold noteConflict
      split
      · next present =>
        constructor
        · exact .inl
        · rintro (member | rfl)
          · exact member
          · exact present
      · rw [List.mem_append, List.mem_singleton, eq_comm (a := txIdx)]
    rw [List.foldl_cons, ih, step]
    simp only [List.mem_cons, exists_eq_or_imp, or_assoc]

private theorem mem_foldl_reads (masterWS : MasterWriteSet) (txIndex : Nat) (readSet : List TxRead) (noted : List Nat) (txIdx : Nat) :
    txIdx ∈ readSet.foldl (fun noted read =>
        ((masterWS read.key).takeWhile (·.version < txIndex)).foldl noteConflict noted) noted ↔
      txIdx ∈ noted ∨ ∃ read ∈ readSet, ∃ vw ∈ (masterWS read.key).takeWhile (·.version < txIndex), vw.version = txIdx := by
  induction readSet generalizing noted with
  | nil => simp
  | cons read rest ih =>
    rw [List.foldl_cons, ih, mem_foldl_noteConflict]
    simp only [List.mem_cons, exists_eq_or_imp, or_assoc]

theorem mem_conflictDeps (txIndex : Nat) (reader : TxExecInfo Tx Result) (txIdx : Nat) :
    txIdx ∈ (isRAWConflictWithDeps txIndex reader.txRWSet.txReads (writeSetMerging (versionTagging execInfos))).2 ↔
      txIdx < txIndex ∧ ∃ writer, execInfos[txIdx]? = some writer ∧ ReadsWriteOf reader writer := by
  have ascending : ∀ key, (writeSetMerging (versionTagging execInfos) key).Pairwise fun earlier later => earlier.version ≤ later.version := by
    intro key
    rw [writeSetMerging_apply]
    exact (versionTagging_ascending execInfos).sublist List.filter_sublist
  rw [isRAWConflictWithDeps, mem_foldl_reads]
  simp only [List.not_mem_nil, false_or, mem_takeWhile_version (ascending _)]
  simp only [writeSetMerging_apply, List.mem_filter, mem_versionTagging, decide_eq_true_eq]
  constructor
  · rintro ⟨read, readMember, vw, ⟨⟨⟨writer, found, written⟩, sameKey⟩, early⟩, rfl⟩
    exact ⟨early, writer, found, read, readMember, vw.write, written, sameKey⟩
  · rintro ⟨early, writer, found, read, readMember, write, written, sameKey⟩
    exact ⟨read, readMember, ⟨write, txIdx⟩, ⟨⟨⟨writer, found, written⟩, sameKey⟩, early⟩, rfl⟩

theorem isRAWConflictWithDeps_fst (txIndex : Nat) (readSet : List TxRead) (masterWS : MasterWriteSet) :
    (isRAWConflictWithDeps txIndex readSet masterWS).1 = true ↔ ∃ txIdx, txIdx ∈ (isRAWConflictWithDeps txIndex readSet masterWS).2 := by
  simp only [isRAWConflictWithDeps, decide_eq_true_eq]
  exact List.length_pos_iff_exists_mem

end Detection

section Rescue

variable (conflictDeps : List (List Nat))

private theorem aborts_set (flags : List Bool) (txIndex other : Nat) (value : Bool) : aborts (flags.set txIndex value) other =
      if txIndex = other ∧ txIndex < flags.length then value else aborts flags other := by
  simp only [aborts, List.getD_eq_getElem?_getD, List.getElem?_set]
  by_cases same : txIndex = other
  · subst same
    by_cases inside : txIndex < flags.length
    · simp [inside]
    · simp [inside]
  · simp [same]

private theorem lt_length_of_aborts {flags : List Bool} {txIndex : Nat} (flagged : aborts flags txIndex = true) : txIndex < flags.length := by
  by_contra outside
  rw [aborts, List.getD_eq_getElem?_getD, List.getElem?_eq_none (by omega)] at flagged
  cases flagged

private theorem recheckTransaction_eq_false {conflictingTxs : List Nat} {flags : List Bool} :
    recheckTransaction conflictingTxs flags = false ↔ ∃ txIdx ∈ conflictingTxs, aborts flags txIdx = false := by
  rw [recheckTransaction, List.all_eq_false]
  simp only [Bool.not_eq_true]

private theorem recheckStep_length (flags : List Bool) (txIndex : Nat) : (recheckStep conflictDeps flags txIndex).length = flags.length := by
  unfold recheckStep
  split
  · exact List.length_set
  · rfl

private theorem aborts_recheckStep (flags : List Bool) (txIndex other : Nat) :
    aborts (recheckStep conflictDeps flags txIndex) other = true ↔ aborts flags other = true ∧ (other = txIndex →
        ∃ txIdx ∈ depsOf conflictDeps txIndex, aborts flags txIdx = false) := by
  rw [← recheckTransaction_eq_false]
  unfold recheckStep
  split
  · next rescued =>
    obtain ⟨flagged, allAborted⟩ := Bool.and_eq_true_iff.mp rescued
    rw [aborts_set]
    by_cases same : txIndex = other
    · subst same
      simp [lt_length_of_aborts flagged, allAborted]
    · simp [same, Ne.symm same]
  · next kept =>
    constructor
    · intro flagged
      refine ⟨flagged, ?_⟩
      rintro rfl
      simpa [flagged] using kept
    · exact And.left

private theorem aborts_recheck_upTo (flags : List Bool) (earlier : ∀ txIndex, ∀ txIdx ∈ depsOf conflictDeps txIndex, txIdx < txIndex)
    (count other : Nat) :
    aborts ((List.range count).foldl (recheckStep conflictDeps) flags) other = true ↔
      aborts flags other = true ∧ (other < count → ∃ txIdx ∈ depsOf conflictDeps other,
        aborts ((List.range count).foldl (recheckStep conflictDeps) flags) txIdx = false) := by
  induction count generalizing other with
  | zero => simp
  | succ count ih =>
    rw [List.range_succ, List.foldl_append, List.foldl_cons, List.foldl_nil]
    generalize (List.range count).foldl (recheckStep conflictDeps) flags = before at ih ⊢
    have kept : ∀ txIdx, txIdx ≠ count → aborts (recheckStep conflictDeps before count) txIdx = aborts before txIdx := by
      intro txIdx different
      have same := aborts_recheckStep conflictDeps before count txIdx
      simp only [different, false_implies, and_true] at same
      exact Bool.eq_iff_iff.mpr same
    have deps : other ≤ count → ((∃ txIdx ∈ depsOf conflictDeps other, aborts before txIdx = false) ↔ ∃ txIdx ∈ depsOf conflictDeps other,
            aborts (recheckStep conflictDeps before count) txIdx = false) := by
      intro below
      refine exists_congr fun txIdx => and_congr_right fun member => ?_
      have smaller := earlier other txIdx member
      rw [kept txIdx (by omega)]
    rw [aborts_recheckStep, ih]
    by_cases same : other = count
    · subst same
      simp [deps]
    · have sameRange : other < count + 1 ↔ other < count := by omega
      simp only [same, false_implies, and_true, sameRange]
      exact and_congr_right fun _ => imp_congr_right fun below => deps (Nat.le_of_lt below)

private theorem rechecking_length (flags : List Bool) : (rechecking conflictDeps flags).length = flags.length := by
  unfold rechecking
  generalize List.range flags.length = order
  induction order generalizing flags with
  | nil => rfl
  | cons txIndex order ih => rw [List.foldl_cons, ih, recheckStep_length]

end Rescue

section Flags

variable (execInfos : List (TxExecInfo Tx Result))

theorem abortFlags_length : (abortFlags execInfos).length = execInfos.length := by
  simp only [abortFlags, rechecking_length, conflictDetection, List.length_map, List.length_mapIdx]

variable {reader : TxExecInfo Tx Result} {txIndex : Nat}

private theorem conflictDetection_getElem? (present : execInfos[txIndex]? = some reader) :
    (conflictDetection execInfos)[txIndex]? = some (isRAWConflictWithDeps txIndex reader.txRWSet.txReads
        (writeSetMerging (versionTagging execInfos))) := by
  rw [conflictDetection, List.getElem?_mapIdx, present]
  rfl

private theorem mem_depsOf (present : execInfos[txIndex]? = some reader) (txIdx : Nat) :
    txIdx ∈ depsOf ((conflictDetection execInfos).map (·.2)) txIndex ↔
      txIdx < txIndex ∧ ∃ writer, execInfos[txIdx]? = some writer ∧ ReadsWriteOf reader writer := by
  rw [← mem_conflictDeps, depsOf, List.getD_eq_getElem?_getD, List.getElem?_map, conflictDetection_getElem? execInfos present]
  rfl

private theorem depsOf_earlier (txIndex txIdx : Nat) (member : txIdx ∈ depsOf ((conflictDetection execInfos).map (·.2)) txIndex) :
    txIdx < txIndex := by
  cases present : execInfos[txIndex]? with
  | some reader => exact ((mem_depsOf execInfos present txIdx).mp member).1
  | none =>
    have absent : ((conflictDetection execInfos).map (·.2))[txIndex]? = none := by
      rw [List.getElem?_map, conflictDetection, List.getElem?_mapIdx, present]
      rfl
    rw [depsOf, List.getD_eq_getElem?_getD, absent] at member
    cases member

private theorem aborts_conflictDetection (present : execInfos[txIndex]? = some reader) :
    aborts ((conflictDetection execInfos).map (·.1)) txIndex = true ↔
      ∃ txIdx, txIdx ∈ depsOf ((conflictDetection execInfos).map (·.2)) txIndex := by
  rw [aborts, depsOf, List.getD_eq_getElem?_getD, List.getD_eq_getElem?_getD, List.getElem?_map,
    List.getElem?_map, conflictDetection_getElem? execInfos present]
  exact isRAWConflictWithDeps_fst _ _ _

theorem aborts_abortFlags_iff (present : execInfos[txIndex]? = some reader) : aborts (abortFlags execInfos) txIndex = true ↔
      ∃ txIdx < txIndex, aborts (abortFlags execInfos) txIdx = false ∧
        ∃ writer, execInfos[txIdx]? = some writer ∧ ReadsWriteOf reader writer := by
  obtain ⟨inside, _⟩ := List.getElem?_eq_some_iff.mp present
  have decided := aborts_recheck_upTo _ ((conflictDetection execInfos).map (·.1))
    (depsOf_earlier execInfos) ((conflictDetection execInfos).map (·.1)).length txIndex
  rw [← rechecking, ← abortFlags, aborts_conflictDetection execInfos present] at decided
  simp only [List.length_map, conflictDetection, List.length_mapIdx, inside, true_implies] at decided
  rw [← conflictDetection] at decided
  simp only [mem_depsOf execInfos present] at decided
  rw [decided]
  constructor
  · rintro ⟨_, txIdx, ⟨below, conflict⟩, stands⟩
    exact ⟨txIdx, below, stands, conflict⟩
  · rintro ⟨txIdx, below, stands, conflict⟩
    exact ⟨⟨txIdx, below, conflict⟩, txIdx, ⟨below, conflict⟩, stands⟩

theorem aborts_abortFlags_zero : aborts (abortFlags execInfos) 0 = false := by
  cases present : execInfos[0]? with
  | none =>
    have empty : abortFlags execInfos = [] := by
      rw [List.eq_nil_iff_length_eq_zero, abortFlags_length]
      exact Nat.le_zero.mp (List.getElem?_eq_none_iff.mp present)
    rw [empty]
    rfl
  | some first =>
    rw [← Bool.not_eq_true, aborts_abortFlags_iff execInfos present]
    rintro ⟨txIdx, below, _⟩
    exact Nat.not_lt_zero _ below

end Flags

section Decision

/-- A transaction is aborted exactly for reading key bytes of an earlier one that stands. -/
structure AbortDecision (execInfos : List (TxExecInfo Tx Result)) (flags : List Bool) : Prop where
  length : flags.length = execInfos.length
  aborted : ∀ txIndex reader, execInfos[txIndex]? = some reader →
    (aborts flags txIndex = true ↔ ∃ txIdx < txIndex, aborts flags txIdx = false ∧
      ∃ writer, execInfos[txIdx]? = some writer ∧ ReadsWriteOf reader writer)

variable {execInfos : List (TxExecInfo Tx Result)}

private theorem abortFlags_decides (execInfos : List (TxExecInfo Tx Result)) : AbortDecision execInfos (abortFlags execInfos) :=
  ⟨abortFlags_length execInfos, fun _ _ present => aborts_abortFlags_iff execInfos present⟩

private theorem AbortDecision.agree {flags flags' : List Bool}
    (decision : AbortDecision execInfos flags) (decision' : AbortDecision execInfos flags')
    (txIndex : Nat) : aborts flags txIndex = aborts flags' txIndex := by
  induction txIndex using Nat.strong_induction_on with
  | h txIndex ih =>
    cases present : execInfos[txIndex]? with
    | none =>
      have outside := List.getElem?_eq_none_iff.mp present
      rw [aborts, aborts, List.getD_eq_getElem?_getD, List.getD_eq_getElem?_getD, List.getElem?_eq_none (by rwa [decision.length]),
        List.getElem?_eq_none (by rwa [decision'.length])]
    | some reader =>
      rw [Bool.eq_iff_iff, decision.aborted txIndex reader present, decision'.aborted txIndex reader present]
      refine exists_congr fun txIdx => and_congr_right fun below => ?_
      rw [ih txIdx below]

private theorem AbortDecision.unique {flags flags' : List Bool}
    (decision : AbortDecision execInfos flags) (decision' : AbortDecision execInfos flags') :
    flags = flags' := by
  have sameLength : flags.length = flags'.length := decision.length.trans decision'.length.symm
  refine List.ext_getElem sameLength ?_
  intro txIndex inside inside'
  have same := decision.agree decision' txIndex
  rwa [aborts, aborts, List.getD_eq_getElem?_getD, List.getD_eq_getElem?_getD,
    List.getElem?_eq_getElem inside, List.getElem?_eq_getElem inside'] at same

private theorem rescued_iff (txIndex : Nat) : (aborts ((conflictDetection execInfos).map (·.1)) txIndex = true ∧
        aborts (abortFlags execInfos) txIndex = false) ↔
      depsOf ((conflictDetection execInfos).map (·.2)) txIndex ≠ [] ∧ ∀ txIdx ∈ depsOf ((conflictDetection execInfos).map (·.2)) txIndex,
          aborts (abortFlags execInfos) txIdx = true := by
  cases present : execInfos[txIndex]? with
  | none =>
    have outside : (conflictDetection execInfos)[txIndex]? = none := by
      rw [conflictDetection, List.getElem?_mapIdx, present]
      rfl
    simp [aborts, depsOf, List.getD_eq_getElem?_getD, outside]
  | some reader =>
    rw [aborts_conflictDetection execInfos present, ← Bool.not_eq_true, aborts_abortFlags_iff execInfos present, ← List.length_pos_iff,
      List.length_pos_iff_exists_mem]
    refine and_congr_right fun _ => ?_
    constructor
    · intro stands txIdx recorded
      obtain ⟨below, conflict⟩ := (mem_depsOf execInfos present txIdx).mp recorded
      by_contra standing
      exact stands ⟨txIdx, below, Bool.not_eq_true _ ▸ standing, conflict⟩
    · intro allAborted aborted
      obtain ⟨txIdx, below, standing, conflict⟩ := aborted
      have flagged := allAborted txIdx ((mem_depsOf execInfos present txIdx).mpr ⟨below, conflict⟩)
      rw [standing] at flagged
      cases flagged

/-- The flags after the rescue are the one decision there is, and a transaction
flagged by the detection is rescued exactly when all predecessors recorded
against it stay aborted. -/
theorem abortFlags_decision (execInfos : List (TxExecInfo Tx Result)) :
    (∀ flags, AbortDecision execInfos flags ↔ flags = abortFlags execInfos) ∧
      ∀ txIndex, (aborts ((conflictDetection execInfos).map (·.1)) txIndex = true ∧
          aborts (abortFlags execInfos) txIndex = false) ↔
        depsOf ((conflictDetection execInfos).map (·.2)) txIndex ≠ [] ∧
          ∀ txIdx ∈ depsOf ((conflictDetection execInfos).map (·.2)) txIndex,
            aborts (abortFlags execInfos) txIdx = true := by
  refine ⟨?_, rescued_iff⟩
  intro flags
  constructor
  · intro decision
    exact decision.unique (abortFlags_decides execInfos)
  · intro same
    rw [same]
    exact abortFlags_decides execInfos

end Decision

section Committed

variable (execInfos : List (TxExecInfo Tx Result))

private theorem zip_abortFlags_fst : (execInfos.zip (abortFlags execInfos)).map Prod.fst = execInfos :=
  List.map_fst_zip (Nat.le_of_eq (abortFlags_length execInfos).symm)

theorem committed_sublist : (committed execInfos).Sublist execInfos := by
  have kept : (committed execInfos).Sublist ((execInfos.zip (abortFlags execInfos)).map Prod.fst) :=
    List.filter_sublist.map Prod.fst
  rwa [zip_abortFlags_fst] at kept

theorem committed_pairwise : (committed execInfos).Pairwise fun earlier later => ¬ ReadsWriteOf later earlier := by
  rw [committed, List.pairwise_map, List.pairwise_filter, List.pairwise_iff_getElem]
  intro early late earlyInside lateInside below earlyStands lateStands conflict
  have flagAt : ∀ index (inside : index < (execInfos.zip (abortFlags execInfos)).length),
      aborts (abortFlags execInfos) index = (execInfos.zip (abortFlags execInfos))[index].2 := by
    intro index inside
    rw [List.length_zip, abortFlags_length, Nat.min_self] at inside
    rw [List.getElem_zip, aborts, List.getD_eq_getElem?_getD, List.getElem?_eq_getElem (by rwa [abortFlags_length])]
    rfl
  have present : ∀ index (inside : index < (execInfos.zip (abortFlags execInfos)).length),
      execInfos[index]? = some (execInfos.zip (abortFlags execInfos))[index].1 := by
    intro index inside
    rw [List.length_zip, abortFlags_length, Nat.min_self] at inside
    rw [List.getElem_zip, List.getElem?_eq_getElem inside]
  have aborted : aborts (abortFlags execInfos) late = true := by
    rw [aborts_abortFlags_iff execInfos (present late lateInside)]
    refine ⟨early, below, ?_, _, present early earlyInside, conflict⟩
    rw [flagAt early earlyInside]
    rwa [Bool.not_eq_true'] at earlyStands
  rw [flagAt late lateInside] at aborted
  rw [aborted] at lateStands
  cases lateStands

theorem committed_aborted_perm : ((committed execInfos).map (·.tx) ++ abortedTxs execInfos).Perm (execInfos.map (·.tx)) := by
  have split := split_perm Prod.snd (execInfos.zip (abortFlags execInfos))
  rwa [zip_abortFlags_fst] at split

private theorem abortFlags_cons (first : TxExecInfo Tx Result) (rest : List (TxExecInfo Tx Result)) :
    ∃ flags, abortFlags (first :: rest) = false :: flags ∧ flags.length = rest.length := by
  have stands := aborts_abortFlags_zero (first :: rest)
  have length := abortFlags_length (first :: rest)
  cases shape : abortFlags (first :: rest) with
  | nil => simp [shape] at length
  | cons flag flags =>
    rw [shape] at stands length
    have standing : flag = false := stands
    exact ⟨flags, by rw [standing], Nat.succ.inj length⟩

theorem committed_cons (first : TxExecInfo Tx Result) (rest : List (TxExecInfo Tx Result)) :
    ∃ others, committed (first :: rest) = first :: others := by
  obtain ⟨flags, shape, _⟩ := abortFlags_cons first rest
  unfold committed
  rw [shape]
  exact ⟨_, rfl⟩

theorem abortedTxs_sublist_tail : (abortedTxs execInfos).Sublist (execInfos.map (·.tx)).tail := by
  cases execInfos with
  | nil => exact List.Sublist.slnil
  | cons first rest =>
    obtain ⟨flags, shape, length⟩ := abortFlags_cons first rest
    have kept : (((rest.zip flags).filter fun entry => entry.2).map (·.1.tx)).Sublist (((rest.zip flags).map Prod.fst).map (·.tx)) := by
      rw [List.map_map]
      exact List.filter_sublist.map _
    rw [List.map_fst_zip (Nat.le_of_eq length.symm)] at kept
    rw [abortedTxs, shape, List.zip_cons_cons, List.filter_cons_of_neg Bool.false_ne_true]
    exact kept

/-- A first transaction nobody reads from leaves the decisions about the rest alone. -/
private theorem abortFlags_cons_of_unread {first : TxExecInfo Tx Result} {rest : List (TxExecInfo Tx Result)}
    (unread : ∀ reader ∈ rest, ¬ ReadsWriteOf reader first) : abortFlags (first :: rest) = false :: abortFlags rest := by
  refine (abortFlags_decides _).unique ⟨by rw [List.length_cons, List.length_cons, abortFlags_length], ?_⟩
  intro txIndex reader present
  cases txIndex with
  | zero =>
    refine ⟨fun aborted => absurd aborted Bool.false_ne_true, ?_⟩
    rintro ⟨txIdx, below, _⟩
    exact absurd below (Nat.not_lt_zero txIdx)
  | succ txIndex =>
    refine (aborts_abortFlags_iff rest present).trans ⟨?_, ?_⟩
    · rintro ⟨txIdx, below, stands, conflict⟩
      exact ⟨txIdx + 1, Nat.succ_lt_succ below, stands, conflict⟩
    · rintro ⟨txIdx, below, stands, writer, writerAt, conflict⟩
      cases txIdx with
      | zero =>
        cases writerAt
        exact absurd conflict (unread reader (List.mem_of_getElem? (i := txIndex) present))
      | succ txIdx => exact ⟨txIdx, Nat.lt_of_succ_lt_succ below, stands, writer, writerAt, conflict⟩

private theorem committed_cons_of_unread {first : TxExecInfo Tx Result} {rest : List (TxExecInfo Tx Result)}
    (unread : ∀ reader ∈ rest, ¬ ReadsWriteOf reader first) :
    committed (first :: rest) = first :: committed rest ∧ abortedTxs (first :: rest) = abortedTxs rest := by
  unfold committed abortedTxs
  rw [abortFlags_cons_of_unread unread]
  exact ⟨rfl, rfl⟩

theorem committed_of_unconflicted (unconflicted : execInfos.Pairwise fun earlier later => ¬ ReadsWriteOf later earlier) :
    committed execInfos = execInfos ∧ abortedTxs execInfos = [] := by
  induction execInfos with
  | nil => exact ⟨rfl, rfl⟩
  | cons first rest ih =>
    obtain ⟨unread, unconflicted⟩ := List.pairwise_cons.mp unconflicted
    obtain ⟨kept, dropped⟩ := committed_cons_of_unread unread
    rw [kept, dropped, (ih unconflicted).1, (ih unconflicted).2]
    exact ⟨rfl, rfl⟩

/-- A front that puts nothing back and is not read by the rest leaves the
decisions about the rest alone. -/
theorem committed_append {front rest : List (TxExecInfo Tx Result)}
    (unconflicted : front.Pairwise fun earlier later => ¬ ReadsWriteOf later earlier)
    (unread : ∀ writer ∈ front, ∀ reader ∈ rest, ¬ ReadsWriteOf reader writer) :
    committed (front ++ rest) = front ++ committed rest := by
  induction front with
  | nil => rfl
  | cons first front ih =>
    obtain ⟨firstUnread, unconflicted⟩ := List.pairwise_cons.mp unconflicted
    obtain ⟨unreadByRest, unread⟩ := List.forall_mem_cons.mp unread
    have free : ∀ reader ∈ front ++ rest, ¬ ReadsWriteOf reader first := List.forall_mem_append.mpr ⟨firstUnread, unreadByRest⟩
    rw [List.cons_append, (committed_cons_of_unread free).1, ih unconflicted unread, List.cons_append]

end Committed

end Pdcc.Scheduler.Wria
