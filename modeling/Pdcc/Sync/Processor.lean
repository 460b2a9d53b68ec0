import Pdcc.Sync.HeightRecords

/-!
# The block sync processor

The processor queues the blocks that the scheduler hands over and passes the next block of
the chain to the verifier and to the committer. Blocks are reached through their headers,
so that each queued block has one, and it is queued under the height of that header.
-/

set_option autoImplicit false

namespace Pdcc.Sync

open Ledger Library

variable {Body RwSet : Type}

structure BlockWithPeerInfo (Body RwSet : Type) where
  id : Bytes
  blk : Block Body
  withRWSets : Bool
  rwsets : List RwSet
  header : BlockHeader
  headed : blk.header = some header

namespace BlockWithPeerInfo

def height (info : BlockWithPeerInfo Body RwSet) : UInt64 := info.header.blockHeight

def ofBlock (id : Bytes) (withRWSets : Bool) (rwsets : List RwSet) (blk : Block Body) :
    Except Panic (BlockWithPeerInfo Body RwSet) :=
  match headed : blk.header with
  | none => .error .nilDereference
  | some header => .ok ⟨id, blk, withRWSets, rwsets, header, headed⟩

theorem toOption_ofBlock (id : Bytes) (withRWSets : Bool) (rwsets : List RwSet) (blk : Block Body) :
    (ofBlock id withRWSets rwsets blk).toOption.map header = blk.header := by
  unfold ofBlock
  split
  · next absent => exact absent.symm
  · next header present => exact present.symm

end BlockWithPeerInfo

namespace ReceivedBlockInfos

variable (msg : ReceivedBlockInfos Body RwSet)

def entries : List (Except Panic (BlockWithPeerInfo Body RwSet)) :=
  match msg.batch.data with
  | none => []
  | some (.blockBatch batches) =>
    batches.map (BlockWithPeerInfo.ofBlock msg.sender msg.batch.withRwset [])
  | some (.blockinfoBatch batch) =>
    batch.map fun blkinfo =>
      match blkinfo.block with
      | none => .error .nilDereference
      | some blk =>
        BlockWithPeerInfo.ofBlock msg.sender msg.batch.withRwset blkinfo.rwsetList blk

def heights : List UInt64 := Scheduler.batchHeights msg.batch.headers

theorem entries_headers : msg.entries.map (fun entry => entry.toOption.map (·.header)) = msg.batch.headers := by
  obtain ⟨⟨data, withRwset⟩, sender⟩ := msg
  cases data with
  | none => rfl
  | some data =>
    cases data with
    | blockBatch batches =>
      simp only [entries, List.map_map]
      exact List.map_congr_left fun blk _ =>
        BlockWithPeerInfo.toOption_ofBlock sender withRwset [] blk
    | blockinfoBatch batch =>
      simp only [entries, List.map_map]
      refine List.map_congr_left fun blkinfo _ => ?_
      obtain ⟨block, rwsetList⟩ := blkinfo
      cases block with
      | none => rfl
      | some blk => exact BlockWithPeerInfo.toOption_ofBlock sender withRwset rwsetList blk

theorem mem_heights {height : UInt64} : height ∈ msg.heights ↔ ∃ info, .ok info ∈ msg.entries ∧ info.height = height := by
  rw [heights, Scheduler.batchHeights, ← entries_headers, List.filterMap_map, List.mem_filterMap]
  constructor
  · rintro ⟨entry, member, same⟩
    cases entry with
    | error cause => cases same
    | ok info => exact ⟨info, member, Option.some.inj same⟩
  · rintro ⟨info, member, rfl⟩
    exact ⟨.ok info, member, rfl⟩

end ReceivedBlockInfos

inductive Verdict where
  | accepted
  | hadBeenCommitted
  | rejected
  deriving DecidableEq, Repr

structure Chain (Body RwSet : Type) where
  verifyBlock : Block Body → Verdict
  verifyBlockWithRwSets : Block Body → List RwSet → Verdict
  addBlock : Block Body → Verdict

def commitVerified (committed height : UInt64) (verified added : Verdict) : ProcessedBlockStatus :=
  if committed ≥ height then .hasProcessed
  else
    match verified with
    | .hadBeenCommitted => .hasProcessed
    | .rejected => .validateFailed
    | .accepted =>
      match added with
      | .hadBeenCommitted => .hasProcessed
      | .rejected => .addErr
      | .accepted => .ok

theorem commitVerified_ne_dbErr (committed height : UInt64) (verified added : Verdict) :
    commitVerified committed height verified added ≠ .dbErr := by
  unfold commitVerified
  split
  · exact nofun
  · cases verified <;> cases added <;> exact nofun

theorem lt_of_commitVerified {committed height : UInt64} {verified added : Verdict}
    (stored : commitVerified committed height verified added = .ok) : committed < height := by
  unfold commitVerified at stored
  split at stored
  · cases stored
  · next above => exact UInt64.not_le.mp above

namespace Chain

variable (chain : Chain Body RwSet) (committed : UInt64) (info : BlockWithPeerInfo Body RwSet)

def validateAndCommitBlock : ProcessedBlockStatus :=
  commitVerified committed info.height (chain.verifyBlock info.blk) (chain.addBlock info.blk)

def validateAndCommitBlockWithRwSets : ProcessedBlockStatus :=
  commitVerified committed info.height (chain.verifyBlockWithRwSets info.blk info.rwsets)
    (chain.addBlock info.blk)

end Chain

inductive ProcessorMsg (Body RwSet : Type) where
  | receivedBlockInfos (msg : ReceivedBlockInfos Body RwSet)
  | processBlock
  | dataDetection
  | stopSync

structure Processor (Body RwSet : Type) where
  queue : Table UInt64 (BlockWithPeerInfo Body RwSet)
  hasCommitBlock : UInt64
  maxHeightInQueue : UInt64
  keyed : ∀ height info, queue.lookup height = some info → info.height = height

def newProcessor : Processor Body RwSet where
  queue := ∅
  hasCommitBlock := 0
  maxHeightInQueue := 0
  keyed := nofun

namespace Processor

variable (pro : Processor Body RwSet)

def Queued (height : UInt64) : Prop := (pro.queue.lookup height).isSome = true

instance (height : UInt64) : Decidable (pro.Queued height) :=
  inferInstanceAs (Decidable (_ = true))

theorem keyed_insert (info : BlockWithPeerInfo Body RwSet) (height : UInt64) (other : BlockWithPeerInfo Body RwSet)
    (found : (pro.queue.insert info.height info).lookup height = some other) :
    other.height = height := by
  rw [Table.lookup_insert_eq] at found
  split at found
  · next same =>
    cases found
    exact same.symm
  · exact pro.keyed height other found

theorem keyed_eraseAll (heights : List UInt64) (height : UInt64) (info : BlockWithPeerInfo Body RwSet)
    (found : (Table.eraseAll pro.queue heights).lookup height = some info) :
    info.height = height := by
  rw [Table.lookup_eraseAll] at found
  split at found
  · cases found
  · exact pro.keyed height info found

variable (lastCommit : UInt64)

def enqueue (info : BlockWithPeerInfo Body RwSet) : Processor Body RwSet :=
  if info.height ≤ lastCommit then pro
  else
    match pro.queue.lookup info.height with
    | some _ => pro
    | none =>
      { pro with
        queue := pro.queue.insert info.height info
        maxHeightInQueue :=
          if info.height > pro.maxHeightInQueue then info.height else pro.maxHeightInQueue
        keyed := pro.keyed_insert info }

def handleReceivedBlockInfos (msg : ReceivedBlockInfos Body RwSet) : Except Panic (Processor Body RwSet) :=
  msg.entries.foldlM (fun pro entry => do return pro.enqueue lastCommit (← entry)) pro

def eraseHeights (heights : List UInt64) : Processor Body RwSet :=
  { pro with
    queue := Table.eraseAll pro.queue heights
    keyed := pro.keyed_eraseAll heights }

def handleProcessBlockMsg (fastSync : Bool) (chain : Chain Body RwSet) (lastCommit : UInt64) :
    Option ProcessedBlockResp × Processor Body RwSet :=
  match pro.queue.lookup (lastCommit + 1) with
  | none => (none, pro)
  | some info =>
    let status :=
      if info.withRWSets && fastSync then chain.validateAndCommitBlockWithRwSets lastCommit info
      else chain.validateAndCommitBlock lastCommit info
    let hasCommitBlock :=
      if status = .ok ∨ status = .hasProcessed then pro.hasCommitBlock + 1
      else pro.hasCommitBlock
    (some ⟨info.height, status, info.id⟩,
      { pro.eraseHeights [lastCommit + 1] with hasCommitBlock })

def handleDataDetection : Processor Body RwSet :=
  pro.eraseHeights (pro.queue.keys.filter (· < lastCommit + 1))

def handleStopSyncMsg : Processor Body RwSet := { pro with queue := ∅, keyed := nofun }

def handler (fastSync : Bool) (chain : Chain Body RwSet) (lastCommit : UInt64)
    (msg : ProcessorMsg Body RwSet) :
    Except Panic (Option ProcessedBlockResp × Processor Body RwSet) :=
  match msg with
  | .receivedBlockInfos msg => do return (none, ← pro.handleReceivedBlockInfos lastCommit msg)
  | .processBlock => .ok (pro.handleProcessBlockMsg fastSync chain lastCommit)
  | .dataDetection => .ok (none, pro.handleDataDetection lastCommit)
  | .stopSync => .ok (none, pro.handleStopSyncMsg)

theorem queued_enqueue (info : BlockWithPeerInfo Body RwSet) (height : UInt64) :
    (pro.enqueue lastCommit info).Queued height ↔ pro.Queued height ∨ (info.height = height ∧ lastCommit < height) := by
  rw [enqueue]
  split
  · next passed =>
    refine ⟨.inl, fun either => either.resolve_right ?_⟩
    rintro ⟨rfl, above⟩
    exact absurd above (UInt64.not_lt.mpr passed)
  · next above =>
    split
    · next other found =>
      refine ⟨.inl, fun either => either.elim id ?_⟩
      rintro ⟨rfl, _⟩
      exact Option.isSome_iff_exists.mpr ⟨other, found⟩
    · simp only [Queued, Table.lookup_insert_eq]
      by_cases same : height = info.height
      · subst same
        simp [UInt64.not_le.mp above]
      · simp [same, Ne.symm same]

theorem queued_eraseHeights (heights : List UInt64) (height : UInt64) :
    (pro.eraseHeights heights).Queued height ↔ height ∉ heights ∧ pro.Queued height := by
  simp only [Queued, eraseHeights, Table.lookup_eraseAll]
  by_cases erased : height ∈ heights <;> simp [erased]

theorem queued_handleDataDetection (lastCommit height : UInt64) :
    (pro.handleDataDetection lastCommit).Queued height ↔ ¬ height < lastCommit + 1 ∧ pro.Queued height := by
  rw [handleDataDetection, queued_eraseHeights, List.mem_filter, Table.mem_keys_iff,
    decide_eq_true_eq]
  refine and_congr_left fun queued => ?_
  rw [Queued] at queued
  simp [queued]

theorem not_queued_handleStopSyncMsg (height : UInt64) : ¬ pro.handleStopSyncMsg.Queued height :=
  nofun

variable {msg : ReceivedBlockInfos Body RwSet} {after : Processor Body RwSet}

theorem handleReceivedBlockInfos_eq_ok {lastCommit : UInt64} : pro.handleReceivedBlockInfos lastCommit msg = .ok after ↔
      (∀ entry ∈ msg.entries, ∃ info, entry = .ok info) ∧ msg.entries.foldl (fun pro entry =>
          (entry.toOption.map (pro.enqueue lastCommit)).getD pro) pro = after := by
  refine foldlM_eq_ok fun before entry after => ?_
  cases entry with
  | error cause =>
    refine ⟨nofun, fun both => ?_⟩
    obtain ⟨info, same⟩ := both.1
    cases same
  | ok info =>
    constructor
    · intro same
      cases same
      exact ⟨⟨info, rfl⟩, rfl⟩
    · rintro ⟨_, rfl⟩
      rfl

theorem queued_foldl (lastCommit height : UInt64) (entries : List (Except Panic (BlockWithPeerInfo Body RwSet))) :
    (entries.foldl (fun pro entry =>
        (entry.toOption.map (enqueue pro lastCommit)).getD pro) pro).Queued height ↔
      pro.Queued height ∨ ((∃ info, .ok info ∈ entries ∧ info.height = height) ∧ lastCommit < height) := by
  induction entries generalizing pro with
  | nil => simp
  | cons entry entries ih =>
    rw [List.foldl_cons, ih]
    cases entry with
    | error cause => simp [Except.toOption]
    | ok info =>
      simp only [Except.toOption, Option.map_some, Option.getD_some, queued_enqueue, List.mem_cons, Except.ok.injEq, or_assoc, or_and_right]
      grind

variable {pro} in
theorem queued_handleReceivedBlockInfos {lastCommit : UInt64}
    (handled : pro.handleReceivedBlockInfos lastCommit msg = .ok after) (height : UInt64) :
    after.Queued height ↔ pro.Queued height ∨ (height ∈ msg.heights ∧ lastCommit < height) := by
  obtain ⟨_, rfl⟩ := pro.handleReceivedBlockInfos_eq_ok.mp handled
  rw [queued_foldl, msg.mem_heights]

theorem handleReceivedBlockInfos_returns_iff (msg : ReceivedBlockInfos Body RwSet) :
    (∃ after, pro.handleReceivedBlockInfos lastCommit msg = .ok after) ↔ ∀ header ∈ msg.batch.headers, header.isSome = true := by
  rw [← msg.entries_headers]
  simp only [handleReceivedBlockInfos_eq_ok, exists_and_left, exists_eq', and_true, List.forall_mem_map]
  refine forall₂_congr fun entry _ => ?_
  cases entry with
  | error cause => simp [Except.toOption]
  | ok info => simp [Except.toOption]

theorem handleProcessBlockMsg_cases (fastSync : Bool) (chain : Chain Body RwSet) (lastCommit : UInt64) :
    (¬ pro.Queued (lastCommit + 1) ∧ pro.handleProcessBlockMsg fastSync chain lastCommit = (none, pro)) ∨
      (pro.Queued (lastCommit + 1) ∧ ∃ resp after, pro.handleProcessBlockMsg fastSync chain lastCommit = (some resp, after) ∧
        resp.height = lastCommit + 1 ∧ resp.status ≠ .dbErr ∧
        (resp.status = .ok → lastCommit < resp.height) ∧
        ∀ height, after.Queued height ↔ height ≠ lastCommit + 1 ∧ pro.Queued height) := by
  rw [handleProcessBlockMsg, Queued]
  cases found : pro.queue.lookup (lastCommit + 1) with
  | none => exact .inl ⟨nofun, rfl⟩
  | some info =>
    refine .inr ⟨rfl, _, _, rfl, pro.keyed _ _ found, ?_, ?_, fun height => ?_⟩
    · dsimp only
      split <;> exact commitVerified_ne_dbErr _ _ _ _
    · dsimp only
      split <;> exact lt_of_commitVerified
    · exact (pro.queued_eraseHeights [lastCommit + 1] height).trans (by rw [List.mem_singleton])

end Processor

end Pdcc.Sync
