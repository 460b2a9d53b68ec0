import Pdcc.Core.TxValidation
import Pdcc.Library.Interleaving
import Pdcc.Library.Logs

/-!
# Verifying the transactions of a block in parallel

`verifierTxs` hands chunks of the block to goroutines that share an error, a list of
failed transactions and a map of results. A failure shows as an error, as an entry of
the list, as a missing result or as a result with too few hashes.
-/

set_option autoImplicit false

namespace Pdcc.Core

open Ledger Library

section Model

variable {Result Signers Data Event ε : Type}

inductive VerifyTxError (ε : Type) where
  | validateTx (cause : TxError ε)
  | nilRWSet (txId : Bytes)
  | calcRWSetHash (txId : Bytes) (cause : ε)
  | calcTxHash (txId : Bytes) (cause : ε)
  | rwSetVerifyFailTxs
  deriving DecidableEq, Repr

structure TxVerifier (Result Signers Data Event ε : Type) extends
    TxValidator Result Signers Data Event ε where
  ifOpenConsensusMessageTurbo : Bool
  getTxsByTxIds : List Bytes → Bytes → Option (Transaction Result Signers)
  txRWSetMap : Bytes → Option TxRWSet
  txResultMap : Bytes → Option Result
  calcRWSetHash : TxRWSet → Except (Failure ε) Bytes
  rwSetHash : Result → Bytes
  setRwSetHash : Bytes → Result → Result
  calcResultBytes : Result → Except (Failure ε) Bytes
  calcTxHashWithVersion : Transaction Result Signers → Except (Failure ε) Bytes

def Failure.under {ε' : Type} (name : ε → ε') : Failure ε → Failure ε'
  | .panic cause => .panic cause
  | .error cause => .error (name cause)

namespace TxVerifier

variable (v : TxVerifier Result Signers Data Event ε)

def hashRWSet (tx : Transaction Result Signers) :
    Except (Failure (VerifyTxError ε)) Bytes :=
  match v.txRWSetMap tx.txId with
  | none => .error (.error (.nilRWSet tx.txId))
  | some rwSet => (v.calcRWSetHash rwSet).mapError (Failure.under (.calcRWSetHash tx.txId))

def isTxRWSetValid (tx : Transaction Result Signers) (rwSetHash : Bytes) :
    Except (Failure (VerifyTxError ε)) Bool :=
  match v.txResultMap tx.txId with
  | none => .ok false
  | some _ =>
    match tx.result with
    | none => .error (.panic .nilDereference)
    | some result => .ok (v.rwSetHash result = rwSetHash)

def resultBytes (result : Option Result) :
    Except (Failure (VerifyTxError ε)) (Option Bytes) :=
  match result with
  | none => .ok none
  | some result =>
    match v.calcResultBytes result with
    | .error (.panic cause) => .error (.panic cause)
    | .error (.error _) => .ok none
    | .ok bytes => .ok (some bytes)

def verifyTxResult (tx : Transaction Result Signers) (rwSetHash : Bytes) :
    Except (Failure (VerifyTxError ε)) Bool := do
  let txResultBytes ← v.resultBytes tx.result
  match txResultBytes with
  | none => .ok false
  | some expected => do
    let resultBytes ← v.resultBytes ((v.txResultMap tx.txId).map (v.setRwSetHash rwSetHash))
    .ok (resultBytes = some expected)

def calcTxHash (tx : Transaction Result Signers) : Except (Failure (VerifyTxError ε)) Bytes :=
  (v.calcTxHashWithVersion tx).mapError (Failure.under (.calcTxHash tx.txId))

/-- The checks of a transaction after its validation: its hash, or nothing if the
read/write set or the result does not match. A batch pool takes over the own result. -/
def checkTx (tx : Transaction Result Signers) :
    Except (Failure (VerifyTxError ε)) (Option Bytes) := do
  let rwSetHash ← v.hashRWSet tx
  if v.txPoolType = .batch then
    match v.txResultMap tx.txId with
    | none => .error (.panic .nilDereference)
    | some result => do
      let hash ← v.calcTxHash { tx with result := some (v.setRwSetHash rwSetHash result) }
      .ok (some hash)
  else do
    let rwSetValid ← v.isTxRWSetValid tx rwSetHash
    if rwSetValid = false then .ok none
    else do
      let resultValid ← v.verifyTxResult tx rwSetHash
      if resultValid = false then .ok none
      else do
        let hash ← v.calcTxHash tx
        .ok (some hash)

variable (txsRet)

def validate (header : Header) (tx : Transaction Result Signers) : Except (Failure (VerifyTxError ε)) Unit :=
  if v.ifOpenConsensusMessageTurbo then .ok ()
  else (v.validateTx txsRet header tx).mapError fun cause => .error (.validateTx cause)

def verifyNext (header : Header)
    (acc : List Bytes × List Bytes) (tx : Transaction Result Signers) :
    Except (Failure (VerifyTxError ε)) (List Bytes × List Bytes) := do
  v.validate txsRet header tx
  let checked ← v.checkTx tx
  match checked with
  | some hash => .ok (acc.1 ++ [hash], acc.2)
  | none => .ok (acc.1, if isGasTx tx then acc.2 else acc.2 ++ [tx.txId])

def verifyChunk (header : Header)
    (txs : List (Transaction Result Signers)) :
    Except (Failure (VerifyTxError ε)) (List Bytes × List Bytes) :=
  txs.foldlM (v.verifyNext txsRet header) ([], [])

end TxVerifier

structure VerifyBlockBatch (Result Signers : Type) where
  txs : List (Transaction Result Signers)
  newAddTxs : List (Transaction Result Signers)
  txHash : List Bytes

inductive VerifyAction (Result Signers ε : Type) where
  | panic (cause : Panic)
  | setErr (cause : VerifyTxError ε)
  | appendFailed (txIds : List Bytes)
  | putResult (index : Nat) (result : VerifyBlockBatch Result Signers)

structure VerifyShared (Result Signers ε : Type) where
  panicked : Option Panic
  err : Option (VerifyTxError ε)
  rwSetVerifyFailTxIds : List Bytes
  resultTasks : Nat → Option (VerifyBlockBatch Result Signers)

def VerifyShared.start : VerifyShared Result Signers ε := ⟨none, none, [], fun _ => none⟩

def VerifyShared.act (s : VerifyShared Result Signers ε) :
    VerifyAction Result Signers ε → VerifyShared Result Signers ε
  | .panic cause => { s with panicked := some cause }
  | .setErr cause => { s with err := some cause }
  | .appendFailed txIds => { s with rwSetVerifyFailTxIds := s.rwSetVerifyFailTxIds ++ txIds }
  | .putResult index result =>
    { s with resultTasks := Function.update s.resultTasks index (some result) }

inductive VerifierTxsError (ε : Type) where
  | verifyTx (cause : VerifyTxError ε)
  | batchNum (received expected : Nat)
  | txsInBatch (received expected : Nat)
  deriving DecidableEq, Repr

def mergeBatch (batch : VerifyBlockBatch Result Signers) :
    Except (VerifierTxsError ε) (VerifyBlockBatch Result Signers) :=
  if batch.txs.length ≠ batch.txHash.length then
    .error (.txsInBatch batch.txHash.length batch.txs.length)
  else .ok batch

def txVerifyResultsMerge (resultTasks : Nat → Option (VerifyBlockBatch Result Signers))
    (count : Nat) : Except (VerifierTxsError ε) (List Bytes × List (Transaction Result Signers)) :=
  let received := ((List.range count).filter fun i => (resultTasks i).isSome).length
  if received < count then .error (.batchNum received count)
  else do
    let batches ← (List.range received).mapM fun i =>
      mergeBatch ((resultTasks i).getD ⟨[], [], []⟩)
    .ok (batches.flatMap (·.txHash), batches.flatMap (·.newAddTxs))

structure TxsVerdict (Result Signers ε : Type) where
  txHashes : List Bytes
  txNewAdd : List (Transaction Result Signers)
  rwSetVerifyFailTx : Option RwSetVerifyFailTx
  err : Option (VerifierTxsError ε)

namespace TxVerifier

variable (v : TxVerifier Result Signers Data Event ε)

def goroutine (txsRet : Bytes → Option (Transaction Result Signers)) (header : Header)
    (chunk : List (Transaction Result Signers) × Nat) : List (VerifyAction Result Signers ε) :=
  match v.verifyChunk txsRet header chunk.1 with
  | .error (.panic cause) => [.panic cause]
  | .error (.error cause) => [.setErr cause]
  | .ok (txHashes, []) => [.putResult chunk.2 ⟨chunk.1, [], txHashes⟩]
  | .ok (_, failed) => [.setErr .rwSetVerifyFailTxs, .appendFailed failed]

def txsRet (txs : List (Transaction Result Signers)) :
    Bytes → Option (Transaction Result Signers) :=
  if v.ifOpenConsensusMessageTurbo = false ∧ v.txPoolType ≠ .batch then
    v.getTxsByTxIds ((filterCoinBaseTxOrGasTx txs).map (·.txId))
  else fun _ => none

def goroutines (header : Header) (chunks : List (List (Transaction Result Signers))) :
    List (List (VerifyAction Result Signers ε)) :=
  chunks.zipIdx.map (v.goroutine (v.txsRet chunks.flatten) header)

end TxVerifier

def VerifyShared.conclude (header : Header) (count : Nat) (s : VerifyShared Result Signers ε) :
    TxsVerdict Result Signers ε :=
  if s.rwSetVerifyFailTxIds ≠ [] then
    ⟨[], [], some ⟨s.rwSetVerifyFailTxIds, header.blockHeight⟩, s.err.map .verifyTx⟩
  else match txVerifyResultsMerge s.resultTasks count with
    | .error cause => ⟨[], [], none, some cause⟩
    | .ok merged => ⟨merged.1, merged.2, none, none⟩

def VerifyShared.verdict (header : Header) (count : Nat) (s : VerifyShared Result Signers ε) :
    Option (TxsVerdict Result Signers ε) :=
  match s.panicked with
  | some _ => none
  | none => some (s.conclude header count)

/-- The outcomes of `verifierTxs`, over all interleavings of its goroutines. -/
def TxVerifier.VerifierTxs (v : TxVerifier Result Signers Data Event ε) (header : Header)
    (chunks : List (List (Transaction Result Signers)))
    (returned : Option (TxsVerdict Result Signers ε)) : Prop :=
  ∃ word, Interleaves (v.goroutines header chunks) word ∧
    (word.foldl VerifyShared.act .start).verdict header chunks.length = returned

end Model

section Chunk

variable {Result Signers Data Event ε : Type} (v : TxVerifier Result Signers Data Event ε)
  (txsRet : Bytes → Option (Transaction Result Signers)) (header : Header)
  (tx : Transaction Result Signers)

def TxVerifier.RWSetPasses (rwSetHash : Bytes) : Prop :=
  v.hashRWSet tx = .ok rwSetHash ∧ v.isTxRWSetValid tx rwSetHash = .ok true

def TxVerifier.ResultPasses (rwSetHash : Bytes) : Prop :=
  v.verifyTxResult tx rwSetHash = .ok true

/-- The transaction is valid, its read/write set and result match, and it has a hash. -/
def TxVerifier.Passes : Prop :=
  v.validateTx txsRet header tx = .ok () ∧
    (∃ rwSetHash, v.RWSetPasses tx rwSetHash ∧ v.ResultPasses tx rwSetHash) ∧
      ∃ hash, v.calcTxHash tx = .ok hash

def TxVerifier.Checked : Prop :=
  v.validate txsRet header tx = .ok () ∧ ∃ checked, v.checkTx tx = .ok checked

def TxVerifier.hashOf : Option Bytes :=
  (v.checkTx tx).toOption.join

def TxVerifier.listed : Bool :=
  (v.hashOf tx).isNone && !isGasTx tx

variable {v txsRet header tx} {txs : List (Transaction Result Signers)}

theorem checkTx_eq_ok_iff (pool : v.txPoolType ≠ .batch) {checked : Option Bytes} :
    v.checkTx tx = .ok checked ↔ ∃ rwSetHash, v.hashRWSet tx = .ok rwSetHash ∧
      (v.isTxRWSetValid tx rwSetHash = .ok false ∧ checked = none ∨ v.isTxRWSetValid tx rwSetHash = .ok true ∧
          (v.verifyTxResult tx rwSetHash = .ok false ∧ checked = none ∨ v.verifyTxResult tx rwSetHash = .ok true ∧
              ∃ hash, v.calcTxHash tx = .ok hash ∧ checked = some hash)) := by
  unfold TxVerifier.checkTx
  simp only [if_neg pool, bind_eq_ok]
  refine exists_congr fun rwSetHash => and_congr_right fun _ => ?_
  constructor
  · intro ran
    obtain ⟨rwSetValid, compared, ran⟩ := ran
    cases rwSetValid with
    | false =>
      cases ran
      exact .inl ⟨compared, rfl⟩
    | true =>
      obtain ⟨resultValid, verified, ran⟩ := bind_eq_ok.mp ran
      cases resultValid with
      | false =>
        cases ran
        exact .inr ⟨compared, .inl ⟨verified, rfl⟩⟩
      | true =>
        obtain ⟨hash, hashed, same⟩ := bind_eq_ok.mp ran
        cases same
        exact .inr ⟨compared, .inr ⟨verified, hash, hashed, rfl⟩⟩
  · intro ended
    cases ended with
    | inl mismatch => exact ⟨false, mismatch.1, by rw [mismatch.2]; rfl⟩
    | inr matching =>
      refine ⟨true, matching.1, bind_eq_ok.mpr ?_⟩
      cases matching.2 with
      | inl mismatch => exact ⟨false, mismatch.1, by rw [mismatch.2]; rfl⟩
      | inr matching =>
        obtain ⟨verified, hash, hashed, rfl⟩ := matching
        exact ⟨true, verified, bind_eq_ok.mpr ⟨hash, hashed, rfl⟩⟩

theorem checkTx_eq_some_iff (pool : v.txPoolType ≠ .batch) {hash : Bytes} : v.checkTx tx = .ok (some hash) ↔
      (∃ rwSetHash, v.RWSetPasses tx rwSetHash ∧ v.ResultPasses tx rwSetHash) ∧ v.calcTxHash tx = .ok hash := by
  rw [checkTx_eq_ok_iff pool]
  constructor
  · rintro ⟨rwSetHash, hashed, ⟨_, absent⟩ | ⟨compared, ⟨_, absent⟩ | ⟨verified, _, found, same⟩⟩⟩
    · cases absent
    · cases absent
    · cases same
      exact ⟨⟨rwSetHash, ⟨hashed, compared⟩, verified⟩, found⟩
  · rintro ⟨⟨rwSetHash, ⟨hashed, compared⟩, verified⟩, found⟩
    exact ⟨rwSetHash, hashed, .inr ⟨compared, .inr ⟨verified, hash, found, rfl⟩⟩⟩

theorem not_passes_of_checkTx_eq_none (pool : v.txPoolType ≠ .batch) (skipped : v.checkTx tx = .ok none) :
    ¬ ∃ rwSetHash, v.RWSetPasses tx rwSetHash ∧ v.ResultPasses tx rwSetHash := by
  rintro ⟨rwSetHash, ⟨hashed, compared⟩, verified⟩
  obtain ⟨other, otherHashed, ended⟩ := (checkTx_eq_ok_iff pool).mp skipped
  cases hashed.symm.trans otherHashed
  rcases ended with ⟨mismatch, _⟩ | ⟨_, ⟨mismatch, _⟩ | ⟨_, _, _, same⟩⟩
  · cases compared.symm.trans mismatch
  · cases verified.symm.trans mismatch
  · cases same

def TxVerifier.verifyPlain (v : TxVerifier Result Signers Data Event ε)
    (acc : List Bytes × List Bytes) (tx : Transaction Result Signers) : List Bytes × List Bytes :=
  (acc.1 ++ (v.hashOf tx).toList, if v.listed tx then acc.2 ++ [tx.txId] else acc.2)

theorem verifyNext_eq_ok_iff (acc : List Bytes × List Bytes) (tx : Transaction Result Signers) (acc' : List Bytes × List Bytes) :
    v.verifyNext txsRet header acc tx = .ok acc' ↔ v.Checked txsRet header tx ∧ v.verifyPlain acc tx = acc' := by
  unfold TxVerifier.verifyNext TxVerifier.Checked TxVerifier.verifyPlain TxVerifier.listed TxVerifier.hashOf
  cases validated : v.validate txsRet header tx with
  | error failure => simp [bind, Except.bind]
  | ok _ =>
    cases checked : v.checkTx tx with
    | error failure => simp [bind, Except.bind]
    | ok outcome =>
      cases outcome with
      | some hash => simp [bind, Except.bind, Except.toOption]
      | none =>
        cases gas : isGasTx tx with
        | true => simp [bind, Except.bind, Except.toOption]
        | false => simp [bind, Except.bind, Except.toOption]

theorem foldl_verifyPlain (txs : List (Transaction Result Signers)) (acc : List Bytes × List Bytes) : txs.foldl v.verifyPlain acc =
      (acc.1 ++ txs.filterMap v.hashOf, acc.2 ++ (txs.filter v.listed).map (·.txId)) := by
  induction txs generalizing acc with
  | nil => simp
  | cons tx rest ih =>
    rw [List.foldl_cons, ih, TxVerifier.verifyPlain, List.filterMap_cons, List.filter_cons]
    cases hashed : v.hashOf tx with
    | none =>
      cases v.listed tx with
      | false => simp
      | true => simp
    | some hash =>
      cases v.listed tx with
      | false => simp
      | true => simp

theorem verifyChunk_eq_ok_iff {hashes failed : List Bytes} : v.verifyChunk txsRet header txs = .ok (hashes, failed) ↔
      (∀ tx ∈ txs, v.Checked txsRet header tx) ∧ txs.filterMap v.hashOf = hashes ∧ (txs.filter v.listed).map (·.txId) = failed := by
  unfold TxVerifier.verifyChunk
  rw [foldlM_eq_ok verifyNext_eq_ok_iff, foldl_verifyPlain, Prod.mk.injEq]
  simp

theorem validate_eq (turbo : v.ifOpenConsensusMessageTurbo = false) :
    v.validate txsRet header tx = .ok () ↔ v.validateTx txsRet header tx = .ok () := by
  unfold TxVerifier.validate
  rw [turbo, if_neg Bool.false_ne_true, mapError_eq_ok]

theorem passes_iff (pool : v.txPoolType ≠ .batch) (turbo : v.ifOpenConsensusMessageTurbo = false) :
    v.Passes txsRet header tx ↔ v.Checked txsRet header tx ∧ (v.hashOf tx).isSome := by
  unfold TxVerifier.Passes TxVerifier.Checked TxVerifier.hashOf
  rw [validate_eq turbo]
  constructor
  · rintro ⟨validated, passed, hash, hashed⟩
    have checked := (checkTx_eq_some_iff pool).mpr ⟨passed, hashed⟩
    exact ⟨⟨validated, _, checked⟩, by rw [checked]; rfl⟩
  · rintro ⟨⟨validated, checked, ended⟩, kept⟩
    rw [ended] at kept
    obtain ⟨hash, rfl⟩ := Option.isSome_iff_exists.mp kept
    obtain ⟨passed, hashed⟩ := (checkTx_eq_some_iff pool).mp ended
    exact ⟨validated, passed, hash, hashed⟩

theorem verifyChunk_clean_iff (pool : v.txPoolType ≠ .batch) (turbo : v.ifOpenConsensusMessageTurbo = false) :
    (∃ hashes, v.verifyChunk txsRet header txs = .ok (hashes, []) ∧ txs.length = hashes.length) ↔ ∀ tx ∈ txs, v.Passes txsRet header tx := by
  simp only [verifyChunk_eq_ok_iff, passes_iff pool turbo]
  constructor
  · rintro ⟨_, ⟨checked, rfl, _⟩, complete⟩ tx member
    exact ⟨checked tx member, List.filterMap_length_eq_length.mp complete.symm tx member⟩
  · intro passes
    refine ⟨_, ⟨fun tx member => (passes tx member).1, rfl, ?_⟩, ?_⟩
    · rw [List.map_eq_nil_iff, List.filter_eq_nil_iff]
      intro tx member
      have kept := (passes tx member).2
      simp [TxVerifier.listed, Option.isNone_iff_eq_none, Option.isSome_iff_ne_none.mp kept]
    · exact (List.filterMap_length_eq_length.mpr fun tx member => (passes tx member).2).symm

end Chunk

section Shared

variable {Result Signers ε : Type}

namespace VerifyAction

def panic? : VerifyAction Result Signers ε → Option Panic
  | .panic cause => some cause
  | _ => none

def err? : VerifyAction Result Signers ε → Option (VerifyTxError ε)
  | .setErr cause => some cause
  | _ => none

def failed : VerifyAction Result Signers ε → List Bytes
  | .appendFailed txIds => txIds
  | _ => []

def result? (i : Nat) : VerifyAction Result Signers ε → Option (VerifyBlockBatch Result Signers)
  | .putResult index result => if index = i then some result else none
  | _ => none

end VerifyAction

theorem foldl_act (word : List (VerifyAction Result Signers ε)) :
    word.foldl VerifyShared.act .start = {
      panicked := word.reverse.findSome? VerifyAction.panic?
      err := word.reverse.findSome? VerifyAction.err?
      rwSetVerifyFailTxIds := word.flatMap VerifyAction.failed
      resultTasks := fun i => word.reverse.findSome? (VerifyAction.result? i) } := by
  induction word using List.reverseRecOn with
  | nil => rfl
  | append_singleton word action ih =>
    have last {α : Type} (f : VerifyAction Result Signers ε → Option α) :
        (word ++ [action]).reverse.findSome? f = (f action).or (word.reverse.findSome? f) := by
      rw [List.reverse_concat, List.findSome?_cons]
      cases f action with
      | none => rfl
      | some found => rfl
    simp only [List.foldl_append, ih, last, List.flatMap_append]
    cases action with
    | panic cause => simp [VerifyShared.act, VerifyAction.failed, VerifyAction.panic?, VerifyAction.err?, VerifyAction.result?]
    | setErr cause => simp [VerifyShared.act, VerifyAction.failed, VerifyAction.panic?, VerifyAction.err?, VerifyAction.result?]
    | appendFailed txIds => simp [VerifyShared.act, VerifyAction.failed, VerifyAction.panic?, VerifyAction.err?, VerifyAction.result?]
    | putResult index result =>
      have updated : Function.update (fun i => word.reverse.findSome? (VerifyAction.result? i)) index (some result) =
          fun i => ((.putResult index result : VerifyAction Result Signers ε).result? i).or
            (word.reverse.findSome? (VerifyAction.result? i)) := by
        funext i
        by_cases same : index = i
        · simp [VerifyAction.result?, same]
        · simp [VerifyAction.result?, same, Ne.symm same]
      simp [VerifyShared.act, VerifyAction.failed, VerifyAction.panic?, VerifyAction.err?, updated]

variable {batch : VerifyBlockBatch Result Signers}

theorem mem_of_resultTasks {word : List (VerifyAction Result Signers ε)} {i : Nat}
    (found : word.reverse.findSome? (VerifyAction.result? i) = some batch) :
    .putResult i batch ∈ word := by
  obtain ⟨action, member, here⟩ := List.exists_of_findSome?_eq_some found
  rw [List.mem_reverse] at member
  cases action with
  | putResult index result =>
    simp only [VerifyAction.result?] at here
    split at here
    · next same =>
      cases here
      exact same ▸ member
    · cases here
  | panic cause => cases here
  | setErr cause => cases here
  | appendFailed txIds => cases here

theorem mergeBatch_eq_ok_iff {merged : VerifyBlockBatch Result Signers} : (mergeBatch batch : Except (VerifierTxsError ε) _) = .ok merged ↔
      batch.txs.length = batch.txHash.length ∧ batch = merged := by
  unfold mergeBatch
  split
  · next different => simp [different]
  · next same => simp [not_not.mp same]

theorem txVerifyResultsMerge_eq_ok_iff {resultTasks : Nat → Option (VerifyBlockBatch Result Signers)} {count : Nat}
    {merged : List Bytes × List (Transaction Result Signers)} :
    (txVerifyResultsMerge resultTasks count : Except (VerifierTxsError ε) _) = .ok merged ↔
      (∀ i < count, ∃ batch, resultTasks i = some batch ∧ batch.txs.length = batch.txHash.length) ∧
        merged = (((List.range count).filterMap resultTasks).flatMap (·.txHash),
          ((List.range count).filterMap resultTasks).flatMap (·.newAddTxs)) := by
  unfold txVerifyResultsMerge
  by_cases complete : ∀ i < count, (resultTasks i).isSome = true
  · have received : ((List.range count).filter fun i => (resultTasks i).isSome) = List.range count :=
      List.filter_eq_self.mpr fun i member => complete i (List.mem_range.mp member)
    have found (i : Nat) (inside : i ∈ List.range count) : resultTasks i = some ((resultTasks i).getD ⟨[], [], []⟩) := by
      obtain ⟨batch, present⟩ := Option.isSome_iff_exists.mp (complete i (List.mem_range.mp inside))
      rw [present, Option.getD_some]
    have collected (sized : ∀ i < count, ((resultTasks i).getD ⟨[], [], []⟩).txs.length = ((resultTasks i).getD ⟨[], [], []⟩).txHash.length) :
        (List.range count).filterMap (fun i =>
          (mergeBatch ((resultTasks i).getD ⟨[], [], []⟩) :
            Except (VerifierTxsError ε) _).toOption) = (List.range count).filterMap resultTasks := by
      refine List.filterMap_congr fun i member => ?_
      rw [mergeBatch_eq_ok_iff.mpr ⟨sized i (List.mem_range.mp member), rfl⟩, found i member]
      rfl
    rw [received, List.length_range, if_neg (Nat.lt_irrefl count), bind_eq_ok]
    simp only [mapM_eq_ok, mergeBatch_eq_ok_iff, List.mem_range, Except.ok.injEq]
    constructor
    · rintro ⟨batches, ⟨merges, rfl⟩, rfl⟩
      have sized := fun i inside => (merges i inside).choose_spec.1
      exact ⟨fun i inside => ⟨_, found i (List.mem_range.mpr inside), sized i inside⟩, by rw [collected sized]⟩
    · rintro ⟨present, rfl⟩
      have sized : ∀ i < count, ((resultTasks i).getD ⟨[], [], []⟩).txs.length = ((resultTasks i).getD ⟨[], [], []⟩).txHash.length := by
        intro i inside
        obtain ⟨batch, here, same⟩ := present i inside
        rw [here]
        exact same
      exact ⟨_, ⟨fun i inside => ⟨_, sized i inside, rfl⟩, rfl⟩, by rw [collected sized]⟩
  · obtain ⟨i, missing⟩ := not_forall.mp complete
    obtain ⟨inside, missing⟩ := Classical.not_imp.mp missing
    have short : ((List.range count).filter fun i => (resultTasks i).isSome).length < count := by
      have shorter : ((List.range count).filter fun i => (resultTasks i).isSome).length < (List.range count).length :=
        List.length_filter_lt_length_iff_exists.mpr ⟨i, List.mem_range.mpr inside, missing⟩
      rwa [List.length_range] at shorter
    rw [if_pos short]
    refine iff_of_false (by simp) ?_
    intro all
    obtain ⟨batch, present, _⟩ := all.1 i inside
    exact missing (by rw [present]; rfl)

end Shared

section Verdict

variable {Result Signers Data Event ε : Type} {v : TxVerifier Result Signers Data Event ε}
  {txsRet : Bytes → Option (Transaction Result Signers)} {header : Header}
  {chunks : List (List (Transaction Result Signers))} {word : List (VerifyAction Result Signers ε)}
  {chunk : List (Transaction Result Signers) × Nat} {batch : VerifyBlockBatch Result Signers}
  {hashes : List Bytes}

theorem putResult_mem_goroutine {index : Nat} (member : .putResult index batch ∈ v.goroutine txsRet header chunk) :
    index = chunk.2 ∧ ∃ hashes, v.verifyChunk txsRet header chunk.1 = .ok (hashes, []) ∧ batch = ⟨chunk.1, [], hashes⟩ := by
  unfold TxVerifier.goroutine at member
  split at member
  · simp at member
  · simp at member
  · next hashes ended =>
    simp only [List.mem_singleton, VerifyAction.putResult.injEq] at member
    exact ⟨member.1, hashes, ended, member.2⟩
  · simp at member

theorem goroutine_of_failed {failed : List Bytes} (nonempty : failed ≠ [])
    (ended : v.verifyChunk txsRet header chunk.1 = .ok (hashes, failed)) :
    v.goroutine txsRet header chunk = [.setErr .rwSetVerifyFailTxs, .appendFailed failed] := by
  unfold TxVerifier.goroutine
  rw [ended]
  cases failed with
  | nil => exact absurd rfl nonempty
  | cons txId rest => rfl

theorem appendFailed_mem_goroutine {txIds : List Bytes} (member : .appendFailed txIds ∈ v.goroutine txsRet header chunk) :
    .setErr .rwSetVerifyFailTxs ∈ v.goroutine txsRet header chunk ∧ ∃ hashes, v.verifyChunk txsRet header chunk.1 = .ok (hashes, txIds) := by
  cases ended : v.verifyChunk txsRet header chunk.1 with
  | error failure =>
    unfold TxVerifier.goroutine at member
    rw [ended] at member
    cases failure with
    | panic cause => simp at member
    | error cause => simp at member
  | ok result =>
    obtain ⟨hashes, failed⟩ := result
    by_cases clean : failed = []
    · subst clean
      unfold TxVerifier.goroutine at member
      rw [ended] at member
      simp at member
    · rw [goroutine_of_failed clean ended] at member ⊢
      simp only [List.mem_cons, reduceCtorEq, List.not_mem_nil, or_false, false_or, VerifyAction.appendFailed.injEq] at member
      exact ⟨.head _, hashes, by rw [member]⟩

theorem goroutine_of_clean (clean : v.verifyChunk txsRet header chunk.1 = .ok (hashes, [])) :
    v.goroutine txsRet header chunk = [.putResult chunk.2 ⟨chunk.1, [], hashes⟩] := by
  unfold TxVerifier.goroutine
  rw [clean]

theorem mem_word_iff (runs : Interleaves (v.goroutines header chunks) word) {action : VerifyAction Result Signers ε} :
    action ∈ word ↔ ∃ chunk ∈ chunks.zipIdx, action ∈ v.goroutine (v.txsRet chunks.flatten) header chunk := by
  rw [runs.perm.mem_iff, TxVerifier.goroutines, List.mem_flatten]
  simp

theorem err_of_failed (runs : Interleaves (v.goroutines header chunks) word) (failed : word.flatMap VerifyAction.failed ≠ []) :
    word.reverse.findSome? VerifyAction.err? ≠ none := by
  obtain ⟨txId, listed⟩ := List.exists_mem_of_ne_nil _ failed
  obtain ⟨action, member, inside⟩ := List.mem_flatMap.mp listed
  cases action with
  | appendFailed txIds =>
    obtain ⟨chunk, chunkMember, ran⟩ := (mem_word_iff runs).mp member
    have error := (mem_word_iff runs).mpr ⟨chunk, chunkMember, (appendFailed_mem_goroutine ran).1⟩
    intro none
    exact absurd (List.findSome?_eq_none_iff.mp none _ (List.mem_reverse.mpr error)) (by
      simp [VerifyAction.err?])
  | panic cause => simp [VerifyAction.failed] at inside
  | setErr cause => simp [VerifyAction.failed] at inside
  | putResult index result => simp [VerifyAction.failed] at inside

theorem verdict_eq_some_iff {count : Nat} {verdict : TxsVerdict Result Signers ε} :
    (word.foldl VerifyShared.act .start).verdict header count = some verdict ↔ word.reverse.findSome? VerifyAction.panic? = none ∧
        (word.foldl VerifyShared.act .start).conclude header count = verdict := by
  unfold VerifyShared.verdict
  rw [foldl_act]
  cases word.reverse.findSome? VerifyAction.panic? with
  | none => simp
  | some cause => simp

def resultsOf (word : List (VerifyAction Result Signers ε)) (count : Nat) :
    List (VerifyBlockBatch Result Signers) :=
  (List.range count).filterMap fun i => word.reverse.findSome? (VerifyAction.result? i)

theorem complete_of_accepted (runs : Interleaves (v.goroutines header chunks) word)
    (accepted : ((word.foldl VerifyShared.act .start).conclude header chunks.length).err = none) :
    (∀ i < chunks.length, ∃ batch, word.reverse.findSome? (VerifyAction.result? i) = some batch ∧ batch.txs.length = batch.txHash.length) ∧
    ((word.foldl VerifyShared.act .start).conclude header chunks.length).txHashes = (resultsOf word chunks.length).flatMap (·.txHash) := by
  rw [foldl_act] at accepted ⊢
  unfold VerifyShared.conclude at accepted ⊢
  by_cases failed : word.flatMap VerifyAction.failed = []
  · simp only [failed, ne_eq, not_true_eq_false, if_false] at accepted ⊢
    split at accepted
    · cases accepted
    · next merged merges =>
      obtain ⟨complete, rfl⟩ := txVerifyResultsMerge_eq_ok_iff.mp merges
      exact ⟨complete, rfl⟩
  · simp only [failed, ne_eq, not_false_eq_true, if_true, Option.map_eq_none_iff] at accepted
    exact absurd accepted (err_of_failed runs failed)

theorem result_of_word (runs : Interleaves (v.goroutines header chunks) word) {i : Nat}
    (found : word.reverse.findSome? (VerifyAction.result? i) = some batch) :
    ∃ txs hashes, chunks[i]? = some txs ∧
      v.verifyChunk (v.txsRet chunks.flatten) header txs = .ok (hashes, []) ∧ batch = ⟨txs, [], hashes⟩ := by
  obtain ⟨chunk, member, ran⟩ := (mem_word_iff runs).mp (mem_of_resultTasks found)
  obtain ⟨rfl, hashes, ended, rfl⟩ := putResult_mem_goroutine ran
  exact ⟨chunk.1, hashes, List.mk_mem_zipIdx_iff_getElem?.mp member, ended, rfl⟩

theorem word_of_clean (runs : Interleaves (v.goroutines header chunks) word) (clean : ∀ txs ∈ chunks, ∃ hashes,
      v.verifyChunk (v.txsRet chunks.flatten) header txs = .ok (hashes, [])) :
    ∀ action ∈ word, ∃ index batch, action = .putResult index batch := by
  intro action member
  obtain ⟨chunk, listed, ran⟩ := (mem_word_iff runs).mp member
  obtain ⟨hashes, ended⟩ := clean chunk.1 (List.fst_mem_of_mem_zipIdx listed)
  rw [goroutine_of_clean ended, List.mem_singleton] at ran
  exact ⟨_, _, ran⟩

variable {txs : List (Transaction Result Signers)}

theorem result_of_clean (runs : Interleaves (v.goroutines header chunks) word) {i : Nat} (here : chunks[i]? = some txs)
    (ended : v.verifyChunk (v.txsRet chunks.flatten) header txs = .ok (hashes, [])) :
    word.reverse.findSome? (VerifyAction.result? i) = some ⟨txs, [], hashes⟩ := by
  have put : .putResult i ⟨txs, [], hashes⟩ ∈ word := by
    refine (mem_word_iff runs).mpr ⟨(txs, i), List.mk_mem_zipIdx_iff_getElem?.mpr here, ?_⟩
    have ran : v.goroutine (v.txsRet chunks.flatten) header (txs, i) = _ :=
      goroutine_of_clean ended
    rw [ran]
    exact .head _
  cases found : word.reverse.findSome? (VerifyAction.result? i) with
  | none =>
    have absent := List.findSome?_eq_none_iff.mp found _ (List.mem_reverse.mpr put)
    simp [VerifyAction.result?] at absent
  | some batch =>
    obtain ⟨other, otherHashes, there, otherEnded, rfl⟩ := result_of_word runs found
    cases here.symm.trans there
    cases ended.symm.trans otherEnded
    rfl

theorem resultsOf_txHash (runs : Interleaves (v.goroutines header chunks) word)
    (complete : ∀ i < chunks.length, ∃ batch, word.reverse.findSome? (VerifyAction.result? i) = some batch) :
    (resultsOf word chunks.length).flatMap (·.txHash) = chunks.flatten.filterMap v.hashOf := by
  have results : resultsOf word chunks.length = (List.range chunks.length).filterMap fun i => chunks[i]?.map fun txs =>
        ⟨txs, [], txs.filterMap v.hashOf⟩ := by
    refine List.filterMap_congr ?_
    intro i member
    obtain ⟨batch, found⟩ := complete i (List.mem_range.mp member)
    obtain ⟨txs, hashes, here, ended, rfl⟩ := result_of_word runs found
    rw [found, here, Option.map_some, (verifyChunk_eq_ok_iff.mp ended).2.1]
  rw [results, filterMap_getElem?_range, List.flatMap_map, List.filterMap_flatten]
  rfl

variable (pool : v.txPoolType ≠ .batch) (turbo : v.ifOpenConsensusMessageTurbo = false)

include pool in
theorem map_filterMap_hashOf (hashed : ∀ tx ∈ txs, (v.hashOf tx).isSome) : (txs.filterMap v.hashOf).map Except.ok = txs.map v.calcTxHash := by
  induction txs with
  | nil => rfl
  | cons tx rest ih =>
    obtain ⟨here, later⟩ := List.forall_mem_cons.mp hashed
    obtain ⟨hash, found⟩ := Option.isSome_iff_exists.mp here
    have checked : v.checkTx tx = .ok (some hash) := by
      unfold TxVerifier.hashOf at found
      cases ended : v.checkTx tx with
      | error failure => simp [ended, Except.toOption] at found
      | ok checked =>
        simp only [ended, Except.toOption, Option.join_some] at found
        rw [found]
    rw [List.filterMap_cons_some found, List.map_cons, List.map_cons, ih later, ((checkTx_eq_some_iff pool).mp checked).2]

include pool turbo in
theorem passes_of_accepted (runs : Interleaves (v.goroutines header chunks) word)
    (accepted : ((word.foldl VerifyShared.act .start).conclude header chunks.length).err = none) :
    (∀ tx ∈ chunks.flatten, v.Passes (v.txsRet chunks.flatten) header tx) ∧
      ((word.foldl VerifyShared.act .start).conclude header chunks.length).txHashes.map .ok = chunks.flatten.map v.calcTxHash := by
  obtain ⟨complete, hashes⟩ := complete_of_accepted runs accepted
  have passes : ∀ tx ∈ chunks.flatten, v.Passes (v.txsRet chunks.flatten) header tx := by
    intro tx member
    obtain ⟨txs, inside, member⟩ := List.mem_flatten.mp member
    obtain ⟨i, bound, rfl⟩ := List.getElem_of_mem inside
    obtain ⟨batch, found, sized⟩ := complete i bound
    obtain ⟨txs, hashes, here, ended, rfl⟩ := result_of_word runs found
    rw [List.getElem?_eq_getElem bound, Option.some.injEq] at here
    subst here
    exact (verifyChunk_clean_iff pool turbo).mp ⟨hashes, ended, sized⟩ tx member
  refine ⟨passes, ?_⟩
  rw [hashes, resultsOf_txHash runs fun i bound => (complete i bound).imp fun _ found => found.1]
  exact map_filterMap_hashOf pool fun tx member =>
    ((passes_iff pool turbo).mp (passes tx member)).2

include pool turbo in
theorem accepted_of_passes (runs : Interleaves (v.goroutines header chunks) word)
    (passes : ∀ tx ∈ chunks.flatten, v.Passes (v.txsRet chunks.flatten) header tx) :
    ∃ verdict, (word.foldl VerifyShared.act .start).verdict header chunks.length = some verdict ∧ verdict.err = none := by
  have clean : ∀ txs ∈ chunks, ∃ hashes, v.verifyChunk (v.txsRet chunks.flatten) header txs = .ok (hashes, []) ∧
        txs.length = hashes.length := fun txs inside =>
    (verifyChunk_clean_iff pool turbo).mpr fun tx member =>
      passes tx (List.mem_flatten.mpr ⟨txs, inside, member⟩)
  have puts := word_of_clean runs fun txs inside => (clean txs inside).imp fun _ ended => ended.1
  have calm : word.reverse.findSome? VerifyAction.panic? = none := by
    rw [List.findSome?_eq_none_iff]
    intro action member
    obtain ⟨_, _, rfl⟩ := puts action (List.mem_reverse.mp member)
    rfl
  have unlisted : word.flatMap VerifyAction.failed = [] := by
    rw [List.flatMap_eq_nil_iff]
    intro action member
    obtain ⟨_, _, rfl⟩ := puts action member
    rfl
  refine ⟨_, verdict_eq_some_iff.mpr ⟨calm, rfl⟩, ?_⟩
  rw [foldl_act]
  unfold VerifyShared.conclude
  simp only [unlisted, ne_eq, not_true_eq_false, if_false]
  have merges := (@txVerifyResultsMerge_eq_ok_iff _ _ ε
    (fun i => word.reverse.findSome? (VerifyAction.result? i)) chunks.length _).mpr ⟨?_, rfl⟩
  · rw [merges]
  · intro i bound
    obtain ⟨hashes, ended, sized⟩ := clean chunks[i] (List.getElem_mem bound)
    exact ⟨_, result_of_clean runs (List.getElem?_eq_getElem bound) ended, sized⟩

include pool in
theorem failed_of_listed (runs : Interleaves (v.goroutines header chunks) word) {txId : Bytes}
    (listed : txId ∈ word.flatMap VerifyAction.failed) :
    ∃ tx ∈ chunks.flatten, tx.txId = txId ∧ isGasTx tx = false ∧ ¬ ∃ rwSetHash, v.RWSetPasses tx rwSetHash ∧ v.ResultPasses tx rwSetHash := by
  obtain ⟨action, member, inside⟩ := List.mem_flatMap.mp listed
  cases action with
  | appendFailed txIds =>
    obtain ⟨chunk, chunkMember, ran⟩ := (mem_word_iff runs).mp member
    obtain ⟨_, hashes, ended⟩ := appendFailed_mem_goroutine ran
    obtain ⟨checked, _, rfl⟩ := verifyChunk_eq_ok_iff.mp ended
    obtain ⟨tx, skipped, rfl⟩ := List.mem_map.mp inside
    obtain ⟨txMember, kept⟩ := List.mem_filter.mp skipped
    obtain ⟨_, outcome, ran⟩ := checked tx txMember
    simp only [TxVerifier.listed, TxVerifier.hashOf, ran, Except.toOption, Option.join_some,
      Bool.and_eq_true, Option.isNone_iff_eq_none, Bool.not_eq_true'] at kept
    obtain ⟨rfl, ordinary⟩ := kept
    exact ⟨tx, List.mem_flatten.mpr ⟨_, List.fst_mem_of_mem_zipIdx chunkMember, txMember⟩, rfl,
      ordinary, not_passes_of_checkTx_eq_none pool ran⟩
  | panic cause => simp [VerifyAction.failed] at inside
  | setErr cause => simp [VerifyAction.failed] at inside
  | putResult index result => simp [VerifyAction.failed] at inside

/-- For every interleaving of the goroutines, the block is accepted exactly when every
transaction passes; then the hashes come in block order, and a list of failed transactions
names only transactions that do not charge gas and failed a check. -/
theorem verifierTxs_accepts_iff (v : TxVerifier Result Signers Data Event ε)
    (pool : v.txPoolType ≠ .batch) (turbo : v.ifOpenConsensusMessageTurbo = false)
    (header : Header) (chunks : List (List (Transaction Result Signers)))
    (returned : Option (TxsVerdict Result Signers ε))
    (runs : v.VerifierTxs header chunks returned) :
    ((∃ verdict, returned = some verdict ∧ verdict.err = none) ↔
      ∀ tx ∈ chunks.flatten, v.Passes (v.txsRet chunks.flatten) header tx) ∧
    ∀ verdict, returned = some verdict →
      (verdict.err = none → verdict.txHashes.map .ok = chunks.flatten.map v.calcTxHash) ∧
      ∀ failed, verdict.rwSetVerifyFailTx = some failed → ∀ txId ∈ failed.txIds,
        ∃ tx ∈ chunks.flatten, tx.txId = txId ∧ isGasTx tx = false ∧
          ¬ ∃ rwSetHash, v.RWSetPasses tx rwSetHash ∧ v.ResultPasses tx rwSetHash := by
  obtain ⟨word, interleaves, rfl⟩ := runs
  refine ⟨⟨?_, accepted_of_passes pool turbo interleaves⟩, ?_⟩
  · rintro ⟨verdict, concluded, accepted⟩
    obtain ⟨_, rfl⟩ := verdict_eq_some_iff.mp concluded
    exact (passes_of_accepted pool turbo interleaves accepted).1
  · intro verdict concluded
    obtain ⟨_, rfl⟩ := verdict_eq_some_iff.mp concluded
    refine ⟨fun accepted => (passes_of_accepted pool turbo interleaves accepted).2, ?_⟩
    intro failed reported txId listed
    refine failed_of_listed pool interleaves ?_
    rw [foldl_act] at reported
    unfold VerifyShared.conclude at reported
    split at reported
    · cases reported
      exact listed
    · split at reported
      · cases reported
      · cases reported

def idVerifier : TxVerifier Bytes Unit Unit Unit Unit where
  txPoolType := .normal
  consensusType := .tbft
  mode := .consensusVerify
  quickSyncVerifyMode := false
  proposalCache := []
  isExists _ := .ok false
  verifyTxWithoutPayload _ := .ok ()
  calcUnsignedTxBytes _ := .ok []
  ifOpenConsensusMessageTurbo := false
  getTxsByTxIds _ _ := none
  txRWSetMap txId := some ⟨txId, [], []⟩
  txResultMap _ := some []
  calcRWSetHash rwSet := .ok rwSet.txId
  rwSetHash result := result
  setRwSetHash hash _ := hash
  calcResultBytes result := .ok result
  calcTxHashWithVersion tx := .ok tx.txId

def matchingTx (txId : Bytes) : Transaction Bytes Unit :=
  ⟨⟨txId, .invokeContract, [], [], []⟩, some txId, ()⟩

theorem verifierTxs_accepts_twoChunks :
    let header : Header := ⟨5, [], [], 2030500, 0, 3, none⟩
    let chunks := [[matchingTx [1]], [matchingTx [2], matchingTx [3]]]
    ∃ verdict, idVerifier.VerifierTxs header chunks (some verdict) ∧ verdict.err = none ∧
      verdict.txHashes.map .ok = chunks.flatten.map idVerifier.calcTxHash := by
  intro header chunks
  have runs : idVerifier.VerifierTxs header chunks _ := ⟨_, Interleaves.sequential _, rfl⟩
  obtain ⟨accepts, reports⟩ :=
    verifierTxs_accepts_iff idVerifier (by decide) rfl header chunks _ runs
  obtain ⟨verdict, returned, accepted⟩ := accepts.mpr (by
    intro tx member
    simp only [chunks, List.flatten_cons, List.flatten_nil, List.cons_append, List.nil_append,
      List.mem_cons, List.not_mem_nil, or_false] at member
    rcases member with rfl | rfl | rfl
    · exact ⟨rfl, ⟨[1], ⟨rfl, rfl⟩, rfl⟩, [1], rfl⟩
    · exact ⟨rfl, ⟨[2], ⟨rfl, rfl⟩, rfl⟩, [2], rfl⟩
    · exact ⟨rfl, ⟨[3], ⟨rfl, rfl⟩, rfl⟩, [3], rfl⟩)
  exact ⟨verdict, returned ▸ runs, accepted, (reports verdict returned).1 accepted⟩

end Verdict

end Pdcc.Core
