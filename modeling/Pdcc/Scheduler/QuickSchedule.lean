import Pdcc.Core.Block
import Pdcc.Snapshot.Apply

/-!
# The quick schedule

Batches of the tax contracts are not handed to the virtual machine. Their transactions
run one after the other, each in a simulation context of its own over the snapshot of the
block, and no transaction is applied to the snapshot. The parameters of the updates go
through one map for the whole batch.
-/

set_option autoImplicit false

namespace Pdcc.Scheduler.Quick

open Ledger Library
open Snapshot (SnapshotImpl szContractList)

inductive TxStatusCode where
  | success
  | contractFail
  | contractInvokeMethodFailed
  deriving DecidableEq, Repr

inductive Message (ε : Type) where
  | ok
  | invalidMethod (method : Bytes)
  | getFailed (cause : ε) (contractName bizId businessType : Bytes)
  | notANumber (text : Bytes) (cause : ParseError) (contractName bizId businessType : Bytes)
  | nonceNotMore (contractName nonce : Bytes) (currentNonce : Int)
  | keyTooLong (key contractName : Bytes)

structure ContractResult (ε : Type) where
  code : Nat
  result : Bytes
  message : Message ε

structure TxResult (ε : Type) where
  code : TxStatusCode
  contractResult : ContractResult ε
  rwSetHash : Bytes

abbrev Tx (ε Signers : Type) := Core.Transaction (TxResult ε) Signers

abbrev ParamMap := AList fun _ : Bytes => Bytes

variable {ε Signers SnapshotTx SnapshotResult : Type}

def keptRwSetHash (tx : Tx ε Signers) : Bytes :=
  match tx.result with
  | none => []
  | some result => result.rwSetHash

def genDefaultTxResult (tx : Tx ε Signers) : TxResult ε where
  code := .success
  contractResult := { code := 0, result := [], message := .ok }
  rwSetHash := keptRwSetHash tx

def genDefaultFiledTxResult (tx : Tx ε Signers) : TxResult ε where
  code := .contractInvokeMethodFailed
  contractResult := { code := 1, result := [], message := .invalidMethod tx.payload.method }
  rwSetHash := keptRwSetHash tx

def genDefaultTxRWSet (txId : Bytes) : TxRWSet := { txId, txReads := [], txWrites := [] }

def getErrResult (txResult : TxResult ε) (errMsg : Message ε) : TxResult ε :=
  { txResult with
    code := .contractFail
    contractResult := { txResult.contractResult with code := 1, message := errMsg } }

def getSimContextKey (bizId businessType : Bytes) : Bytes := bizId ++ businessType

def genDefaultDag (txCount : Nat) : List (List Nat) := List.replicate txCount []

def canUseQuickSchedule (txs : List (Tx ε Signers)) : Bool :=
  txs.all fun tx => szContractList.contains tx.payload.contractName

def simContextGet (snapshot : SnapshotImpl SnapshotTx SnapshotResult ε) (ctx : SimContext)
    (loc : StateKey) : Except ε (Bytes × SimContext) :=
  match ctx.getCached loc with
  | some cached => .ok cached
  | none =>
    match snapshot.getKey loc with
    | .error cause => .error cause
    | .ok value => .ok (value, ctx.putIntoReadSet loc value)

def bizIdKey : Bytes := ascii "bizId"
def businessTypeKey : Bytes := ascii "businessType"
def nonceKey : Bytes := ascii "nonce"

def param (paramMap : ParamMap) (key : Bytes) : Bytes := (paramMap.lookup key).getD []

def putParams (tx : Tx ε Signers) (paramMap : ParamMap) : ParamMap :=
  tx.payload.parameters.foldl (fun params entry => params.insert entry.1 entry.2) paramMap

def addInt64 (left right : Int) : Int := Int.bmod (left + right) (2 ^ 64)

def parseStored (value : Bytes) : Except ParseError Int :=
  if value = [] then .ok 0 else parseInt value

@[ext]
structure Outcome (ε : Type) where
  txRWSet : TxRWSet
  result : TxResult ε

section Update

variable (snapshot : SnapshotImpl SnapshotTx SnapshotResult ε) (blockVersion : Nat)
  (tx : Tx ε Signers)

variable (bizId businessType nonce : Bytes)

def nextNonce (lastNonce : Int) : Except (Message ε) Int :=
  if nonce = [] then .ok (addInt64 lastNonce 1)
  else
    match parseInt nonce with
    | .error cause =>
      .error (.notANumber nonce cause tx.payload.contractName bizId businessType)
    | .ok nonceInt =>
      if nonceInt ≤ lastNonce then
        .error (.nonceNotMore tx.payload.contractName nonce lastNonce)
      else .ok nonceInt

def putNonce (ctx : SimContext) (value : Bytes) : Except (Message ε) Int :=
  let contractName := tx.payload.contractName
  let key := getSimContextKey bizId businessType
  match parseStored value with
  | .error cause => .error (.notANumber value cause contractName bizId businessType)
  | .ok lastNonce =>
    match nextNonce tx bizId businessType nonce lastNonce with
    | .error errMsg => .error errMsg
    | .ok noncePair =>
      match ctx.putIntoWriteSet ⟨contractName, key⟩ (formatInt noncePair) with
      | none => .error (.keyTooLong key contractName)
      | some _ => .ok noncePair

def updateFailed (key value : Bytes) (errMsg : Message ε) : Outcome ε where
  txRWSet :=
    { txId := tx.txId, txReads := [⟨tx.payload.contractName, key, value⟩], txWrites := [] }
  result := getErrResult (genDefaultTxResult tx) errMsg

def updateDone (key value : Bytes) (noncePair : Int) : Outcome ε where
  txRWSet :=
    { txId := tx.txId
      txReads := [⟨tx.payload.contractName, key, value⟩]
      txWrites := [⟨tx.payload.contractName, key, formatInt noncePair⟩] }
  result :=
    { genDefaultTxResult tx with
      contractResult := { code := 0, result := formatInt noncePair, message := .ok } }

def updateWith : Outcome ε :=
  let contractName := tx.payload.contractName
  let key := getSimContextKey bizId businessType
  let ctx := newTxSimContext blockVersion snapshot.getSnapshotSize
  match simContextGet snapshot ctx ⟨contractName, key⟩ with
  | .error cause => updateFailed tx key [] (.getFailed cause contractName bizId businessType)
  | .ok (value, ctx) =>
    match putNonce tx bizId businessType nonce ctx value with
    | .error errMsg => updateFailed tx key value errMsg
    | .ok noncePair => updateDone tx key value noncePair

def update (paramMap : ParamMap) : Outcome ε × ParamMap :=
  let paramMap := putParams tx paramMap
  (updateWith snapshot blockVersion tx (param paramMap bizIdKey) (param paramMap businessTypeKey)
    (param paramMap nonceKey), paramMap)

def isUpdate : Bool := tx.payload.method = ascii "Update"

def runContract (paramMap : ParamMap) : Outcome ε × ParamMap :=
  if tx.payload.method = ascii "Save" ∨ tx.payload.method = ascii "Endorse" then
    ({ txRWSet := genDefaultTxRWSet tx.txId, result := genDefaultTxResult tx }, paramMap)
  else if isUpdate tx then update snapshot blockVersion tx paramMap
  else ({ txRWSet := genDefaultTxRWSet tx.txId, result := genDefaultFiledTxResult tx }, paramMap)

end Update

structure Loop (ε Signers : Type) where
  txRWSetMap : AList fun _ : Bytes => TxRWSet
  paramMap : ParamMap
  txs : List (Tx ε Signers)

structure Schedule (ε Signers : Type) where
  txRWSetMap : AList fun _ : Bytes => TxRWSet
  txs : List (Tx ε Signers)
  dag : List (List Nat)

section Loop

variable (snapshot : SnapshotImpl SnapshotTx SnapshotResult ε) (blockVersion : Nat)

def Loop.step (loop : Loop ε Signers) (tx : Tx ε Signers) : Loop ε Signers :=
  let (outcome, paramMap) := runContract snapshot blockVersion tx loop.paramMap
  { txRWSetMap := loop.txRWSetMap.insert tx.txId outcome.txRWSet
    paramMap
    txs := loop.txs ++ [{ tx with result := some outcome.result }] }

def schedule (txBatch : List (Tx ε Signers)) : Schedule ε Signers :=
  let loop := txBatch.foldl (Loop.step snapshot blockVersion)
    { txRWSetMap := ∅, paramMap := ∅, txs := [] }
  { txRWSetMap := loop.txRWSetMap, txs := loop.txs, dag := genDefaultDag txBatch.length }

def runs (paramMap : ParamMap) : List (Tx ε Signers) → List (Tx ε Signers × Outcome ε)
  | [] => []
  | tx :: rest =>
    let (outcome, paramMap) := runContract snapshot blockVersion tx paramMap
    (tx, outcome) :: runs paramMap rest

def paramsAfter (paramMap : ParamMap) (txs : List (Tx ε Signers)) : ParamMap :=
  txs.foldl (fun params tx => (runContract snapshot blockVersion tx params).2) paramMap

end Loop

section Runs

variable {snapshot : SnapshotImpl SnapshotTx SnapshotResult ε} {blockVersion : Nat}

theorem runs_append (paramMap : ParamMap) (before after : List (Tx ε Signers)) :
    runs snapshot blockVersion paramMap (before ++ after) = runs snapshot blockVersion paramMap before ++
        runs snapshot blockVersion (paramsAfter snapshot blockVersion paramMap before) after := by
  induction before generalizing paramMap with
  | nil => rfl
  | cons tx rest ih => simp only [List.cons_append, runs, ih, paramsAfter, List.foldl_cons]

theorem runs_txs (paramMap : ParamMap) (txs : List (Tx ε Signers)) : (runs snapshot blockVersion paramMap txs).map (·.1) = txs := by
  induction txs generalizing paramMap with
  | nil => rfl
  | cons tx rest ih => simp only [runs, List.map_cons, ih]

def withResult (run : Tx ε Signers × Outcome ε) : Tx ε Signers :=
  { run.1 with result := some run.2.result }

theorem foldl_step (loop : Loop ε Signers) (txs : List (Tx ε Signers)) : (txs.foldl (Loop.step snapshot blockVersion) loop).txRWSetMap =
        ((runs snapshot blockVersion loop.paramMap txs).map fun run =>
          (run.1.txId, run.2.txRWSet)).foldl (fun sets entry => sets.insert entry.1 entry.2) loop.txRWSetMap ∧
      (txs.foldl (Loop.step snapshot blockVersion) loop).txs = loop.txs ++ (runs snapshot blockVersion loop.paramMap txs).map withResult := by
  induction txs generalizing loop with
  | nil => exact ⟨rfl, (List.append_nil _).symm⟩
  | cons tx rest ih =>
    obtain ⟨sets, results⟩ := ih (Loop.step snapshot blockVersion loop tx)
    rw [List.foldl_cons, sets, results]
    exact ⟨rfl, by simp [Loop.step, runs, withResult]⟩

theorem schedule_txRWSetMap (txBatch : List (Tx ε Signers)) : (schedule snapshot blockVersion txBatch).txRWSetMap =
      lastAmounts ((runs snapshot blockVersion ∅ txBatch).map fun run =>
        (run.1.txId, run.2.txRWSet)) :=
  (foldl_step _ txBatch).1

theorem schedule_txs (txBatch : List (Tx ε Signers)) : (schedule snapshot blockVersion txBatch).txs =
      (runs snapshot blockVersion ∅ txBatch).map withResult :=
  (foldl_step _ txBatch).2

end Runs

section Isolation

variable {snapshot : SnapshotImpl SnapshotTx SnapshotResult ε} {blockVersion : Nat}

def Schedule.outcomeOf (done : Schedule ε Signers) (txId : Bytes) :
    Option TxRWSet × Option (TxResult ε) :=
  (done.txRWSetMap.lookup txId, (done.txs.find? (·.txId = txId)).bind (·.result))

variable {tx : Tx ε Signers}

variable (snapshot blockVersion) in
theorem outcomeOf_schedule (before after : List (Tx ε Signers)) (distinct : ((before ++ tx :: after).map (·.txId)).Nodup) :
    (schedule snapshot blockVersion (before ++ tx :: after)).outcomeOf tx.txId =
      let outcome :=
        (runContract snapshot blockVersion tx (paramsAfter snapshot blockVersion ∅ before)).1
      (some outcome.txRWSet, some outcome.result) := by
  generalize ran : (runContract snapshot blockVersion tx (paramsAfter snapshot blockVersion ∅ before)).1 = outcome
  have listed : (tx, outcome) ∈ runs snapshot blockVersion ∅ (before ++ tx :: after) := by
    rw [runs_append, ← ran]
    exact List.mem_append_right _ List.mem_cons_self
  have ids {key : Tx ε Signers × Outcome ε → Bytes} (same : ∀ run, key run = run.1.txId) :
      ((runs snapshot blockVersion ∅ (before ++ tx :: after)).map key).Nodup := by
    have keys : key = Core.Transaction.txId ∘ Prod.fst := funext same
    rw [keys, ← List.map_map, runs_txs]
    exact distinct
  unfold Schedule.outcomeOf
  rw [schedule_txRWSetMap, schedule_txs]
  have set := lastAmounts_lookup_of_mem (by rw [List.map_map]; exact ids fun _ => rfl)
    (List.mem_map_of_mem (f := fun run => (run.1.txId, run.2.txRWSet)) listed)
  have result := find?_of_distinct (fun done : Tx ε Signers => done.txId) (by rw [List.map_map]; exact ids fun _ => rfl)
    (List.mem_map_of_mem (f := withResult) listed)
  exact Prod.ext set (congrArg (·.bind (·.result)) result)

def ownParam (tx : Tx ε Signers) (key : Bytes) : Option Bytes :=
  (amountsOf tx.payload.parameters key).getLast?

theorem param_putParams (tx : Tx ε Signers) (paramMap : ParamMap) (key : Bytes) :
    param (putParams tx paramMap) key = (ownParam tx key).getD (param paramMap key) := by
  unfold param putParams
  rw [foldl_insert_lookup, ← ownParam]
  cases ownParam tx key with
  | none => rfl
  | some value => rfl

def bizPair (tx : Tx ε Signers) : Bytes × Bytes :=
  ((ownParam tx bizIdKey).getD [], (ownParam tx businessTypeKey).getD [])

/-- A batch for the quick schedule with the transaction among those of other pairs. -/
structure Among (tx : Tx ε Signers) (txBatch : List (Tx ε Signers)) : Prop where
  member : tx ∈ txBatch
  eligible : canUseQuickSchedule txBatch
  distinct : (txBatch.map (·.txId)).Nodup
  others : ∀ other ∈ txBatch, other.txId ≠ tx.txId → bizPair other ≠ bizPair tx

/-- The value that an update of a batch finds for a parameter: its own one or else that of the
last update before it that has one. -/
def paramInForce (txBatch : List (Tx ε Signers)) (tx : Tx ε Signers) (key : Bytes) : Bytes :=
  let updates := (txBatch.takeWhile (·.txId ≠ tx.txId)).filter isUpdate ++ [tx]
  ((amountsOf (updates.flatMap (·.payload.parameters)) key).getLast?).getD []

/-- The same parameters are in force for the update in both batches. -/
def SameParams (tx : Tx ε Signers) (txBatch txBatch' : List (Tx ε Signers)) : Prop :=
  ∀ key ∈ [bizIdKey, businessTypeKey, nonceKey], paramInForce txBatch tx key = paramInForce txBatch' tx key

theorem runContract_update (updates : isUpdate tx) (paramMap : ParamMap) : runContract snapshot blockVersion tx paramMap =
      (updateWith snapshot blockVersion tx (param (putParams tx paramMap) bizIdKey)
        (param (putParams tx paramMap) businessTypeKey) (param (putParams tx paramMap) nonceKey),
        putParams tx paramMap) := by
  have method : tx.payload.method = ascii "Update" := by simpa [isUpdate] using updates
  unfold runContract
  rw [if_neg (by rw [method]; decide), if_pos updates]
  rfl

variable (snapshot blockVersion) in
theorem runContract_other (other : ¬ isUpdate tx) :
    ∃ outcome, ∀ paramMap, runContract snapshot blockVersion tx paramMap = (outcome, paramMap) := by
  unfold runContract
  simp only [if_neg other]
  split
  · exact ⟨_, fun _ => rfl⟩
  · exact ⟨_, fun _ => rfl⟩

variable (snapshot blockVersion) in
theorem param_paramsAfter (paramMap : ParamMap) (before : List (Tx ε Signers)) (key : Bytes) :
    param (paramsAfter snapshot blockVersion paramMap before) key =
      ((amountsOf ((before.filter isUpdate).flatMap (·.payload.parameters)) key).getLast?).getD (param paramMap key) := by
  induction before generalizing paramMap with
  | nil => rfl
  | cons earlier rest ih =>
    have rest_eq := ih (runContract snapshot blockVersion earlier paramMap).2
    rw [paramsAfter, List.foldl_cons, ← paramsAfter, rest_eq]
    by_cases updates : isUpdate earlier
    · rw [List.filter_cons_of_pos updates, List.flatMap_cons, amountsOf_append, List.getLast?_append,
        runContract_update updates, param_putParams, ownParam, Option.getD_or]
    · obtain ⟨outcome, ran⟩ := runContract_other snapshot blockVersion updates
      rw [List.filter_cons_of_neg updates, ran]

variable (snapshot blockVersion) in
theorem param_inForce {before after : List (Tx ε Signers)} (distinct : ((before ++ tx :: after).map (·.txId)).Nodup) (key : Bytes) :
    param (putParams tx (paramsAfter snapshot blockVersion ∅ before)) key = paramInForce (before ++ tx :: after) tx key := by
  have apart : ∀ earlier ∈ before, decide (earlier.txId ≠ tx.txId) = true := by
    intro earlier inside
    rw [List.map_append, List.nodup_append] at distinct
    exact decide_eq_true (distinct.2.2 _ (List.mem_map_of_mem inside) _ List.mem_cons_self)
  have taken : (before ++ tx :: after).takeWhile (·.txId ≠ tx.txId) = before := by
    rw [List.takeWhile_append_of_pos apart, List.takeWhile_cons_of_neg (by simp), List.append_nil]
  rw [paramInForce, taken, param_putParams, param_paramsAfter, List.flatMap_append, amountsOf_append,
    List.getLast?_append, Option.getD_or, List.flatMap_singleton]
  rfl

/-- A transaction has the same outcome in two batches of other pairs if the same parameters are
in force for it. -/
theorem outcomeOf_eq_of_sameParams (snapshot : SnapshotImpl SnapshotTx SnapshotResult ε)
    (blockVersion : Nat) {tx : Tx ε Signers} {txBatch txBatch' : List (Tx ε Signers)}
    (among : Among tx txBatch) (among' : Among tx txBatch')
    (same : isUpdate tx → SameParams tx txBatch txBatch') :
    (schedule snapshot blockVersion txBatch).outcomeOf tx.txId =
      (schedule snapshot blockVersion txBatch').outcomeOf tx.txId := by
  obtain ⟨before, after, rfl⟩ := List.append_of_mem among.member
  obtain ⟨before', after', rfl⟩ := List.append_of_mem among'.member
  rw [outcomeOf_schedule snapshot blockVersion before after among.distinct,
    outcomeOf_schedule snapshot blockVersion before' after' among'.distinct]
  by_cases updates : isUpdate tx
  · have agree (key : Bytes) (listed : key ∈ [bizIdKey, businessTypeKey, nonceKey]) :=
      (param_inForce snapshot blockVersion among.distinct key).trans
        ((same updates key listed).trans (param_inForce snapshot blockVersion among'.distinct key).symm)
    rw [runContract_update updates, runContract_update updates, agree bizIdKey (by simp),
      agree businessTypeKey (by simp), agree nonceKey (by simp)]
  · obtain ⟨outcome, ran⟩ := runContract_other snapshot blockVersion updates
    rw [ran, ran]

variable {value : Bytes}

variable (blockVersion) in
theorem updateWith_of_getKey {bizId businessType : Bytes}
    (stored : snapshot.getKey ⟨tx.payload.contractName, bizId ++ businessType⟩ = .ok value)
    (nonce : Bytes) :
    ∃ ctx, updateWith snapshot blockVersion tx bizId businessType nonce = match putNonce tx bizId businessType nonce ctx value with
      | .error errMsg => updateFailed tx (bizId ++ businessType) value errMsg
      | .ok noncePair => updateDone tx (bizId ++ businessType) value noncePair := by
  unfold updateWith simContextGet
  simp only [newTxSimContext, SimContext.getCached, SimContext.getFromWriteSet,
    SimContext.getFromReadSet, List.find?_nil, Option.map_none, getSimContextKey, stored]
  exact ⟨_, rfl⟩

theorem updateWith_of_getKey_error {bizId businessType : Bytes} {cause : ε}
    (failed : snapshot.getKey ⟨tx.payload.contractName, bizId ++ businessType⟩ = .error cause)
    (nonce : Bytes) :
    updateWith snapshot blockVersion tx bizId businessType nonce = updateFailed tx (bizId ++ businessType) []
        (.getFailed cause tx.payload.contractName bizId businessType) := by
  unfold updateWith simContextGet
  simp only [newTxSimContext, SimContext.getCached, SimContext.getFromWriteSet,
    SimContext.getFromReadSet, List.find?_nil, Option.map_none, getSimContextKey, failed]

theorem putIntoWriteSet_eq_none {ctx : SimContext} {loc : StateKey} :
    ctx.putIntoWriteSet loc value = none ↔ maxKeyLength < loc.key.length := by
  unfold SimContext.putIntoWriteSet
  split
  · next long => exact ⟨fun _ => long, fun _ => rfl⟩
  · next short => exact ⟨fun none => (by cases none), fun long => absurd long short⟩

theorem putNonce_eq {lastNonce : Int} (stored : parseStored value = .ok lastNonce) (bizId businessType nonce : Bytes) (ctx : SimContext) :
    putNonce tx bizId businessType nonce ctx value = (nextNonce tx bizId businessType nonce lastNonce).bind fun noncePair =>
        if maxKeyLength < (bizId ++ businessType).length then
          .error (.keyTooLong (bizId ++ businessType) tx.payload.contractName)
        else .ok noncePair := by
  unfold putNonce
  simp only [stored, getSimContextKey]
  cases nextNonce tx bizId businessType nonce lastNonce with
  | error errMsg => rfl
  | ok noncePair =>
    simp only [Except.bind]
    cases put : ctx.putIntoWriteSet ⟨tx.payload.contractName, bizId ++ businessType⟩ (formatInt noncePair) with
    | none => rw [if_pos (putIntoWriteSet_eq_none.mp put)]
    | some _ =>
      rw [if_neg fun long => Option.some_ne_none _ (put.symm.trans (putIntoWriteSet_eq_none.mpr long))]

def receiptUpdate (txId : Bytes) (parameters : List (Bytes × Bytes)) : Tx Empty Unit where
  payload :=
    { txId, txType := .invokeContract, contractName := ascii "RECEPIT"
      method := ascii "Update", parameters }
  result := none
  signers := ()

private def receiptSave : Tx Empty Unit where
  payload :=
    { txId := [3], txType := .invokeContract, contractName := ascii "RECEPIT"
      method := ascii "Save", parameters := [(nonceKey, ascii "7")] }
  result := none
  signers := ()

-- the transaction has no nonce, and none is in force for it in either batch
theorem outcomeOf_eq_withoutNonce :
    let snapshot : SnapshotImpl Unit Unit Empty := SnapshotImpl.newSnapshot 2300 [] fun _ => .ok []
    let tx := receiptUpdate [1] [(bizIdKey, ascii "a"), (businessTypeKey, ascii "b")]
    let other := receiptUpdate [2] [(bizIdKey, ascii "c"), (businessTypeKey, ascii "b")]
    (schedule snapshot 2300 [tx]).outcomeOf tx.txId = (schedule snapshot 2300 [receiptSave, other, tx]).outcomeOf tx.txId := by
  intro snapshot tx other
  refine outcomeOf_eq_of_sameParams snapshot 2300 ⟨by simp, by decide, by decide, by decide⟩
    ⟨by simp, by decide, by decide, by decide⟩ fun _ key listed => ?_
  simp only [List.mem_cons, List.not_mem_nil, or_false] at listed
  rcases listed with rfl | rfl | rfl <;> rfl

/-- An update without a nonce writes the nonce of an update of another pair. -/
theorem nonce_taken_from_earlier_update :
    let snapshot : SnapshotImpl Unit Unit Empty := SnapshotImpl.newSnapshot 2300 [] fun _ => .ok []
    let tx := receiptUpdate [1] [(bizIdKey, ascii "a"), (businessTypeKey, ascii "b")]
    let earlier := receiptUpdate [2]
      [(bizIdKey, ascii "c"), (businessTypeKey, ascii "b"), (nonceKey, ascii "7")]
    let written (txBatch : List (Tx Empty Unit)) :=
      ((schedule snapshot 2300 txBatch).outcomeOf tx.txId).1.map (·.txWrites)
    Among tx [tx] ∧ Among tx [earlier, tx] ∧ written [tx] = some [⟨ascii "RECEPIT", ascii "ab", ascii "1"⟩] ∧
      written [earlier, tx] = some [⟨ascii "RECEPIT", ascii "ab", ascii "7"⟩] := by
  refine ⟨⟨by simp, by decide, by decide, by decide⟩, ⟨by simp, by decide, by decide, by decide⟩, ?_, ?_⟩
  · rfl
  · rfl

end Isolation

end Pdcc.Scheduler.Quick
