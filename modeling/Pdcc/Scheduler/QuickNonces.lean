import Pdcc.Scheduler.QuickSchedule

/-!
# Versions under the quick schedule

The nonces that the updates of a batch write: which number an update asks for, when it
gets it, and what the updates of other pairs have to do with it.
-/

set_option autoImplicit false

namespace Pdcc.Scheduler.Quick

open Ledger Library
open Snapshot (SnapshotImpl szContractList)

variable {ε Signers SnapshotTx SnapshotResult : Type}

def minInt64 : Int := -2 ^ 63

section Requests

inductive Request where
  | next
  | exactly (nonce : Int)
  | never
  deriving DecidableEq, Repr

def request (nonce : Bytes) : Request :=
  if nonce = [] then .next
  else
    match parseInt nonce with
    | .error _ => .never
    | .ok nonceInt => if nonceInt = minInt64 then .never else .exactly nonceInt

def Request.grant (lastNonce : Int) : Request → Option Int
  | .next => some (addInt64 lastNonce 1)
  | .exactly nonce => if lastNonce < nonce then some nonce else none
  | .never => none

/-- The number that a request is about, without the bound of machine integers. -/
def Request.wanted (lastNonce : Int) : Request → Option Int
  | .next => some (lastNonce + 1)
  | .exactly nonce => if lastNonce < nonce then some nonce else none
  | .never => none

theorem addInt64_bounds (left right : Int) : minInt64 ≤ addInt64 left right ∧ addInt64 left right < 2 ^ 63 :=
  ⟨Int.le_bmod (by decide), Int.bmod_lt (by decide)⟩

theorem bounds_of_request {nonce : Bytes} {asked : Int} (exact : request nonce = .exactly asked) : minInt64 < asked ∧ asked < 2 ^ 63 := by
  unfold request at exact
  split at exact
  · cases exact
  · split at exact
    · cases exact
    · next parsed =>
      split at exact
      · cases exact
      · next more =>
        cases exact
        have least := parseInt_ge parsed
        unfold minInt64 at *
        exact ⟨by omega, parseInt_lt parsed⟩

theorem nextNonce_toOption (tx : Tx ε Signers) (bizId businessType nonce : Bytes) {lastNonce : Int} (least : minInt64 ≤ lastNonce) :
    (nextNonce tx bizId businessType nonce lastNonce).toOption = (request nonce).grant lastNonce := by
  unfold nextNonce request
  by_cases empty : nonce = []
  · rw [if_pos empty, if_pos empty]
    rfl
  · rw [if_neg empty, if_neg empty]
    cases parseInt nonce with
    | error cause => rfl
    | ok nonceInt =>
      dsimp only
      by_cases smallest : nonceInt = minInt64
      · rw [if_pos (by omega), if_pos smallest]
        rfl
      · rw [if_neg smallest, Request.grant]
        by_cases more : lastNonce < nonceInt
        · rw [if_neg (by omega), if_pos more]
          rfl
        · rw [if_pos (by omega), if_neg more]
          rfl

end Requests

section Runs

def noncesInForce (force : Bytes) : List (Tx ε Signers) → List (Tx ε Signers × Bytes)
  | [] => []
  | tx :: rest =>
    if isUpdate tx then
      let force := (ownParam tx nonceKey).getD force
      (tx, force) :: noncesInForce force rest
    else noncesInForce force rest

def updateKey (tx : Tx ε Signers) : Bytes := getSimContextKey (bizPair tx).1 (bizPair tx).2

def location (tx : Tx ε Signers) : StateKey := ⟨tx.payload.contractName, updateKey tx⟩

def Fits (tx : Tx ε Signers) : Prop := (updateKey tx).length ≤ maxKeyLength

instance (tx : Tx ε Signers) : Decidable (Fits tx) := inferInstanceAs (Decidable (_ ≤ _))

/-- The transaction has parameters of its own for both parts of the key. -/
def CarriesKey (tx : Tx ε Signers) : Prop :=
  (ownParam tx bizIdKey).isSome ∧ (ownParam tx businessTypeKey).isSome

instance (tx : Tx ε Signers) : Decidable (CarriesKey tx) := inferInstanceAs (Decidable (_ ∧ _))

variable (snapshot : SnapshotImpl SnapshotTx SnapshotResult ε) (blockVersion : Nat)

def updateRuns (txBatch : List (Tx ε Signers)) : List (Tx ε Signers × Outcome ε) :=
  (runs snapshot blockVersion ∅ txBatch).filter (isUpdate ·.1)

def updateOutcome (entry : Tx ε Signers × Bytes) : Outcome ε :=
  updateWith snapshot blockVersion entry.1 (bizPair entry.1).1 (bizPair entry.1).2 entry.2

variable {snapshot blockVersion}

theorem filter_runs {txs : List (Tx ε Signers)} (carries : ∀ tx ∈ txs, CarriesKey tx) (paramMap : ParamMap) :
    (runs snapshot blockVersion paramMap txs).filter (isUpdate ·.1) = (noncesInForce (param paramMap nonceKey) txs).map fun entry =>
        (entry.1, updateOutcome snapshot blockVersion entry) := by
  induction txs generalizing paramMap with
  | nil => rfl
  | cons tx rest ih =>
    obtain ⟨here, later⟩ := List.forall_mem_cons.mp carries
    simp only [runs, noncesInForce]
    by_cases updates : isUpdate tx
    · obtain ⟨bizId, ownBizId⟩ := Option.isSome_iff_exists.mp here.1
      obtain ⟨businessType, ownBusinessType⟩ := Option.isSome_iff_exists.mp here.2
      rw [List.filter_cons, if_pos updates, if_pos updates, runContract_update updates, ih later]
      simp only [param_putParams, List.map_cons, updateOutcome, bizPair, ownBizId, ownBusinessType, Option.getD_some]
    · obtain ⟨outcome, ran⟩ := runContract_other snapshot blockVersion updates
      rw [List.filter_cons, if_neg updates, if_neg updates, ran, ih later]

theorem updateRuns_eq {txBatch : List (Tx ε Signers)} (carries : ∀ tx ∈ txBatch, CarriesKey tx) :
    updateRuns snapshot blockVersion txBatch = (noncesInForce [] txBatch).map fun entry =>
        (entry.1, updateOutcome snapshot blockVersion entry) :=
  filter_runs carries ∅

end Runs

section Nonces

variable (snapshot : SnapshotImpl SnapshotTx SnapshotResult ε)

def storedNonce (loc : StateKey) : Option Int :=
  (snapshot.getKey loc).toOption.bind fun value => (parseStored value).toOption

def Outcome.written (outcome : Outcome ε) : Option Int :=
  if outcome.result.code = .success then
    outcome.txRWSet.txWrites.head?.bind fun write => (parseInt write.value).toOption
  else none

variable (entry : Tx ε Signers × Bytes)

def asks : Request :=
  if Fits entry.1 then request entry.2 else .never

def granted : Option Int :=
  (storedNonce snapshot (location entry.1)).bind fun lastNonce => (asks entry).grant lastNonce

/-- An update that takes the next nonce finds one: the stored nonce is not the largest. -/
def HasRoom : Prop :=
  asks entry = .next → storedNonce snapshot (location entry.1) ≠ some (2 ^ 63 - 1)

variable {snapshot : SnapshotImpl SnapshotTx SnapshotResult ε} {blockVersion : Nat}

theorem parseStored_lt {value : Bytes} {lastNonce : Int} (stored : parseStored value = .ok lastNonce) : lastNonce < 2 ^ 63 := by
  unfold parseStored at stored
  split at stored
  · cases stored
    decide
  · exact parseInt_lt stored

theorem parseStored_ge {value : Bytes} {lastNonce : Int} (stored : parseStored value = .ok lastNonce) : minInt64 ≤ lastNonce := by
  unfold parseStored at stored
  split at stored
  · cases stored
    decide
  · exact parseInt_ge stored

variable {entry : Tx ε Signers × Bytes}

theorem bounds_of_asks {nonce : Int} (exact : asks entry = .exactly nonce) : minInt64 < nonce ∧ nonce < 2 ^ 63 := by
  unfold asks at exact
  split at exact
  · exact bounds_of_request exact
  · cases exact

theorem putNonce_toOption (tx : Tx ε Signers) (nonce : Bytes) (ctx : SimContext) (value : Bytes) :
    (putNonce tx (bizPair tx).1 (bizPair tx).2 nonce ctx value).toOption =
      (parseStored value).toOption.bind fun lastNonce => (asks (tx, nonce)).grant lastNonce := by
  cases parsed : parseStored value with
  | error cause =>
    simp only [putNonce, parsed]
    rfl
  | ok lastNonce =>
    have asked := nextNonce_toOption tx (bizPair tx).1 (bizPair tx).2 nonce (parseStored_ge parsed)
    rw [putNonce_eq parsed]
    simp only [Except.toOption, Option.bind_some, asks] at asked ⊢
    by_cases fits : Fits tx
    · have short : ¬ maxKeyLength < ((bizPair tx).1 ++ (bizPair tx).2).length := not_lt.mpr fits
      rw [if_pos fits, ← asked]
      cases nextNonce tx (bizPair tx).1 (bizPair tx).2 nonce lastNonce with
      | error errMsg => rfl
      | ok noncePair => simp only [Except.bind, if_neg short]
    · have long : maxKeyLength < ((bizPair tx).1 ++ (bizPair tx).2).length := not_le.mp fits
      rw [if_neg fits]
      cases nextNonce tx (bizPair tx).1 (bizPair tx).2 nonce lastNonce with
      | error errMsg => rfl
      | ok noncePair =>
        simp only [Except.bind, if_pos long]
        rfl

variable (blockVersion) in
theorem updateOutcome_cases (entry : Tx ε Signers × Bytes) : (granted snapshot entry = none ∧ ∃ value errMsg,
        updateOutcome snapshot blockVersion entry = updateFailed entry.1 (updateKey entry.1) value errMsg) ∨
      ∃ nonce value, granted snapshot entry = some nonce ∧ updateOutcome snapshot blockVersion entry =
          updateDone entry.1 (updateKey entry.1) value nonce := by
  obtain ⟨tx, nonce⟩ := entry
  unfold updateOutcome granted storedNonce
  cases stored : snapshot.getKey (location tx) with
  | error cause =>
    left
    exact ⟨rfl, [], _, updateWith_of_getKey_error stored nonce⟩
  | ok value =>
    obtain ⟨ctx, ran⟩ := updateWith_of_getKey blockVersion stored nonce
    have grants := putNonce_toOption tx nonce ctx value
    simp only [Except.toOption, Option.bind_some] at grants ⊢
    rw [ran, ← grants]
    cases putNonce tx (bizPair tx).1 (bizPair tx).2 nonce ctx value with
    | error errMsg => exact .inl ⟨rfl, value, errMsg, rfl⟩
    | ok noncePair => exact .inr ⟨noncePair, value, rfl, rfl⟩

theorem granted_bounds {nonce : Int} (grants : granted snapshot entry = some nonce) : minInt64 ≤ nonce ∧ nonce < 2 ^ 63 := by
  obtain ⟨lastNonce, _, grants⟩ := Option.bind_eq_some_iff.mp grants
  cases asked : asks entry with
  | next =>
    rw [asked] at grants
    cases grants
    exact addInt64_bounds lastNonce 1
  | exactly number =>
    rw [asked, Request.grant] at grants
    split at grants
    · cases grants
      have bounds := bounds_of_asks asked
      exact ⟨le_of_lt bounds.1, bounds.2⟩
    · cases grants
  | never =>
    rw [asked] at grants
    cases grants

theorem written_updateOutcome :
    (updateOutcome snapshot blockVersion entry).written = granted snapshot entry := by
  rcases updateOutcome_cases blockVersion entry with
    ⟨none, value, errMsg, failed⟩ | ⟨nonce, value, grants, done⟩
  · rw [failed, none]
    rfl
  · have bounds := granted_bounds grants
    rw [done, grants]
    unfold Outcome.written updateDone
    simp [genDefaultTxResult, parseInt_formatInt bounds.1 bounds.2, Except.toOption]

theorem storedNonce_bounds {loc : StateKey} {lastNonce : Int} (stored : storedNonce snapshot loc = some lastNonce) :
    minInt64 ≤ lastNonce ∧ lastNonce < 2 ^ 63 := by
  obtain ⟨value, _, parsed⟩ := Option.bind_eq_some_iff.mp stored
  cases read : parseStored value with
  | error cause =>
    rw [read] at parsed
    cases parsed
  | ok number =>
    rw [read] at parsed
    cases parsed
    exact ⟨parseStored_ge read, parseStored_lt read⟩

end Nonces

section Versions

variable (snapshot : SnapshotImpl SnapshotTx SnapshotResult ε) (blockVersion : Nat)

def ofGroup (contractName : Bytes) (pair : Bytes × Bytes) (tx : Tx ε Signers) : Bool :=
  tx.payload.contractName = contractName ∧ bizPair tx = pair

def writtenNonces (txBatch : List (Tx ε Signers)) : List (Tx ε Signers × Option Int) :=
  (updateRuns snapshot blockVersion txBatch).map fun run => (run.1, run.2.written)

/-- The versions written for a pair increase and exceed the stored one, and pairs do not disturb
each other. -/
structure VersionsIncrease (txBatch : List (Tx ε Signers)) : Prop where
  increasing : ∀ contractName pair,
    (((writtenNonces snapshot blockVersion txBatch).filter
      (ofGroup contractName pair ·.1)).filterMap (·.2)).Pairwise (· < ·)
  exceeding : ∀ tx nonce, (tx, some nonce) ∈ writtenNonces snapshot blockVersion txBatch →
    ∃ lastNonce, storedNonce snapshot (location tx) = some lastNonce ∧ lastNonce < nonce
  uninfluenced : ∀ pair,
    (writtenNonces snapshot blockVersion txBatch).filter (bizPair ·.1 = pair) =
      writtenNonces snapshot blockVersion (txBatch.filter (bizPair · = pair))
  notOverwritten : ∀ run ∈ updateRuns snapshot blockVersion txBatch,
    ∀ other ∈ updateRuns snapshot blockVersion txBatch, bizPair run.1 ≠ bizPair other.1 →
      ∀ write ∈ run.2.txRWSet.txWrites, write.location ≠ location other.1

variable {snapshot blockVersion} {txBatch : List (Tx ε Signers)}

theorem writtenNonces_eq (carries : ∀ tx ∈ txBatch, CarriesKey tx) : writtenNonces snapshot blockVersion txBatch =
      (noncesInForce [] txBatch).map fun entry => (entry.1, granted snapshot entry) := by
  rw [writtenNonces, updateRuns_eq carries, List.map_map]
  refine List.map_congr_left fun entry _ => ?_
  rw [Function.comp_apply, written_updateOutcome]

section Exactness

variable {txBatch : List (Tx ε Signers)} (carries : ∀ tx ∈ txBatch, CarriesKey tx)

include carries

theorem VersionsIncrease.room (increase : VersionsIncrease snapshot blockVersion txBatch) :
    ∀ entry ∈ noncesInForce [] txBatch, HasRoom snapshot entry := by
  intro entry listed asked stored
  have wraps : granted snapshot entry = some minInt64 := by
    rw [granted, stored, asked]
    rfl
  obtain ⟨lastNonce, here, more⟩ := increase.exceeding entry.1 minInt64 (by
    rw [writtenNonces_eq carries]
    exact List.mem_map.mpr ⟨entry, listed, by rw [wraps]⟩)
  have least := (storedNonce_bounds here).1
  omega

theorem VersionsIncrease.apart (increase : VersionsIncrease snapshot blockVersion txBatch) {entry other : Tx ε Signers × Bytes}
    (listed : entry ∈ noncesInForce [] txBatch) (otherListed : other ∈ noncesInForce [] txBatch)
    (different : bizPair entry.1 ≠ bizPair other.1) (grants : granted snapshot entry ≠ none) : location entry.1 ≠ location other.1 := by
  have runListed {entry : Tx ε Signers × Bytes} (listed : entry ∈ noncesInForce [] txBatch) :
      (entry.1, updateOutcome snapshot blockVersion entry) ∈ updateRuns snapshot blockVersion txBatch := by
    rw [updateRuns_eq carries]
    exact List.mem_map_of_mem listed
  have apart := increase.notOverwritten _ (runListed listed) _ (runListed otherListed) different
  rcases updateOutcome_cases blockVersion entry with
    ⟨none, _⟩ | ⟨_, value, _, done⟩
  · exact absurd none grants
  · rw [done] at apart
    exact apart _ List.mem_cons_self

end Exactness

end Versions

end Pdcc.Scheduler.Quick
