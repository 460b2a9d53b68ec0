import Pdcc.Scheduler.Rounds
import Pdcc.Library.Reservation

/-!
# The Aria scheduler

`AriaScheduler.Schedule` executes the front of the batch on one snapshot and
lets the transactions race for reservations of the keys they write and read. A
transaction aborts if an earlier one writes one of its keys, or if it both
depends on an earlier write and overwrites an earlier read. All other
transactions apply their writes concurrently.
-/

set_option autoImplicit false

namespace Pdcc.Scheduler.Aria

open Ledger Library Snapshot

def batchSize : Nat := 100

section Reserve

variable {Tx Result : Type}

def writeKeys (info : TxExecInfo Tx Result) : List Bytes :=
  info.txRWSet.txWrites.map fun txWrite => constructKey txWrite.contractName txWrite.key

def readKeys (info : TxExecInfo Tx Result) : List Bytes :=
  info.txRWSet.txReads.map fun txRead => constructKey txRead.contractName txRead.key

def keysAt (keys : TxExecInfo Tx Result → List Bytes) (execInfos : List (TxExecInfo Tx Result))
    (idx : Nat) : List Bytes :=
  (execInfos[idx]?).elim [] keys

structure ReserveTables where
  reserveTable : Bytes → Option Nat
  aborted : Nat → Bool
  readReserveTable : Bytes → Option Nat

/-- The tables that some interleaving of the writing goroutines leaves. -/
def ReserveWrite (execInfos : List (TxExecInfo Tx Result)) (tables : ReserveTables) : Prop :=
  ∃ word, Interleaves ((List.range execInfos.length).map fun idx =>
      Reservations.claimThread idx (keysAt writeKeys execInfos idx) ++ [.conclude idx]) word ∧
    tables.reserveTable = (word.foldl Reservations.act Reservations.init).holder ∧
    tables.aborted = (word.foldl Reservations.act Reservations.init).lost

/-- The same for the reads. -/
def ReserveRead (execInfos : List (TxExecInfo Tx Result)) (tables : ReserveTables) : Prop :=
  ∃ word, Interleaves ((List.range execInfos.length).map fun idx =>
      Reservations.claimThread idx (keysAt readKeys execInfos idx)) word ∧
    tables.readReserveTable = word.foldl Reservations.observe fun _ => none

end Reserve

section Check

variable {Tx Result : Type} (info : TxExecInfo Tx Result)

def hasWAWConflict (idx : Nat) (reserveTable : Bytes → Option Nat) : Bool :=
  (writeKeys info).any fun key => (reserveTable key).any fun txIndex => txIndex != idx

def hasRAWConflict (idx : Nat) (reserveTable : Bytes → Option Nat) : Bool :=
  (readKeys info).any fun key => (reserveTable key).any fun txIndex => txIndex < idx

def hasWARConflict (idx : Nat) (readReserveTable : Bytes → Option Nat) : Bool :=
  (writeKeys info).any fun key => (readReserveTable key).any fun txIndex => txIndex < idx

variable (tables : ReserveTables)

def ReserveTables.aborts (idx : Nat) : Bool :=
  tables.aborted idx || hasWAWConflict info idx tables.reserveTable ||
    (hasWARConflict info idx tables.readReserveTable &&
      hasRAWConflict info idx tables.reserveTable)

variable (execInfos : List (TxExecInfo Tx Result))

def passed : List (TxExecInfo Tx Result × Nat) :=
  execInfos.zipIdx.filter fun entry => !tables.aborts entry.1 entry.2

def committed : List (TxExecInfo Tx Result) :=
  (passed tables execInfos).map Prod.fst

def abortedTxs : List Tx :=
  (execInfos.zipIdx.filter fun entry => tables.aborts entry.1 entry.2).map (·.1.tx)

def CheckConflicts (snapshot snapshot' : SnapshotImpl Tx Result Empty) : Prop :=
  if snapshot.isSealed then snapshot' = snapshot
  else ∃ (order : Nat → List TxWrite) (word : List TxWrite),
    (∀ entry ∈ passed tables execInfos,
      WriteOrder entry.1.txRWSet.txWrites (order entry.2)) ∧
    Interleaves ((passed tables execInfos).map fun entry => order entry.2) word ∧
    snapshot' = snapshot.putWrites word

end Check

section Loop

variable {Tx Result : Type} (vm : VirtualMachine Tx Result)

def afterRound (now : Progress Tx Result) (tables : ReserveTables)
    (snapshot : SnapshotImpl Tx Result Empty) : Progress Tx Result :=
  now.commit batchSize (fun info => vm.txId info.tx)
    (committed tables (now.execInfos vm batchSize))
    (abortedTxs tables (now.execInfos vm batchSize)) snapshot

/-- The loop with the committed group of each round; the flag says whether it timed out. -/
inductive Loop : Progress Tx Result → List (List (TxExecInfo Tx Result)) → Bool →
    Progress Tx Result → Prop where
  | done {now} : now.txBatch = [] → Loop now [] false now
  | timeout {now} : now.txBatch ≠ [] → Loop now [] true { now with roundNum := now.roundNum + 1 }
  | round {now tables snapshot groups timedOut final} :
      now.txBatch ≠ [] →
      ReserveWrite (now.execInfos vm batchSize) tables →
      ReserveRead (now.execInfos vm batchSize) tables →
      CheckConflicts tables (now.execInfos vm batchSize) now.snapshot snapshot →
      Loop (afterRound vm now tables snapshot) groups timedOut final →
      Loop now (committed tables (now.execInfos vm batchSize) :: groups) timedOut final

def Schedule (txBatch : List Tx) (snapshot : SnapshotImpl Tx Result Empty)
    (groups : List (List (TxExecInfo Tx Result))) (timedOut : Bool)
    (final : Progress Tx Result) : Prop :=
  Loop vm (Progress.start txBatch snapshot) groups timedOut final

end Loop

end Pdcc.Scheduler.Aria
