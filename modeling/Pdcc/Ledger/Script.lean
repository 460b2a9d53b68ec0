import Pdcc.Ledger.ReadWriteSet

/-!
# Straight-line transactions

Transactions that read a fixed list of locations and make a fixed list of
writes. They are the smallest programs on which schedulers can differ.
-/

set_option autoImplicit false

namespace Pdcc.Ledger

structure Script where
  txId : Bytes
  reads : List StateKey
  writes : List TxWrite
  distinct : (writes.map (·.location)).Nodup

def Script.rwSet (script : Script) (view : StateKey → Bytes) : TxRWSet where
  txId := script.txId
  txReads := script.reads.map fun loc => ⟨loc.contractName, loc.key, view loc⟩
  txWrites := script.writes

@[simp] theorem Script.rwSet_txWrites (script : Script) (view : StateKey → Bytes) : (script.rwSet view).txWrites = script.writes := rfl

theorem Script.rwSet_readLocations (script : Script) (view : StateKey → Bytes) : (script.rwSet view).readLocations = script.reads := by
  rw [TxRWSet.readLocations, Script.rwSet, List.map_map]
  exact List.map_id _

theorem Script.rwSet_congr (script : Script) {view view' : StateKey → Bytes} (agree : ∀ loc ∈ script.reads, view' loc = view loc) :
    script.rwSet view' = script.rwSet view := by
  rw [Script.rwSet, Script.rwSet, TxRWSet.mk.injEq]
  refine ⟨rfl, List.map_congr_left fun loc member => ?_, rfl⟩
  rw [agree loc member]

def scriptMachine : VirtualMachine Script Unit where
  txId script := script.txId
  executeTx script view := (script.rwSet view, ())
  txId_eq _ _ := rfl
  read_value script view read member := by
    obtain ⟨loc, _, rfl⟩ := List.mem_map.mp member
    rfl
  reads_determine script view view' agree := by
    rw [script.rwSet_congr]
    intro loc member
    exact agree ⟨loc.contractName, loc.key, view loc⟩ (List.mem_map.mpr ⟨loc, member, rfl⟩)
  writes_distinct script _ := script.distinct

@[simp] theorem scriptMachine_executeTx (script : Script) (view : StateKey → Bytes) :
    scriptMachine.executeTx script view = (script.rwSet view, ()) := rfl

theorem scriptMachine_confined {scope : Set StateKey} {script : Script} (reads : ∀ loc ∈ script.reads, loc ∈ scope)
    (writes : ∀ write ∈ script.writes, write.location ∈ scope) :
    scriptMachine.Confined scope script := by
  intro view
  rw [scriptMachine_executeTx, Script.rwSet_readLocations]
  exact ⟨reads, writes⟩

namespace Script

def writing (txId : Bytes) (loc : StateKey) (value : Bytes) : Script where
  txId := txId
  reads := []
  writes := [⟨loc.contractName, loc.key, value⟩]
  distinct := by simp

def reading (txId : Bytes) (loc : StateKey) : Script where
  txId := txId
  reads := [loc]
  writes := []
  distinct := by simp

def idle (txId : Bytes) : Script where
  txId := txId
  reads := []
  writes := []
  distinct := by simp

variable {scope : Set StateKey} (txId : Bytes)

theorem writing_confined {loc : StateKey} (inScope : loc ∈ scope) (value : Bytes) : scriptMachine.Confined scope (writing txId loc value) :=
  scriptMachine_confined (by simp [writing]) (by simp [writing, TxWrite.location, inScope])

theorem reading_confined {loc : StateKey} (inScope : loc ∈ scope) : scriptMachine.Confined scope (reading txId loc) :=
  scriptMachine_confined (by simp [reading, inScope]) (by simp [reading])

end Script

end Pdcc.Ledger
