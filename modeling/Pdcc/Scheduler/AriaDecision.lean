import Pdcc.Scheduler.AriaSerial

/-!
# The abort decision of an Aria round

The three phases of a round as their goroutines run them. Whatever the
interleaving, the reservations name the smallest writer and the smallest reader
of every composed key, and a transaction is aborted exactly if an earlier one
writes a key it writes, or earlier ones both read a key it writes and write a
key it reads. The conflict check in small steps is the one of the round model.
-/

set_option autoImplicit false

namespace Pdcc.Scheduler.Aria

open Ledger Library Snapshot

variable {Tx Result : Type}

section Goroutines

inductive Scan where
  | waw
  | war
  | raw
  deriving DecidableEq

def ReserveTables.hits (tables : ReserveTables) (idx : Nat) : Scan → Bytes → Bool
  | .waw, key => (tables.reserveTable key).any fun txIndex => txIndex != idx
  | .war, key => (tables.readReserveTable key).any fun txIndex => txIndex < idx
  | .raw, key => (tables.reserveTable key).any fun txIndex => txIndex < idx

inductive Check where
  | load (idx : Nat)
  | probe (idx : Nat) (scan : Scan) (key : Bytes)
  | decideWAW (idx : Nat)
  | decideBoth (idx : Nat)
  | put (idx : Nat) (write : TxWrite)

def Check.idx : Check → Nat
  | .load idx | .probe idx _ _ | .decideWAW idx | .decideBoth idx | .put idx _ => idx

structure Goroutine where
  aborted : Bool
  returned : Bool
  found : Scan → Bool

def Goroutine.begin (aborted : Bool) : Goroutine := ⟨aborted, false, fun _ => false⟩

def Goroutine.proceed (tables : ReserveTables) (g : Goroutine) : Check → Goroutine
  | .load _ => { g with returned := g.aborted }
  | .probe idx scan key =>
    { g with found := Function.update g.found scan (g.found scan || tables.hits idx scan key) }
  | .decideWAW _ => { g with aborted := g.aborted || g.found .waw, returned := g.found .waw }
  | .decideBoth _ =>
    { g with
      aborted := g.aborted || (g.found .war && g.found .raw)
      returned := g.found .war && g.found .raw }
  | .put _ _ => g

def Goroutine.step (tables : ReserveTables) (g : Goroutine) (action : Check) : Goroutine :=
  if g.returned then g else g.proceed tables action

structure CheckState where
  goroutine : Nat → Goroutine
  applied : List TxWrite

def CheckState.start (tables : ReserveTables) : CheckState where
  goroutine idx := Goroutine.begin (tables.aborted idx)
  applied := []

def CheckState.act (tables : ReserveTables) (state : CheckState) (action : Check) : CheckState where
  goroutine := actOwned Check.idx (Goroutine.step tables) state.goroutine action
  applied := match action with
    | .put idx write =>
      if (state.goroutine idx).returned then state.applied else state.applied ++ [write]
    | _ => state.applied

def scans (idx : Nat) (writeKeys readKeys : List Bytes) : List Check :=
  .load idx :: (writeKeys.map (.probe idx .waw) ++ .decideWAW idx ::
    (writeKeys.map (.probe idx .war) ++ (readKeys.map (.probe idx .raw) ++ [.decideBoth idx])))

def checkThread (execInfos : List (TxExecInfo Tx Result)) (order : Nat → List TxWrite)
    (idx : Nat) : List Check :=
  scans idx (keysAt writeKeys execInfos idx) (keysAt readKeys execInfos idx) ++
    (order idx).map (.put idx)

def CheckState.run (tables : ReserveTables) (word : List Check) : CheckState :=
  word.foldl (CheckState.act tables) (CheckState.start tables)

/-- `checkConflicts` in some interleaving: the abort flags and the snapshot it leaves. -/
def CheckRun (tables : ReserveTables) (execInfos : List (TxExecInfo Tx Result))
    (snapshot : SnapshotImpl Tx Result Empty) (aborted : Nat → Bool)
    (snapshot' : SnapshotImpl Tx Result Empty) : Prop :=
  ∃ (order : Nat → List TxWrite) (word : List Check),
    (∀ idx info, execInfos[idx]? = some info →
      WriteOrder info.txRWSet.txWrites (order idx)) ∧
    Interleaves ((List.range execInfos.length).map (checkThread execInfos order)) word ∧
    (∀ idx, aborted idx = ((CheckState.run tables word).goroutine idx).aborted) ∧
    snapshot' = if snapshot.isSealed then snapshot
      else snapshot.putWrites (CheckState.run tables word).applied

end Goroutines

section Alone

variable (tables : ReserveTables) {g : Goroutine}

theorem Goroutine.run_returned (returned : g.returned = true) (actions : List Check) : actions.foldl (Goroutine.step tables) g = g := by
  induction actions with
  | nil => rfl
  | cons action actions ih =>
    rw [List.foldl_cons, Goroutine.step, if_pos returned, ih]

theorem Goroutine.run_cons (running : g.returned = false) (action : Check) (actions : List Check) :
    (action :: actions).foldl (Goroutine.step tables) g = actions.foldl (Goroutine.step tables) (g.proceed tables action) := by
  rw [List.foldl_cons, Goroutine.step, if_neg (by simp [running])]

theorem Goroutine.run_puts (g : Goroutine) {idx : Nat} {actions : List Check} (puts : ∀ action ∈ actions, ∃ write, action = .put idx write) :
    actions.foldl (Goroutine.step tables) g = g := by
  induction actions with
  | nil => rfl
  | cons action actions ih =>
    obtain ⟨write, isPut⟩ := puts action (.head _)
    have idle : g.step tables (.put idx write) = g := ite_self g
    rw [List.foldl_cons, isPut, idle, ih fun later member => puts later (.tail _ member)]

theorem Goroutine.run_probes (running : g.returned = false) (idx : Nat) (scan : Scan) (keys : List Bytes) :
    (keys.map (.probe idx scan)).foldl (Goroutine.step tables) g =
      { g with
        found := Function.update g.found scan
          (g.found scan || keys.any (tables.hits idx scan)) } := by
  induction keys generalizing g with
  | nil => simp
  | cons key keys ih =>
    have later := @ih (g.proceed tables (.probe idx scan key)) running
    rw [List.map_cons, Goroutine.run_cons tables running, later]
    simp [Goroutine.proceed, Bool.or_assoc]

theorem Goroutine.run_scans (info : TxExecInfo Tx Result) (idx : Nat) :
    ((scans idx (writeKeys info) (readKeys info)).foldl (Goroutine.step tables)
        (Goroutine.begin (tables.aborted idx))).aborted = tables.aborts info idx ∧
      ((scans idx (writeKeys info) (readKeys info)).foldl (Goroutine.step tables)
        (Goroutine.begin (tables.aborted idx))).returned = tables.aborts info idx := by
  rw [scans, Goroutine.run_cons tables rfl]
  cases marked : tables.aborted idx with
  | true =>
    rw [Goroutine.run_returned tables rfl, ReserveTables.aborts, marked]
    exact ⟨rfl, rfl⟩
  | false =>
    have wawScan : (writeKeys info).any (tables.hits idx .waw) = hasWAWConflict info idx tables.reserveTable := rfl
    have warScan : (writeKeys info).any (tables.hits idx .war) = hasWARConflict info idx tables.readReserveTable := rfl
    have rawScan : (readKeys info).any (tables.hits idx .raw) = hasRAWConflict info idx tables.reserveTable := rfl
    rw [List.foldl_append, Goroutine.run_probes tables rfl, Goroutine.run_cons tables rfl, wawScan, ReserveTables.aborts, marked]
    cases hasWAWConflict info idx tables.reserveTable with
    | true =>
      rw [Goroutine.run_returned tables (by simp [Goroutine.proceed, Goroutine.begin])]
      simp [Goroutine.proceed, Goroutine.begin]
    | false =>
      rw [List.foldl_append, Goroutine.run_probes tables, List.foldl_append,
        Goroutine.run_probes tables, Goroutine.run_cons tables, warScan, rawScan]
      · simp [Goroutine.proceed, Goroutine.begin]
      all_goals simp [Goroutine.proceed, Goroutine.begin]

end Alone

section Interleaved

variable {tables : ReserveTables} {execInfos : List (TxExecInfo Tx Result)}
  {order : Nat → List TxWrite} {word : List Check}

theorem CheckState.run_append (tables : ReserveTables) (word word' : List Check) :
    CheckState.run tables (word ++ word') = word'.foldl (CheckState.act tables) (CheckState.run tables word) :=
  List.foldl_append

theorem CheckState.run_goroutine (tables : ReserveTables) (word : List Check) (idx : Nat) : (CheckState.run tables word).goroutine idx =
      (word.filter fun action => action.idx = idx).foldl (Goroutine.step tables) (Goroutine.begin (tables.aborted idx)) := by
  have split : (CheckState.run tables word).goroutine =
      word.foldl (actOwned Check.idx (Goroutine.step tables)) (CheckState.start tables).goroutine :=
    (List.foldl_hom CheckState.goroutine fun _ _ => rfl).symm
  rw [split, foldl_actOwned]
  rfl

private theorem scans_idx (idx : Nat) (written read : List Bytes) :
    ∀ action ∈ scans idx written read, action.idx = idx ∧ ∀ write, action ≠ .put idx write := by
  simp [scans, Check.idx, or_imp, forall_and]

private theorem checkThread_idx (execInfos : List (TxExecInfo Tx Result)) (order : Nat → List TxWrite) (idx : Nat) :
    ∀ action ∈ checkThread execInfos order idx, action.idx = idx := by
  intro action member
  cases List.mem_append.mp member with
  | inl scanning => exact (scans_idx idx _ _ action scanning).1
  | inr putting =>
    obtain ⟨write, _, isPut⟩ := List.mem_map.mp putting
    rw [← isPut]
    rfl

def Check.lands (tables : ReserveTables) (execInfos : List (TxExecInfo Tx Result)) :
    Check → Option TxWrite
  | .put idx write =>
    if (execInfos[idx]?).any fun info => tables.aborts info idx then none else some write
  | _ => none

private theorem checkThread_lands (tables : ReserveTables) {idx : Nat} {info : TxExecInfo Tx Result} (present : execInfos[idx]? = some info) :
    (checkThread execInfos order idx).filterMap (Check.lands tables execInfos) = if tables.aborts info idx then [] else order idx := by
  have scanning : (scans idx (keysAt writeKeys execInfos idx)
      (keysAt readKeys execInfos idx)).filterMap (Check.lands tables execInfos) = [] := by
    rw [List.filterMap_eq_nil_iff]
    intro action member
    cases action with
    | load | probe | decideWAW | decideBoth => rfl
    | put owner write =>
      obtain ⟨own, notPut⟩ := scans_idx idx _ _ _ member
      exact absurd (congrArg (Check.put · write) own) (notPut write)
  rw [checkThread, List.filterMap_append, scanning, List.nil_append, List.filterMap_map]
  cases decided : tables.aborts info idx with
  | true => simp [Function.comp_def, Check.lands, present, decided]
  | false => simp [Function.comp_def, Check.lands, present, decided]

section Run

variable (interleaves :
  Interleaves ((List.range execInfos.length).map (checkThread execInfos order)) word)
include interleaves

variable {info : TxExecInfo Tx Result}

theorem CheckState.run_aborted {idx : Nat} (present : execInfos[idx]? = some info) :
    ((CheckState.run tables word).goroutine idx).aborted = tables.aborts info idx := by
  obtain ⟨inside, _⟩ := List.getElem?_eq_some_iff.mp present
  have puts : ∀ action ∈ (order idx).map (Check.put idx), ∃ write, action = .put idx write := by
    intro action member
    obtain ⟨write, _, isPut⟩ := List.mem_map.mp member
    exact ⟨write, isPut.symm⟩
  rw [CheckState.run_goroutine, interleaves.filter_owner (checkThread_idx execInfos order) inside,
    checkThread, List.foldl_append, Goroutine.run_puts tables _ puts, keysAt, keysAt, present]
  exact (Goroutine.run_scans tables info idx).1

private theorem CheckState.run_returned {before : List Check} {idx : Nat} {write : TxWrite}
    (present : execInfos[idx]? = some info) (reached : before ++ [.put idx write] <+: word) :
    ((CheckState.run tables before).goroutine idx).returned = tables.aborts info idx := by
  obtain ⟨inside, _⟩ := List.getElem?_eq_some_iff.mp present
  have own := reached.filter fun action => action.idx = idx
  rw [interleaves.filter_owner (checkThread_idx execInfos order) inside, List.filter_append,
    List.filter_cons_of_pos (by simp [Check.idx]), List.filter_nil, checkThread] at own
  rw [CheckState.run_goroutine]
  generalize (before.filter fun action => action.idx = idx) = taken at own
  have notScan : Check.put idx write ∉ scans idx (keysAt writeKeys execInfos idx) (keysAt readKeys execInfos idx) :=
    fun scanning => (scans_idx idx _ _ _ scanning).2 write rfl
  have scanned : scans idx (keysAt writeKeys execInfos idx) (keysAt readKeys execInfos idx) <+: taken := by
    cases List.prefix_or_prefix_of_prefix own (List.prefix_append _ _) with
    | inl short => exact absurd (short.subset (by simp)) notScan
    | inr long =>
      cases List.prefix_concat_iff.mp long with
      | inl whole => exact absurd (by simp [whole]) notScan
      | inr scanned => exact scanned
  obtain ⟨applied, split⟩ := scanned
  have puts : ∀ action ∈ applied, ∃ write, action = .put idx write := by
    intro action member
    rw [← split, List.append_assoc, List.prefix_append_right_inj] at own
    obtain ⟨applying, _, isPut⟩ := List.mem_map.mp (own.subset (List.mem_append_left _ member))
    exact ⟨applying, isPut.symm⟩
  rw [← split, List.foldl_append, Goroutine.run_puts tables _ puts, keysAt, keysAt, present]
  exact (Goroutine.run_scans tables info idx).2

private theorem present_of_put {idx : Nat} {write : TxWrite} (member : .put idx write ∈ word) : ∃ info, execInfos[idx]? = some info := by
  obtain ⟨_, threadMember, inThread⟩ := List.mem_flatten.mp (interleaves.perm.subset member)
  obtain ⟨owner, ownerMember, rfl⟩ := List.mem_map.mp threadMember
  have own : idx = owner := checkThread_idx execInfos order owner _ inThread
  rw [own]
  exact ⟨_, List.getElem?_eq_getElem (List.mem_range.mp ownerMember)⟩

private theorem landed_interleaves : Interleaves ((passed tables execInfos).map fun entry => order entry.2)
      (word.filterMap (Check.lands tables execInfos)) := by
  have landed := interleaves.filterMap (Check.lands tables execInfos)
  have threads : ((List.range execInfos.length).map (checkThread execInfos order)).map (·.filterMap (Check.lands tables execInfos)) =
      (execInfos.zipIdx.map fun entry => (!tables.aborts entry.1 entry.2,
        if tables.aborts entry.1 entry.2 then [] else order entry.2)).map Prod.snd := by
    rw [List.range_eq_range', ← List.zipIdx_map_snd, List.map_map, List.map_map, List.map_map]
    refine List.map_congr_left ?_
    intro entry member
    exact checkThread_lands tables (List.mem_zipIdx_iff_getElem?.mp member)
  rw [threads] at landed
  have standing := landed.dropIdle ?_
  · rw [List.filter_map, List.map_map] at standing
    have sameThreads : ((passed tables execInfos).map fun entry => order entry.2) = (passed tables execInfos).map fun entry =>
          if tables.aborts entry.1 entry.2 then [] else order entry.2 := by
      refine List.map_congr_left ?_
      intro entry passes
      rw [if_neg (by simp [(mem_passed.mp passes).2])]
    rw [sameThreads]
    exact standing
  · intro entry member
    obtain ⟨origin, _, rfl⟩ := List.mem_map.mp member
    cases tables.aborts origin.1 origin.2 with
    | true => exact fun _ => rfl
    | false => exact fun impossible => nomatch impossible

private theorem CheckState.run_applied (before : List Check) (reached : before <+: word) :
    (CheckState.run tables before).applied = before.filterMap (Check.lands tables execInfos) := by
  induction before using List.reverseRecOn with
  | nil => rfl
  | append_singleton before action ih =>
    have soFar := ih ((List.prefix_append before [action]).trans reached)
    rw [CheckState.run_append, List.filterMap_append, ← soFar]
    cases action with
    | load | probe | decideWAW | decideBoth => exact (List.append_nil _).symm
    | put idx write =>
      have member : Check.put idx write ∈ word := reached.subset (by simp)
      obtain ⟨info, present⟩ := present_of_put interleaves member
      have returned : ((CheckState.run tables before).goroutine idx).returned =
          tables.aborts info idx := CheckState.run_returned interleaves present reached
      rw [List.filterMap_cons, List.filterMap_nil, Check.lands, present, Option.any_some,
        List.foldl_cons, List.foldl_nil, CheckState.act, returned]
      cases tables.aborts info idx with
      | true => exact (List.append_nil _).symm
      | false => rfl

end Run

theorem CheckRun.refines {snapshot snapshot' : SnapshotImpl Tx Result Empty} {aborted : Nat → Bool}
    (check : CheckRun tables execInfos snapshot aborted snapshot') :
    (∀ idx info, execInfos[idx]? = some info → aborted idx = tables.aborts info idx) ∧
      CheckConflicts tables execInfos snapshot snapshot' := by
  obtain ⟨order, word, ordered, interleaves, flags, left⟩ := check
  constructor
  · intro idx info present
    rw [flags, CheckState.run_aborted interleaves present]
  · unfold CheckConflicts
    split
    · next sealing => rw [left, if_pos sealing]
    · next unsealed =>
      rw [if_neg unsealed, CheckState.run_applied interleaves word (List.prefix_refl word)] at left
      refine ⟨order, _, ?_, landed_interleaves interleaves, left⟩
      intro entry passes
      exact ordered entry.2 entry.1 (mem_passed.mp passes).1

end Interleaved

section Decision

/-- One of its keys is a key of an earlier transaction. -/
def Depends (own others : TxExecInfo Tx Result → List Bytes)
    (execInfos : List (TxExecInfo Tx Result)) (idx : Nat) : Prop :=
  ∃ earlier < idx, ∃ key ∈ keysAt own execInfos idx, key ∈ keysAt others execInfos earlier

variable {tables : ReserveTables} {execInfos : List (TxExecInfo Tx Result)}
  {info : TxExecInfo Tx Result}

private theorem any_below_iff {own others : TxExecInfo Tx Result → List Bytes} {holder : Bytes → Option Nat}
    (reserved : Reservations.Reserved (keysAt others execInfos) holder) {idx : Nat}
    (present : execInfos[idx]? = some info) :
    ((own info).any fun key => (holder key).any fun txIndex => txIndex < idx) = true ↔ Depends own others execInfos idx := by
  have keys : keysAt own execInfos idx = own info := by
    rw [keysAt, present]
    rfl
  rw [List.any_eq_true, Depends, keys]
  simp only [reserved.any_below]
  constructor
  · intro found
    obtain ⟨key, member, earlier, below, claims⟩ := found
    exact ⟨earlier, below, key, member, claims⟩
  · intro depends
    obtain ⟨earlier, below, key, member, claims⟩ := depends
    exact ⟨key, member, earlier, below, claims⟩

private theorem hasWAWConflict_eq (reserved : Reservations.Reserved (keysAt writeKeys execInfos) tables.reserveTable) {idx : Nat}
    (present : execInfos[idx]? = some info) :
    hasWAWConflict info idx tables.reserveTable = (writeKeys info).any fun key =>
        (tables.reserveTable key).any fun txIndex => txIndex < idx := by
  rw [hasWAWConflict, Bool.eq_iff_iff, List.any_eq_true, List.any_eq_true]
  refine exists_congr fun key => and_congr_right fun written => ?_
  have claims : key ∈ keysAt writeKeys execInfos idx := by
    rw [keysAt, present]
    exact written
  obtain ⟨current, held, bound⟩ := reserved.least key idx claims
  rw [held, Option.any_some, Option.any_some, bne_iff_ne, decide_eq_true_eq]
  omega

theorem aborts_iff (write : ReserveWrite execInfos tables) (read : ReserveRead execInfos tables)
    {idx : Nat} (present : execInfos[idx]? = some info) :
    tables.aborts info idx = true ↔ Depends writeKeys writeKeys execInfos idx ∨
        (Depends writeKeys readKeys execInfos idx ∧ Depends readKeys writeKeys execInfos idx) := by
  obtain ⟨reserved, blocked⟩ := write.reserved
  have marked : tables.aborted idx = true ↔ Depends writeKeys writeKeys execInfos idx := by
    rw [blocked idx]
    constructor
    · intro rivalry
      obtain ⟨key, own, rival, below, other⟩ := rivalry
      exact ⟨rival, below, key, own, other⟩
    · intro depends
      obtain ⟨rival, below, key, own, other⟩ := depends
      exact ⟨key, own, rival, below, other⟩
  rw [ReserveTables.aborts, Bool.or_eq_true, Bool.or_eq_true, Bool.and_eq_true, marked,
    hasWAWConflict_eq reserved present, hasWARConflict, hasRAWConflict,
    any_below_iff reserved present, any_below_iff read.reserved present,
    any_below_iff reserved present, or_self]

/-- Whatever the goroutines of the three phases do, every reservation is held by
the smallest transaction that writes, or reads, the composed key, and the flags
are those of Rule 2. -/
theorem decision_rule2 (execInfos : List (TxExecInfo Tx Result)) (tables : ReserveTables)
    (snapshot snapshot' : SnapshotImpl Tx Result Empty) (aborted : Nat → Bool)
    (write : ReserveWrite execInfos tables) (read : ReserveRead execInfos tables)
    (check : CheckRun tables execInfos snapshot aborted snapshot') :
    (∀ key idx, tables.reserveTable key = some idx ↔ IsLeast {idx | key ∈ keysAt writeKeys execInfos idx} idx) ∧
      (∀ key idx, tables.readReserveTable key = some idx ↔
        IsLeast {idx | key ∈ keysAt readKeys execInfos idx} idx) ∧
      ∀ idx < execInfos.length, aborted idx = true ↔ Depends writeKeys writeKeys execInfos idx ∨
          (Depends writeKeys readKeys execInfos idx ∧ Depends readKeys writeKeys execInfos idx) := by
  refine ⟨write.reserved.1.holder_iff, read.reserved.holder_iff, ?_⟩
  intro idx inside
  have present := List.getElem?_eq_getElem inside
  rw [check.refines.1 idx _ present, aborts_iff write read present]

theorem checkRun_exists (tables : ReserveTables) (execInfos : List (TxExecInfo Tx Result)) (snapshot : SnapshotImpl Tx Result Empty) :
    ∃ aborted snapshot', CheckRun tables execInfos snapshot aborted snapshot' := by
  refine ⟨_, _, fun idx => (execInfos[idx]?).elim [] fun info => info.txRWSet.txWrites, _, ?_, .sequential _, fun _ => rfl, rfl⟩
  intro idx info present
  simp only [present]
  exact WriteOrder.refl _

def crossing : List (TxExecInfo Unit Unit) :=
  [⟨(), ⟨ascii "t0", [⟨ascii "token", ascii "a", []⟩], [⟨ascii "token", ascii "b", [1]⟩]⟩, ()⟩,
    ⟨(), ⟨ascii "t1", [⟨ascii "token", ascii "b", []⟩], [⟨ascii "token", ascii "a", [2]⟩]⟩, ()⟩]

theorem decision_rule2_crossing :
    ∃ tables aborted snapshot', ReserveWrite crossing tables ∧ ReserveRead crossing tables ∧
      CheckRun tables crossing (SnapshotImpl.newSnapshot v235 [] emptyStore) aborted snapshot' ∧
      aborted 0 = false ∧ aborted 1 = true := by
  obtain ⟨tables, write, read⟩ := reserve_exists crossing
  obtain ⟨aborted, snapshot', check⟩ := checkRun_exists tables crossing
    (SnapshotImpl.newSnapshot v235 [] emptyStore)
  obtain ⟨_, _, flags⟩ := decision_rule2 crossing tables _ snapshot' aborted write read check
  refine ⟨tables, aborted, snapshot', write, read, check, ?_, ?_⟩
  · rw [← Bool.not_eq_true, flags 0 (by decide)]
    simp [Depends]
  · rw [flags 1 (by decide)]
    exact .inr ⟨⟨0, by decide, ascii "tokena", by decide, by decide⟩,
      ⟨0, by decide, ascii "tokenb", by decide, by decide⟩⟩

end Decision

end Pdcc.Scheduler.Aria
