import Pdcc.TxFilter.BirdsNest

/-!
# The duplicate check of the nest filters

Whether a filter that followed the chain says of every id if it is on the chain. The
nest may fail, may call a key out of its range, and may know keys it was not given.
-/

set_option autoImplicit false

namespace Pdcc.TxFilter

open Ledger Library

/-- The check does not panic, and an answer that it gives is right. -/
def Decides (check : Except (Failure String) Bool) (holds : Prop) : Prop :=
  ¬ Panics check ∧ ∀ found, check = .ok found → (found = true ↔ holds)

theorem decides_ok {found : Bool} {holds : Prop} : Decides (.ok found) holds ↔ (found = true ↔ holds) := by
  refine ⟨fun decides => decides.2 found rfl, fun same => ⟨not_panics_ok found, ?_⟩⟩
  intro answer given
  cases given
  exact same

theorem decides_error (cause : String) (holds : Prop) : Decides (.error (.error cause)) holds := by
  refine ⟨not_panics_error cause, ?_⟩
  intro found given
  cases given

/-- The nest's answer for a time-type id serves the filter. The sharding filter looks up every
yes and every key out of range, so that only a no for an id of the genesis block is wrong. The
other filter has no store, passes a yes on and takes an error for a no. -/
def Served (kind : Kind) (genesis : List Bytes) (above : List (List Bytes)) (txId : Bytes)
    (answer : Bytes → Except NestError Bool) : Prop :=
  match kind, toTimestampKey txId with
  | .birdsnest, none => False
  | .birdsnest, some key =>
    match answer key with
    | .error .keyTimeIsNotInTheFilterRange => False
    | .error (.other _) => ¬ ∃ block ∈ genesis :: above, txId ∈ block
    | .ok true => ∃ block ∈ genesis :: above, txId ∈ block
    | .ok false => txId ∉ genesis
  | .shardingBirdsnest, none => True
  | .shardingBirdsnest, some key => answer key = .ok false → txId ∉ genesis

section Answers

variable {nest : Nest} {store : Store} {filter : NestFilter} {txId : Bytes}
  {ruleType : List RuleType}

theorem decides_findDb (given : filter.hasStore = true) (note : String) :
    Decides (filter.findDb store txId note) (∃ block ∈ store.chain, txId ∈ block) := by
  unfold NestFilter.findDb
  rw [if_pos given]
  cases answered : store.txExists txId with
  | error error => exact decides_error _ _
  | ok found =>
    rw [decides_ok, NestFilter.answer_eq_ok answered]
    simp

theorem not_decides_findDb (missing : filter.hasStore = false) (note : String) (holds : Prop) :
    ¬ Decides (filter.findDb store txId note) holds := by
  unfold NestFilter.findDb
  rw [missing]
  exact fun decides => decides.1 (panics_panic _)

end Answers

def reliableNest : Nest where
  contains state key _ := .ok (state.added.contains key)
  addsFails _ _ := none
  contains_added := by
    intro state key _ added
    simp [added]

section Exact

variable {kind : Kind} {nest : Nest} {genesis : List Bytes} {later : List (List Bytes)}
  {fails : StoreCall → Option String} {bn : NestState} {further : List (List Bytes)} {node : Node}
  {txId key : Bytes} {ruleType : List RuleType}

theorem mem_added_of_run (recorded : ∀ block ∈ later.take bn.height, timestampKeys block ⊆ bn.added)
    (ran : run kind nest ⟨genesis, later, fails⟩ (.ok bn) further = .ok node) {block : List Bytes}
    (above : block ∈ later ++ further) (keyed : key ∈ timestampKeys block) : key ∈ node.filter.bn.added := by
  obtain ⟨_, _, added⟩ := run_eq_ok ran
  rw [added, List.mem_append, List.mem_flatMap]
  rcases List.mem_append.mp above with old | new
  · rw [← List.take_append_drop bn.height later] at old
    rcases List.mem_append.mp old with below | chased
    · exact .inl (recorded block below keyed)
    · exact .inr ⟨block, List.mem_append_left _ chased, keyed⟩
  · exact .inr ⟨block, List.mem_append_right _ new, keyed⟩

-- the nest says no only to ids of the genesis block and to ids that are on no block
theorem onChain_iff_of_denied (recorded : ∀ block ∈ later.take bn.height, timestampKeys block ⊆ bn.added)
    (ran : run kind nest ⟨genesis, later, fails⟩ (.ok bn) further = .ok node) (keyed : toTimestampKey txId = some key)
    (denied : nest.contains node.filter.bn key ruleType = .ok false) :
    (∃ block ∈ genesis :: (later ++ further), txId ∈ block) ↔ txId ∈ genesis := by
  refine ⟨?_, fun inGenesis => ⟨genesis, List.mem_cons_self, inGenesis⟩⟩
  intro onChain
  obtain ⟨block, blockIn, inBlock⟩ := onChain
  rcases List.mem_cons.mp blockIn with rfl | above
  · exact inBlock
  · have added := mem_added_of_run recorded ran above (List.mem_filterMap.mpr ⟨txId, inBlock, keyed⟩)
    exact absurd denied (nest.contains_added _ _ _ added)

theorem birdsnest_exact_iff (recorded : ∀ block ∈ later.take bn.height, timestampKeys block ⊆ bn.added)
    (ran : run .birdsnest nest ⟨genesis, later, fails⟩ (.ok bn) further = .ok node) :
    Decides (node.filter.birdsnestIsExists nest node.store txId ruleType) (∃ block ∈ genesis :: (later ++ further), txId ∈ block) ↔
      Served .birdsnest genesis (later ++ further) txId (nest.contains node.filter.bn · ruleType) := by
  obtain ⟨_, noStore, _⟩ := run_eq_ok ran
  have missing (note : String) (holds : Prop) : ¬ Decides (node.filter.findDb node.store txId note) holds :=
    not_decides_findDb noStore note holds
  unfold NestFilter.birdsnestIsExists Served
  cases keyed : toTimestampKey txId with
  | none => exact iff_of_false (missing _ _) id
  | some key =>
    dsimp only
    cases asked : nest.contains node.filter.bn key ruleType with
    | error error =>
      cases error with
      | keyTimeIsNotInTheFilterRange => exact iff_of_false (missing _ _) id
      | other text => simp [decides_ok]
    | ok contains =>
      cases contains with
      | true => simp [decides_ok]
      | false =>
        simp only [decides_ok, onChain_iff_of_denied recorded ran keyed asked]
        simp

theorem sharding_exact_iff (recorded : ∀ block ∈ later.take bn.height, timestampKeys block ⊆ bn.added)
    (ran : run .shardingBirdsnest nest ⟨genesis, later, fails⟩ (.ok bn) further = .ok node) :
    Decides (node.filter.shardingIsExists nest node.store txId ruleType) (∃ block ∈ genesis :: (later ++ further), txId ∈ block) ↔
      Served .shardingBirdsnest genesis (later ++ further) txId (nest.contains node.filter.bn · ruleType) := by
  obtain ⟨stored, hasStore, _⟩ := run_eq_ok ran
  have chain : node.store.chain = genesis :: (later ++ further) := by
    rw [stored]
    rfl
  have lookedUp (note : String) : Decides (node.filter.findDb node.store txId note) (∃ block ∈ genesis :: (later ++ further), txId ∈ block) :=
    chain ▸ decides_findDb hasStore note
  unfold NestFilter.shardingIsExists Served
  cases keyed : toTimestampKey txId with
  | none => exact iff_of_true (lookedUp _) trivial
  | some key =>
    dsimp only
    cases asked : nest.contains node.filter.bn key ruleType with
    | error error =>
      cases error with
      | keyTimeIsNotInTheFilterRange => exact iff_of_true (lookedUp _) (by simp)
      | other text => exact iff_of_true (decides_error _ _) (by simp)
    | ok contains =>
      cases contains with
      | true => exact iff_of_true (lookedUp _) (by simp)
      | false =>
        simp only [decides_ok, onChain_iff_of_denied recorded ran keyed asked]
        simp

/-- The check of an id is exact if and only if the nest's answer serves the filter. -/
theorem isExists_exact_iff (recorded : ∀ block ∈ later.take bn.height, timestampKeys block ⊆ bn.added)
    (ran : run kind nest ⟨genesis, later, fails⟩ (.ok bn) further = .ok node) (txId : Bytes)
    (ruleType : List RuleType) :
    Decides (node.filter.isExists nest node.store kind txId ruleType)
        (∃ block ∈ genesis :: (later ++ further), txId ∈ block) ↔
      Served kind genesis (later ++ further) txId (nest.contains node.filter.bn · ruleType) := by
  cases kind with
  | birdsnest => exact birdsnest_exact_iff recorded ran
  | shardingBirdsnest => exact sharding_exact_iff recorded ran

private def timeId : Bytes := ascii "0000000000000001CA"

-- the nest answers in its range for an id of a later block, which the filter without a store needs
theorem isExists_exact_inRange :
    ∃ node, run .birdsnest reliableNest ⟨[ascii "genesis"], [[timeId]], fun _ => none⟩ (.ok ⟨0, []⟩) [[ascii "tx2"]] = .ok node ∧
      Decides (node.filter.isExists reliableNest node.store .birdsnest timeId [])
        (∃ block ∈ [ascii "genesis"] :: ([[timeId]] ++ [[ascii "tx2"]]), timeId ∈ block) := by
  have ran : run .birdsnest reliableNest ⟨[ascii "genesis"], [[timeId]], fun _ => none⟩ (.ok ⟨0, []⟩) [[ascii "tx2"]] =
      .ok ⟨⟨[ascii "genesis"], [[timeId], [ascii "tx2"]], fun _ => none⟩, ⟨2, [[0, 0, 0, 0, 0, 0, 0, 1, 202]]⟩, false⟩ := rfl
  have keyed : toTimestampKey timeId = some [0, 0, 0, 0, 0, 0, 0, 1, 202] := by decide
  have recorded : ∀ block ∈ [[timeId]].take (NestState.mk 0 []).height,
      timestampKeys block ⊆ (NestState.mk 0 []).added := by simp
  refine ⟨_, ran, (isExists_exact_iff recorded ran timeId []).mpr ?_⟩
  unfold Served
  rw [keyed]
  exact ⟨[timeId], List.mem_cons_of_mem _ List.mem_cons_self, List.mem_cons_self⟩

/-- A node that committed one transaction is asked for it. Its filter panics if it has no
store. The sharding filter denies a transaction of the genesis block. -/
theorem committed_transaction_not_found :
    (∃ node, run .birdsnest reliableNest ⟨[], [], fun _ => none⟩ (.ok ⟨0, []⟩) [[ascii "tx1"]] = .ok node ∧
      Panics (node.filter.isExists reliableNest node.store .birdsnest (ascii "tx1") [])) ∧
    ∃ node, run .shardingBirdsnest reliableNest
        ⟨[ascii "0000000000000001CA"], [], fun _ => none⟩ (.ok ⟨0, []⟩) [] = .ok node ∧
      node.filter.isExists reliableNest node.store .shardingBirdsnest
        (ascii "0000000000000001CA") [] = .ok false := by
  refine ⟨⟨_, rfl, .nilDereference, ?_⟩, _, rfl, ?_⟩
  · decide
  · decide

end Exact

end Pdcc.TxFilter
