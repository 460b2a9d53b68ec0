import Mathlib.Data.Int.Range
import Mathlib.Data.List.Range
import Mathlib.Logic.Relation

/-!
# The course of a subscription

A subscription first sends the blocks that the store has, from the requested start,
and then waits for events of new blocks and sends what is missing. The two phases
hand over through the height that was sent last. The chain grows meanwhile; events
come late and in any order, since goroutines of their own send them, and an event
is dropped while another one waits in the channel.
-/

set_option autoImplicit false

namespace Pdcc.Rpc

section Model

inductive SubscriptionKind where
  | block
  | tx
  deriving DecidableEq

def checkSubscribeBlockHeight (startBlockHeight endBlockHeight : Int) : Except String Unit :=
  if startBlockHeight < -1 ∨ endBlockHeight < -1 ∨
      (endBlockHeight ≠ -1 ∧ startBlockHeight > endBlockHeight) then
    .error "invalid start block height or end block height"
  else .ok ()

structure Request where
  kind : SubscriptionKind
  startBlock : Int
  endBlock : Int
  accepted : checkSubscribeBlockHeight startBlock endBlock = .ok ()

inductive AfterHistory where
  | finish
  | handOver
  | live
  deriving DecidableEq

inductive Phase where
  | checking
  | deciding
  | history (i : Int) (after : AfterHistory)
  | starting (already : Int)
  | loading (already : Int)
  | live (already : Int)
  | woken (already : Int)
  | ended (ok : Bool)
  deriving DecidableEq

/-- `lastBlock` is the height of the store. `lastBlockHeight` and `blockC` belong to
the goroutine that receives the events; `blockC` tells whether an event waits. -/
structure State where
  lastBlock : Nat
  listening : Bool
  lastBlockHeight : Int
  blockC : Bool
  processed : List Int
  phase : Phase

def State.init (lastBlock : Nat) : State := ⟨lastBlock, false, 0, false, [], .checking⟩

def State.getBlock (s : State) (i : Int) : Bool := decide (0 ≤ i ∧ i ≤ s.lastBlock)

namespace Request

def onlyNew (r : Request) : Prop := r.startBlock = -1 ∧ r.endBlock = -1

instance (r : Request) : Decidable r.onlyNew := inferInstanceAs (Decidable (_ ∧ _))

def past (r : Request) (i : Int) : Prop := r.endBlock ≠ -1 ∧ r.endBlock < i

instance (r : Request) (i : Int) : Decidable (r.past i) := inferInstanceAs (Decidable (_ ∧ _))

def sendBlock (r : Request) (lastBlock : Nat) : Phase :=
  if (lastBlock : Int) < r.startBlock then .ended false
  else if r.onlyNew then .starting (-1)
  else if r.endBlock ≠ -1 ∧ r.endBlock ≤ lastBlock then .history r.startBlock .finish
  else .history r.startBlock .handOver

def doSendTx (r : Request) (lastBlock : Nat) : Phase :=
  if r.onlyNew then .starting (-1)
  else if (lastBlock : Int) < max r.startBlock 0 then .ended false
  else if r.endBlock ≠ -1 ∧ r.endBlock ≤ lastBlock then .history (max r.startBlock 0) .finish
  else .history (max r.startBlock 0) .handOver

def returned (r : Request) (already : Int) : AfterHistory → Phase
  | .finish => .ended true
  | .live => .live already
  | .handOver =>
    match r.kind with
    | .block => .starting already
    | .tx => if already = 0 then .ended true else .starting already

end Request

/-- The steps of store, events and subscription while the client stays connected. -/
inductive Step (r : Request) : State → State → Prop where
  | commit {s} : Step r s { s with lastBlock := s.lastBlock + 1 }
  | event {s : State} {height : Nat} : s.listening = true → height ≤ s.lastBlock →
      Step r s { s with lastBlockHeight := height, blockC := true }
  | check {s} : s.phase = .checking →
      Step r s { s with
        phase := if (s.lastBlock : Int) < r.startBlock then .ended false else .deciding }
  | decideBlock {s} : s.phase = .deciding → r.kind = .block →
      Step r s { s with phase := r.sendBlock s.lastBlock }
  | decideTx {s} : s.phase = .deciding → r.kind = .tx →
      Step r s { s with phase := r.doSendTx s.lastBlock }
  | stop {s i after} : s.phase = .history i after → r.past i →
      Step r s { s with phase := r.returned (i - 1) after }
  | miss {s i after} : s.phase = .history i after → ¬ r.past i → s.getBlock i = false →
      Step r s { s with phase := r.returned (i - 1) after }
  | send {s i after} : s.phase = .history i after → ¬ r.past i → s.getBlock i = true →
      Step r s { s with processed := s.processed ++ [i], phase := .history (i + 1) after }
  | start {s already} : s.phase = .starting already →
      Step r s { s with
        listening := true
        lastBlockHeight := s.lastBlock
        phase := .loading already }
  | load {s already} : s.phase = .loading already →
      Step r s { s with phase := .live (if already = -1 then s.lastBlockHeight else already) }
  | wake {s already} : s.phase = .live already → s.blockC = true →
      Step r s { s with
        blockC := false
        phase := if r.endBlock ≠ -1 ∧ already ≥ r.endBlock then .ended true
          else .woken already }
  | test {s already} : s.phase = .woken already →
      Step r s { s with
        phase := if already < s.lastBlockHeight then .history (already + 1) .live
          else .live already }

/-- The states of a subscription on a chain that had this height when it began. -/
def Reachable (r : Request) (lastBlock : Nat) (s : State) : Prop :=
  Relation.ReflTransGen (Step r) (.init lastBlock) s

end Model

section Window

variable {r : Request}

theorem Request.bounds (r : Request) : -1 ≤ r.startBlock ∧ -1 ≤ r.endBlock ∧ (r.endBlock = -1 ∨ r.startBlock ≤ r.endBlock) := by
  have accepted := r.accepted
  unfold checkSubscribeBlockHeight at accepted
  split at accepted
  next => cases accepted
  next fits => omega

theorem range_self (first : Int) : Int.range first first = [] := by
  simp [Int.range]

variable {next : Int} {processed : List Int} {s : State}

theorem range_succ {first : Int} (ordered : first ≤ next) : Int.range first (next + 1) = Int.range first next ++ [next] := by
  have size : (next + 1 - first).toNat = (next - first).toNat + 1 := by omega
  have last : first + ((next - first).toNat : Int) = next := by omega
  rw [Int.range, size, List.range_succ, List.map_append, List.map_singleton, last, Int.range]

def Window (r : Request) (processed : List Int) (next : Int) : Prop :=
  ∃ first ≤ next, processed = Int.range first next ∧
    (r.onlyNew ∨ first = max r.startBlock 0) ∧ (r.endBlock ≠ -1 → next ≤ r.endBlock + 1)

theorem Window.empty (start : r.onlyNew ∨ next = max r.startBlock 0) (inside : r.endBlock ≠ -1 → next ≤ r.endBlock + 1) : Window r [] next :=
  ⟨next, le_refl _, (range_self next).symm, start, inside⟩

theorem Window.send (window : Window r processed next) (inside : ¬ r.past next) : Window r (processed ++ [next]) (next + 1) := by
  obtain ⟨first, ordered, rfl, start, _⟩ := window
  refine ⟨first, by omega, (range_succ ordered).symm, start, ?_⟩
  intro bounded
  have within : ¬ r.endBlock < next := fun below => inside ⟨bounded, below⟩
  omega

def PhaseInv (r : Request) (lastBlock : Nat) (processed : List Int) : Phase → Prop
  | .checking => processed = []
  | .deciding => processed = []
  | .history i .finish => Window r processed i ∧ ¬ r.onlyNew ∧ r.endBlock ≠ -1 ∧
      r.endBlock ≤ lastBlock
  | .history i .handOver => Window r processed i ∧ ¬ r.onlyNew ∧
      (r.kind = .tx → 0 < lastBlock ∧ r.endBlock ≠ 0)
  | .history i .live => Window r processed i
  | .starting already => (r.onlyNew ∧ already = -1 ∧ processed = []) ∨
      (already ≠ -1 ∧ Window r processed (already + 1))
  | .loading already => (r.onlyNew ∧ already = -1 ∧ processed = []) ∨
      (already ≠ -1 ∧ Window r processed (already + 1))
  | .live already => Window r processed (already + 1)
  | .woken already => Window r processed (already + 1)
  | .ended true => ¬ r.onlyNew ∧ r.endBlock ≠ -1 ∧ Window r processed (r.endBlock + 1)
  | .ended false => processed = []

/-- The requests for which the subscription keeps its promise. -/
def Request.Sound (r : Request) (lastBlock : Nat) : Prop :=
  match r.kind with
  | .block => r.startBlock = -1 → r.endBlock = -1
  | .tx => lastBlock = 0 → r.startBlock ≤ 0 → r.endBlock = 0 ∨ r.onlyNew

structure Inv (r : Request) (initial : Nat) (s : State) : Prop where
  grown : initial ≤ s.lastBlock
  phase : PhaseInv r s.lastBlock s.processed s.phase

variable {lastBlock initial : Nat}

theorem PhaseInv.grow {phase : Phase} (inv : PhaseInv r lastBlock processed phase) : PhaseInv r (lastBlock + 1) processed phase := by
  cases phase with
  | history i after =>
    cases after with
    | finish =>
      obtain ⟨window, range, bounded, stored⟩ := inv
      exact ⟨window, range, bounded, by omega⟩
    | handOver =>
      obtain ⟨window, range, later⟩ := inv
      refine ⟨window, range, fun kind => ⟨Nat.succ_pos _, (later kind).2⟩⟩
    | live => exact inv
  | ended ok =>
    cases ok with
    | true => exact inv
    | false => exact inv
  | checking => exact inv
  | deciding => exact inv
  | starting already => exact inv
  | loading already => exact inv
  | live already => exact inv
  | woken already => exact inv

theorem Window.nonneg (window : Window r processed next) (range : ¬ r.onlyNew) : 0 ≤ next := by
  obtain ⟨first, ordered, _, start, _⟩ := window
  have same := start.resolve_left range
  omega

theorem PhaseInv.returned {i : Int} {after : AfterHistory} (inv : PhaseInv r lastBlock processed (.history i after))
    (stopped : r.past i ∨ ¬ (0 ≤ i ∧ i ≤ lastBlock)) :
    PhaseInv r lastBlock processed (r.returned (i - 1) after) := by
  have bounds := r.bounds
  unfold Request.past at stopped
  cases after with
  | live =>
    have window : Window r processed i := inv
    rwa [← Int.sub_add_cancel i 1] at window
  | finish =>
    obtain ⟨window, range, bounded, stored⟩ := inv
    have positive := window.nonneg range
    obtain ⟨_, _, _, _, inside⟩ := id window
    have last : i = r.endBlock + 1 := by
      have upper := inside bounded
      omega
    exact ⟨range, bounded, last ▸ window⟩
  | handOver =>
    obtain ⟨window, range, later⟩ := inv
    have positive := window.nonneg range
    have reached : Window r processed (i - 1 + 1) := by rwa [Int.sub_add_cancel]
    unfold Request.returned
    cases kind : r.kind with
    | block =>
      have sent : i - 1 ≠ -1 := by omega
      exact .inr ⟨sent, reached⟩
    | tx =>
      obtain ⟨grown, notGenesis⟩ := later kind
      have sent : i - 1 ≠ -1 := by omega
      have beyond : i - 1 ≠ 0 := by omega
      simp only [if_neg beyond]
      exact .inr ⟨sent, reached⟩

theorem PhaseInv.sendBlock (sound : r.Sound initial) (kind : r.kind = .block) : PhaseInv r lastBlock [] (r.sendBlock lastBlock) := by
  have bounds := r.bounds
  simp only [Request.Sound, kind] at sound
  have window (range : ¬ r.onlyNew) : Window r [] r.startBlock := by
    unfold Request.onlyNew at range
    exact .empty (.inr (by omega)) (by omega)
  unfold Request.sendBlock
  split
  next => rfl
  next =>
      split
      next onlyNew => exact .inl ⟨onlyNew, rfl, rfl⟩
      next range =>
          split
          next stored => exact ⟨window range, range, stored.1, stored.2⟩
          next => exact ⟨window range, range, fun tx => absurd (kind.symm.trans tx) nofun⟩

theorem PhaseInv.doSendTx (sound : r.Sound initial) (grown : initial ≤ lastBlock) (kind : r.kind = .tx) :
    PhaseInv r lastBlock [] (r.doSendTx lastBlock) := by
  have bounds := r.bounds
  simp only [Request.Sound, kind] at sound
  have window : Window r [] (max r.startBlock 0) := .empty (.inr rfl) (by omega)
  unfold Request.doSendTx
  split
  next onlyNew => exact .inl ⟨onlyNew, rfl, rfl⟩
  next range =>
      split
      next => rfl
      next =>
          split
          next stored => exact ⟨window, range, stored.1, stored.2⟩
          next unreached =>
              have notGenesis : r.endBlock ≠ 0 := by omega
              refine ⟨window, range, fun _ => ⟨?_, notGenesis⟩⟩
              refine Nat.pos_of_ne_zero fun genesis => ?_
              cases sound (by omega) (by omega) with
              | inl ends => exact notGenesis ends
              | inr onlyNew => exact range onlyNew

theorem Inv.step {s' : State} (sound : r.Sound initial) (inv : Inv r initial s) (step : Step r s s') : Inv r initial s' := by
  obtain ⟨grown, phase⟩ := inv
  cases step with
  | commit => exact ⟨Nat.le_succ_of_le grown, phase.grow⟩
  | event => exact ⟨grown, phase⟩
  | check here =>
    rw [here] at phase
    refine ⟨grown, ?_⟩
    simp only
    split
    next => exact phase
    next => exact phase
  | decideBlock here kind =>
    rw [here] at phase
    have nothing : s.processed = [] := phase
    refine ⟨grown, ?_⟩
    simp only [nothing]
    exact .sendBlock sound kind
  | decideTx here kind =>
    rw [here] at phase
    have nothing : s.processed = [] := phase
    refine ⟨grown, ?_⟩
    simp only [nothing]
    exact .doSendTx sound grown kind
  | stop here past =>
    rw [here] at phase
    exact ⟨grown, phase.returned (.inl past)⟩
  | miss here inside absent =>
    rw [here] at phase
    exact ⟨grown, phase.returned (.inr (of_decide_eq_false absent))⟩
  | @send i after here inside present =>
    rw [here] at phase
    refine ⟨grown, ?_⟩
    cases after with
    | finish => exact ⟨phase.1.send inside, phase.2⟩
    | handOver => exact ⟨phase.1.send inside, phase.2⟩
    | live => exact Window.send phase inside
  | start here =>
    rw [here] at phase
    exact ⟨grown, phase⟩
  | @load already here =>
    rw [here] at phase
    refine ⟨grown, ?_⟩
    cases phase with
    | inl fresh =>
      obtain ⟨onlyNew, rfl, nothing⟩ := fresh
      simp only [nothing, if_true]
      exact Window.empty (.inl onlyNew) (fun bounded => absurd onlyNew.2 bounded)
    | inr sent =>
      simp only [if_neg sent.1]
      exact sent.2
  | @wake already here waiting =>
    rw [here] at phase
    refine ⟨grown, ?_⟩
    simp only
    split
    next reached =>
        have window : Window r s.processed (already + 1) := phase
        obtain ⟨_, _, _, _, inside⟩ := id window
        have last : already = r.endBlock := by
          have upper := inside reached.1
          omega
        exact ⟨fun onlyNew => reached.1 onlyNew.2, reached.1, last ▸ window⟩
    next => exact phase
  | test here =>
    rw [here] at phase
    refine ⟨grown, ?_⟩
    simp only
    split
    next => exact phase
    next => exact phase

theorem Inv.reachable (sound : r.Sound initial) (run : Reachable r initial s) : Inv r initial s := by
  induction run with
  | refl => exact ⟨le_refl _, rfl⟩
  | tail _ step ih => exact ih.step sound step

theorem PhaseInv.window {phase : Phase} (inv : PhaseInv r lastBlock processed phase) : processed = [] ∨ ∃ next, Window r processed next := by
  cases phase with
  | checking => exact .inl inv
  | deciding => exact .inl inv
  | history i after =>
    cases after with
    | finish => exact .inr ⟨i, inv.1⟩
    | handOver => exact .inr ⟨i, inv.1⟩
    | live => exact .inr ⟨i, inv⟩
  | starting already => exact inv.imp (·.2.2) fun sent => ⟨_, sent.2⟩
  | loading already => exact inv.imp (·.2.2) fun sent => ⟨_, sent.2⟩
  | live already => exact .inr ⟨_, inv⟩
  | woken already => exact .inr ⟨_, inv⟩
  | ended ok =>
    cases ok with
    | true => exact .inr ⟨_, inv.2.2⟩
    | false => exact .inl inv

end Window

section Failures

variable {r : Request}

end Failures

end Pdcc.Rpc
