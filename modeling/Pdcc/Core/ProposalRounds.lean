import Pdcc.Core.BlockVerifier

/-!
# Rounds of the proposal cache

Each cached proposal has a flag that tells whether this node has proposed it in the
current round. Setting and resetting the flag for a height changes one proposal of the
node, whichever the iteration over the map meets first.
-/

set_option autoImplicit false

namespace Pdcc.Core

open Ledger Library

variable {Tx Data Event ε : Type}

structure RoundProposal (Tx Data Event : Type) extends BlockProposal Tx Data Event where
  isSelfProposed : Bool
  hasProposedThisRound : Bool

def RoundProposal.key (proposal : RoundProposal Tx Data Event) : UInt64 × Bytes :=
  (proposal.height, proposal.fingerPrint)

def RoundProposal.withFlag (proposal : RoundProposal Tx Data Event) (flag : Bool) :
    RoundProposal Tx Data Event :=
  { proposal with hasProposedThisRound := flag }

structure RoundCache (Tx Data Event : Type) where
  entries : List (RoundProposal Tx Data Event)
  distinct : (entries.map RoundProposal.key).Nodup

inductive SetProposedError (ε : Type) where
  | currentHeight (cause : ε)
  | invalidHeight (currentHeight blockHeight : UInt64)

namespace RoundCache

def empty : RoundCache Tx Data Event := ⟨[], List.nodup_nil⟩

variable (cache : RoundCache Tx Data Event)

def keep (kept : BlockProposal Tx Data Event → Bool) : RoundCache Tx Data Event where
  entries := cache.entries.filter fun entry => kept entry.toBlockProposal
  distinct := cache.distinct.sublist (List.filter_sublist.map _)

def put (proposal : RoundProposal Tx Data Event) : RoundCache Tx Data Event where
  entries := (cache.keep fun entry =>
    ¬ (entry.height = proposal.height ∧ entry.fingerPrint = proposal.fingerPrint)).entries ++
      [proposal]
  distinct := by
    rw [List.map_append, List.map_singleton, List.nodup_append]
    refine ⟨(cache.keep _).distinct, List.nodup_singleton _, ?_⟩
    intro key member other same equal
    obtain ⟨entry, kept, rfl⟩ := List.mem_map.mp member
    rw [List.mem_singleton.mp same] at equal
    exact of_decide_eq_true (List.mem_filter.mp kept).2 (Prod.mk.inj equal)

def mark (key : UInt64 × Bytes) (flag : Bool) : RoundCache Tx Data Event where
  entries := cache.entries.map fun entry => if entry.key = key then entry.withFlag flag else entry
  distinct := by
    rw [List.map_map]
    refine (List.map_congr_left fun entry _ => ?_) ▸ cache.distinct
    rw [Function.comp_apply]
    split <;> rfl

variable (calcBlockFingerPrint : Header → Bytes)

def setProposedBlock (currentHeight : Except ε UInt64) (data : ProposalData Tx Data Event)
    (selfPropose : Bool) : Except (SetProposedError ε) (RoundCache Tx Data Event) :=
  let height := data.block.header.blockHeight
  match currentHeight with
  | .error cause => .error (.currentHeight cause)
  | .ok current =>
    if current ≥ height ∧ height ≠ 0 then .error (.invalidHeight current height)
    else .ok (cache.put
      { height, fingerPrint := calcBlockFingerPrint data.block.header, data
        isSelfProposed := selfPropose, hasProposedThisRound := true })

def isProposedAt (height : UInt64) : Bool :=
  cache.entries.any fun entry =>
    entry.height = height && entry.isSelfProposed && entry.hasProposedThisRound

def clearTheBlock (header : Header) : RoundCache Tx Data Event :=
  cache.keep fun entry =>
    ¬ (entry.height = header.blockHeight ∧ entry.fingerPrint = calcBlockFingerPrint header)

def keepProposedBlock (hash : Bytes) (height : UInt64) : RoundCache Tx Data Event :=
  cache.keep fun entry => entry.height ≠ height ∨ entry.data.block.header.blockHash = hash

def clearProposedBlockAt (height : UInt64) : RoundCache Tx Data Event :=
  cache.keep (·.height ≠ height)

def ownAt (height : UInt64) : List (RoundProposal Tx Data Event) :=
  cache.entries.filter fun entry => entry.height = height && entry.isSelfProposed

end RoundCache

inductive Marks (flag : Bool) (height : UInt64) (cache : RoundCache Tx Data Event) :
    RoundCache Tx Data Event → Prop where
  | own {entry} : entry ∈ cache.ownAt height → Marks flag height cache (cache.mark entry.key flag)
  | none : cache.ownAt height = [] → Marks flag height cache cache

inductive CacheCall (Tx Data Event ε : Type) where
  | setProposedBlock (currentHeight : Except ε UInt64) (data : ProposalData Tx Data Event)
      (selfPropose : Bool)
  | setProposedAt (height : UInt64)
  | resetProposedAt (height : UInt64)
  | clearTheBlock (header : Header)
  | keepProposedBlock (hash : Bytes) (height : UInt64)
  | clearProposedBlockAt (height : UInt64)

def CacheCall.proposesAt (height : UInt64) : CacheCall Tx Data Event ε → Bool
  | .setProposedBlock _ data selfPropose =>
    selfPropose && data.block.header.blockHeight = height
  | .setProposedAt marked => marked = height
  | _ => false

section Runs

variable (calcBlockFingerPrint : Header → Bytes)

/-- One call and the cache it may leave, whatever order the map is walked in. -/
inductive CacheStep : CacheCall Tx Data Event ε → RoundCache Tx Data Event →
    RoundCache Tx Data Event → Prop where
  | stored {currentHeight data selfPropose cache after} :
      cache.setProposedBlock calcBlockFingerPrint currentHeight data selfPropose = .ok after →
      CacheStep (.setProposedBlock currentHeight data selfPropose) cache after
  | refused {currentHeight data selfPropose cache cause} :
      cache.setProposedBlock calcBlockFingerPrint currentHeight data selfPropose = .error cause →
      CacheStep (.setProposedBlock currentHeight data selfPropose) cache cache
  | setProposedAt {height cache after} : Marks true height cache after →
      CacheStep (.setProposedAt height) cache after
  | resetProposedAt {height cache after} : Marks false height cache after →
      CacheStep (.resetProposedAt height) cache after
  | clearTheBlock {header cache} :
      CacheStep (.clearTheBlock header) cache (cache.clearTheBlock calcBlockFingerPrint header)
  | keepProposedBlock {hash height cache} :
      CacheStep (.keepProposedBlock hash height) cache (cache.keepProposedBlock hash height)
  | clearProposedBlockAt {height cache} :
      CacheStep (.clearProposedBlockAt height) cache (cache.clearProposedBlockAt height)

/-- A sequence of calls. -/
inductive CacheRun : List (CacheCall Tx Data Event ε) → RoundCache Tx Data Event →
    RoundCache Tx Data Event → Prop where
  | nil {cache} : CacheRun [] cache cache
  | cons {call calls cache between after} : CacheStep calcBlockFingerPrint call cache between →
      CacheRun calls between after → CacheRun (call :: calls) cache after

end Runs

section Refinement

theorem RoundCache.setProposedBlock_ok {calcBlockFingerPrint : Header → Bytes}
    {currentHeight : Except ε UInt64} {data : ProposalData Tx Data Event} {selfPropose : Bool}
    {cache after : RoundCache Tx Data Event}
    (stored : cache.setProposedBlock calcBlockFingerPrint currentHeight data selfPropose = .ok after) :
    (∃ current, currentHeight = .ok current ∧ ¬ (current ≥ data.block.header.blockHeight ∧ data.block.header.blockHeight ≠ 0)) ∧
      after = cache.put
        { height := data.block.header.blockHeight
          fingerPrint := calcBlockFingerPrint data.block.header, data
          isSelfProposed := selfPropose, hasProposedThisRound := true } := by
  unfold setProposedBlock at stored
  cases currentHeight with
  | error cause => cases stored
  | ok current =>
    dsimp only at stored
    split at stored
    · cases stored
    · next fresh =>
      cases stored
      exact ⟨⟨current, rfl, fresh⟩, rfl⟩

end Refinement

section Rounds

variable {calcBlockFingerPrint : Header → Bytes} {cache after : RoundCache Tx Data Event}
  {height : UInt64} {entry : RoundProposal Tx Data Event}

theorem RoundCache.mem_ownAt : entry ∈ cache.ownAt height ↔ entry ∈ cache.entries ∧ entry.height = height ∧ entry.isSelfProposed = true := by
  simp [ownAt]

theorem RoundCache.isProposedAt_eq_false_iff : cache.isProposedAt height = false ↔
      ∀ entry ∈ cache.ownAt height, entry.hasProposedThisRound = false := by
  simp only [isProposedAt, List.any_eq_false, Bool.and_eq_true, decide_eq_true_eq, not_and, Bool.not_eq_true, mem_ownAt, and_imp]

theorem RoundCache.ownAt_keep_subset (kept : BlockProposal Tx Data Event → Bool) :
    ∀ entry ∈ (cache.keep kept).ownAt height, entry ∈ cache.ownAt height := by
  intro entry member
  rw [mem_ownAt] at member ⊢
  exact ⟨List.mem_of_mem_filter member.1, member.2⟩

theorem RoundCache.isProposedAt_keep (kept : BlockProposal Tx Data Event → Bool) (free : cache.isProposedAt height = false) :
    (cache.keep kept).isProposedAt height = false := by
  rw [isProposedAt_eq_false_iff] at free ⊢
  exact fun entry member => free entry (ownAt_keep_subset kept entry member)

theorem RoundCache.mem_ownAt_mark {key : UInt64 × Bytes} {flag : Bool} :
    entry ∈ (cache.mark key flag).ownAt height ↔ ∃ old ∈ cache.ownAt height, (if old.key = key then old.withFlag flag else old) = entry := by
  simp only [mem_ownAt, mark, List.mem_map]
  constructor
  · rintro ⟨⟨old, listed, rfl⟩, own⟩
    refine ⟨old, ⟨listed, ?_⟩, rfl⟩
    split at own <;> exact own
  · rintro ⟨old, ⟨listed, own⟩, rfl⟩
    refine ⟨⟨old, listed, rfl⟩, ?_⟩
    split <;> exact own

theorem RoundCache.mem_ownAt_put {proposal : RoundProposal Tx Data Event} (member : entry ∈ (cache.put proposal).ownAt height) :
    entry ∈ cache.ownAt height ∨ (entry = proposal ∧ proposal.height = height ∧ proposal.isSelfProposed = true) := by
  obtain ⟨listed, own⟩ := mem_ownAt.mp member
  cases List.mem_append.mp listed with
  | inl old => exact .inl (mem_ownAt.mpr ⟨List.mem_of_mem_filter old, own⟩)
  | inr new =>
    have same := List.mem_singleton.mp new
    exact .inr ⟨same, same ▸ own⟩

theorem Marks.isProposedAt_false {flag : Bool} {marked : UInt64}
    (marks : Marks flag marked cache after) (other : marked ≠ height ∨ flag = false)
    (free : cache.isProposedAt height = false) : after.isProposedAt height = false := by
  rw [RoundCache.isProposedAt_eq_false_iff] at free ⊢
  cases marks with
  | none => exact free
  | @own chosen isOwn =>
    intro entry member
    obtain ⟨old, listed, rfl⟩ := RoundCache.mem_ownAt_mark.mp member
    split
    · next same =>
      cases other with
      | inr lowered => exact lowered
      | inl elsewhere =>
        have heights : old.height = chosen.height := congrArg Prod.fst same
        rw [(RoundCache.mem_ownAt.mp listed).2.1, (RoundCache.mem_ownAt.mp isOwn).2.1] at heights
        exact absurd heights.symm elsewhere
    · exact free old listed

theorem CacheStep.isProposedAt_false {call : CacheCall Tx Data Event ε} (stepped : CacheStep calcBlockFingerPrint call cache after)
    (other : call.proposesAt height = false) (free : cache.isProposedAt height = false) :
    after.isProposedAt height = false := by
  cases stepped with
  | stored stored =>
    obtain ⟨_, rfl⟩ := RoundCache.setProposedBlock_ok stored
    rw [RoundCache.isProposedAt_eq_false_iff] at free ⊢
    intro entry member
    cases RoundCache.mem_ownAt_put member with
    | inl old => exact free entry old
    | inr new =>
      obtain ⟨_, here, own⟩ := new
      unfold CacheCall.proposesAt at other
      rw [Bool.and_eq_false_imp] at other
      exact absurd here (of_decide_eq_false (other own))
  | refused => exact free
  | setProposedAt marks =>
    exact marks.isProposedAt_false (.inl (of_decide_eq_false other)) free
  | resetProposedAt marks => exact marks.isProposedAt_false (.inr rfl) free
  | clearTheBlock => exact RoundCache.isProposedAt_keep _ free
  | keepProposedBlock => exact RoundCache.isProposedAt_keep _ free
  | clearProposedBlockAt => exact RoundCache.isProposedAt_keep _ free

theorem CacheRun.isProposedAt_false {calls : List (CacheCall Tx Data Event ε)} (run : CacheRun calcBlockFingerPrint calls cache after)
    (others : ∀ call ∈ calls, call.proposesAt height = false)
    (free : cache.isProposedAt height = false) : after.isProposedAt height = false := by
  induction run with
  | nil => exact free
  | cons stepped _ ih =>
    rw [List.forall_mem_cons] at others
    exact ih others.2 (stepped.isProposedAt_false others.1 free)

theorem Marks.isProposedAt_false_of_single (marks : Marks false height cache after)
    (single : (cache.ownAt height).length ≤ 1) : after.isProposedAt height = false := by
  rw [RoundCache.isProposedAt_eq_false_iff]
  cases marks with
  | none nothing =>
    rw [nothing]
    exact fun _ member => (by cases member)
  | @own chosen isOwn =>
    intro entry member
    obtain ⟨old, listed, rfl⟩ := RoundCache.mem_ownAt_mark.mp member
    have same : old = chosen := by
      cases owned : cache.ownAt height with
      | nil =>
        rw [owned] at listed
        cases listed
      | cons first rest =>
        rw [owned, List.length_cons] at single
        have alone : rest = [] := List.eq_nil_of_length_eq_zero (by omega)
        rw [owned, alone, List.mem_singleton] at listed isOwn
        exact listed.trans isOwn.symm
    rw [if_pos (congrArg _ same)]
    rfl

theorem RoundCache.isProposedAt_eq_true_iff : cache.isProposedAt height = true ↔
      ∃ entry ∈ cache.ownAt height, entry.hasProposedThisRound = true := by
  rw [← Bool.not_eq_false, isProposedAt_eq_false_iff]
  simp only [not_forall, Bool.not_eq_false, exists_prop]

theorem RoundCache.exists_ownAt_ne (several : 1 < (cache.ownAt height).length)
    (key : UInt64 × Bytes) : ∃ other ∈ cache.ownAt height, other.key ≠ key := by
  have keys : ((cache.ownAt height).map RoundProposal.key).Nodup :=
    cache.distinct.sublist (List.filter_sublist.map _)
  cases owned : cache.ownAt height with
  | nil => simp [owned] at several
  | cons first rest =>
    cases rest with
    | nil => simp [owned] at several
    | cons second rest =>
      by_cases same : first.key = key
      · refine ⟨second, by simp, fun also => ?_⟩
        rw [owned] at keys
        simp [same, also] at keys
      · exact ⟨first, by simp, same⟩

theorem exists_marks_isProposedAt (proposed : cache.isProposedAt height = true) (several : 1 < (cache.ownAt height).length) :
    ∃ after, Marks false height cache after ∧ after.isProposedAt height = true := by
  obtain ⟨flagged, own, isFlagged⟩ := RoundCache.isProposedAt_eq_true_iff.mp proposed
  -- the iteration starts with a proposal of another fingerprint
  obtain ⟨other, otherOwn, different⟩ := RoundCache.exists_ownAt_ne several flagged.key
  refine ⟨_, .own otherOwn, RoundCache.isProposedAt_eq_true_iff.mpr ⟨flagged, ?_, isFlagged⟩⟩
  exact RoundCache.mem_ownAt_mark.mpr ⟨flagged, own, if_neg different.symm⟩

/-- After a reset the height is open until the node proposes again exactly if it was open
before or the node has at most one proposal there. -/
theorem resetProposedAt_resets_iff (calcBlockFingerPrint : Header → Bytes)
    (cache : RoundCache Tx Data Event) (height : UInt64) :
    (∀ reset after, ∀ calls : List (CacheCall Tx Data Event ε),
      CacheStep calcBlockFingerPrint (.resetProposedAt height : CacheCall Tx Data Event ε) cache reset →
      (∀ call ∈ calls, call.proposesAt height = false) →
      CacheRun calcBlockFingerPrint calls reset after → after.isProposedAt height = false) ↔
      cache.isProposedAt height = false ∨ (cache.ownAt height).length ≤ 1 := by
  constructor
  · intro resets
    by_contra neither
    rw [not_or, Bool.not_eq_false, Nat.not_le] at neither
    obtain ⟨after, marks, proposed⟩ := exists_marks_isProposedAt neither.1 neither.2
    rw [resets after after [] (.resetProposedAt marks) (fun _ member => (by cases member)) .nil] at proposed
    cases proposed
  · intro before reset after calls stepped others run
    refine run.isProposedAt_false others ?_
    cases stepped with
    | resetProposedAt marks =>
      cases before with
      | inl free => exact marks.isProposedAt_false (.inr rfl) free
      | inr single => exact marks.isProposedAt_false_of_single single

end Rounds

section Sample

def roundData (hash : UInt8) : ProposalData Unit Unit Unit where
  block := ⟨⟨1, [hash], [], 2300, 0, 0, none⟩, [], [], ∅⟩
  txRwSetMap := ∅
  contractEventMap := none

/-- The verifier stores two blocks of a height as the node's own: no reset opens it. -/
theorem resetProposedAt_leaves_proposal : ∃ cache, CacheRun (·.blockHash)
        ([.setProposedBlock (.ok 0) (roundData 1) true, .setProposedBlock (.ok 0) (roundData 2) true] :
          List (CacheCall Unit Unit Unit Unit)) .empty cache ∧
      ∀ reset, CacheStep (·.blockHash) (.resetProposedAt 1 : CacheCall Unit Unit Unit Unit) cache
        reset → reset.isProposedAt 1 = true := by
  refine ⟨_, .cons (.stored rfl) (.cons (.stored rfl) .nil), fun reset stepped => ?_⟩
  cases stepped with
  | resetProposedAt marks =>
    cases marks with
    | none nothing => cases nothing
    | own isOwn =>
      cases isOwn with
      | head => rfl
      | tail _ later =>
        cases later with
        | head => rfl
        | tail _ none => cases none

end Sample

end Pdcc.Core
