import Pdcc.AccessControl.TxPrincipal

/-!
# Requests that are signed by votes

A request collects votes of organizations until its policy is satisfied by those who
agree or cannot be satisfied any more. The test for a refusal applies the policy of
the request to those who reject, which is the dual test only for a majority.
-/

set_option autoImplicit false

namespace Pdcc.AccessControl

open Ledger Library

inductive VoteStatus where
  | agree
  | reject
  | unknown (value : Int)
  deriving DecidableEq, Repr

inductive MultiSignStatus where
  | processing
  | adopted
  | refused
  | failed
  | passed
  deriving DecidableEq, Repr

structure VoteInfo where
  vote : VoteStatus
  endorsement : EndorsementEntry
  deriving DecidableEq, Repr

structure MultiSignInfo where
  payload : TxPayload
  contractName : Bytes
  method : Bytes
  status : MultiSignStatus
  voteInfos : List VoteInfo
  deriving DecidableEq, Repr

inductive MultiSignError where
  | statusNotPermitted (status : MultiSignStatus)
  | ruleNotPermitted (rule : Bytes)
  | auth (error : AuthError)
  deriving DecidableEq, Repr

namespace MultiSignInfo

def resourceName (mInfo : MultiSignInfo) : Bytes := resourceNameOf mInfo.contractName mInfo.method

def endorsementsOf (mInfo : MultiSignInfo) (vote : VoteStatus) : List EndorsementEntry :=
  (mInfo.voteInfos.filter (·.vote = vote)).map (·.endorsement)

end MultiSignInfo

namespace AcProvider

variable (p : AcProvider) (verifier : Verifier)

def verifyMultiSignEndorsementsPrincipal (tx : Transaction) (resourceName : Bytes)
    (bypassVerifySign : Bool) (cache : MemberCache) : Except Panic (Verdict × MemberCache) :=
  p.verifyEndorsementsPrincipalCommon verifier tx tx.payload.unsignedTxBytes resourceName
    bypassVerifySign cache

def isMultiSignPassed (tx : Transaction) (resourceName : Bytes) (cache : MemberCache) :
    Except Panic (Verdict × MemberCache) :=
  p.verifyMultiSignEndorsementsPrincipal verifier tx resourceName true cache

/-- Whether those who reject refuse the request, with the error that is returned along. The
policy that is made for refusals is not passed on: the resource's own one is looked up again. -/
def isMultiSignRefused (tx : Transaction) (resourceName : Bytes) (pol : Policy)
    (cache : MemberCache) : Except Panic ((Bool × Option MultiSignError) × MemberCache) := do
  if pol.rule = ruleForbidden ∨ pol.rule = ruleSelf then
    return ((true, some (.ruleNotPermitted pol.rule)), cache)
  else
    match ← p.verifyMultiSignEndorsementsPrincipal verifier tx resourceName true cache with
    | (.ok (), cache) => return ((true, none), cache)
    | (.error _, cache) =>
      if pol.rule = ruleMajority ∧ 2 * tx.endorsers.length = p.members.getTotalVoterNum then
        return ((true, none), cache)
      else return ((false, none), cache)

def passedByVotes (mInfo : MultiSignInfo) (cache : MemberCache) :
    Except Panic (Bool × MemberCache) :=
  let agreeEndorsements := mInfo.endorsementsOf .agree
  if agreeEndorsements.isEmpty then .ok (false, cache)
  else do
    let (verdict, cache) ← p.isMultiSignPassed verifier ⟨mInfo.payload, none, agreeEndorsements⟩
      mInfo.resourceName cache
    return (verdict.isOk, cache)

def refusedByVotes (mInfo : MultiSignInfo) (pol : Policy) (cache : MemberCache) :
    Except Panic (Bool × MemberCache) :=
  let rejectEndorsements := mInfo.endorsementsOf .reject
  if rejectEndorsements.isEmpty then .ok (false, cache)
  else do
    let ((refuse, _), cache) ← p.isMultiSignRefused verifier
      ⟨mInfo.payload, none, rejectEndorsements⟩ mInfo.resourceName pol cache
    return (refuse, cache)

def verifyMultiSignTxPrincipal (mInfo : MultiSignInfo) (cache : MemberCache) :
    Except Panic ((MultiSignInfo × Option MultiSignError) × MemberCache) :=
  if mInfo.status ≠ .processing then
    .ok ((mInfo, some (.statusNotPermitted mInfo.status)), cache)
  else
    match p.findFromEndorsementsPolicies mInfo.resourceName with
    | none => .ok ((mInfo, none), cache)
    | some pol => do
      let (agree, cache) ← p.passedByVotes verifier mInfo cache
      if agree then return (({ mInfo with status := .passed }, none), cache)
      else
        let (refuse, cache) ← p.refusedByVotes verifier mInfo pol cache
        return ((if refuse then { mInfo with status := .refused } else mInfo, none), cache)

end AcProvider

inductive VoteRule where
  | any
  | all
  | majority
  deriving DecidableEq, Repr

namespace VoteRule

def rule : VoteRule → Bytes
  | .any => ruleAny
  | .all => ruleAll
  | .majority => ruleMajority

def Met : VoteRule → Nat → Nat → Prop
  | .any, _, agreeing => 0 < agreeing
  | .all, orgNum, agreeing => agreeing = orgNum
  | .majority, orgNum, agreeing => orgNum < 2 * agreeing

instance (r : VoteRule) (orgNum agreeing : Nat) : Decidable (r.Met orgNum agreeing) :=
  match r with
  | .any => inferInstanceAs (Decidable (0 < agreeing))
  | .all => inferInstanceAs (Decidable (agreeing = orgNum))
  | .majority => inferInstanceAs (Decidable (orgNum < 2 * agreeing))

/-- The status that is due: a request passes when the rule is satisfied, and is refused when the
organizations that have not voted cannot satisfy it any more. -/
def statusDue (r : VoteRule) (orgNum agreeing rejecting : Nat) : MultiSignStatus :=
  if r.Met orgNum agreeing then .passed
  else if ∀ further ≤ orgNum - agreeing - rejecting, ¬ r.Met orgNum (agreeing + further) then
    .refused
  else .processing

def statusGiven (r : VoteRule) (orgNum agreeing rejecting : Nat) : MultiSignStatus :=
  if 0 < agreeing ∧ r.Met orgNum agreeing then .passed
  else if 0 < rejecting ∧
      (r.Met orgNum rejecting ∨ r = .majority ∧ 2 * rejecting = orgNum) then .refused
  else .processing

theorem hopeless_iff (r : VoteRule) {orgNum agreeing rejecting : Nat} (within : agreeing + rejecting ≤ orgNum) :
    (∀ further ≤ orgNum - agreeing - rejecting, ¬ r.Met orgNum (agreeing + further)) ↔ ¬ r.Met orgNum (orgNum - rejecting) := by
  constructor
  · intro hopeless
    have last := hopeless (orgNum - agreeing - rejecting) (Nat.le_refl _)
    rwa [show agreeing + (orgNum - agreeing - rejecting) = orgNum - rejecting by omega] at last
  · intro failed further bound met
    apply failed
    cases r with
    | any =>
      simp only [Met] at met ⊢
      omega
    | all =>
      simp only [Met] at met ⊢
      omega
    | majority =>
      simp only [Met] at met ⊢
      omega

/-- The counts on which the code decides as the rule demands. -/
def Agrees (r : VoteRule) (orgNum agreeing rejecting : Nat) : Prop :=
  0 < orgNum ∧ match r with
    | .any => 0 < agreeing ∨ rejecting = 0 ∨ rejecting = orgNum
    | .all => rejecting = 0 ∨ rejecting = orgNum
    | .majority => True

private theorem status_eq_iff {passed passed' refused refused' : Prop} [Decidable passed]
    [Decidable passed'] [Decidable refused] [Decidable refused'] :
    (if passed then MultiSignStatus.passed else if refused then .refused else .processing) =
        (if passed' then .passed else if refused' then .refused else .processing) ↔
      (passed ↔ passed') ∧ (¬ passed → (refused ↔ refused')) := by
  by_cases first : passed <;> by_cases second : passed' <;> by_cases third : refused <;>
    by_cases fourth : refused' <;> simp [first, second, third, fourth]

theorem statusGiven_eq_iff (r : VoteRule) {orgNum agreeing rejecting : Nat} (within : agreeing + rejecting ≤ orgNum) :
    r.statusGiven orgNum agreeing rejecting = r.statusDue orgNum agreeing rejecting ↔ r.Agrees orgNum agreeing rejecting := by
  rw [statusGiven, statusDue, status_eq_iff, r.hopeless_iff within]
  cases r with
  | any =>
    simp only [Met, Agrees, reduceCtorEq, false_and, or_false]
    omega
  | all =>
    simp only [Met, Agrees, reduceCtorEq, false_and, or_false]
    omega
  | majority =>
    simp only [Met, Agrees, true_and, and_true]
    omega

end VoteRule

section Votes

variable {op : OrgProvider} {endorsements : List EndorsementEntry} {cache : MemberCache}

private theorem isOk_ite {condition : Prop} [Decidable condition] {error : AuthError} :
    (if condition then .ok () else .error error : Verdict).isOk = true ↔ condition := by
  by_cases holds : condition <;> simp [holds, Except.isOk, Except.toBool]

theorem verifyPrincipalPolicy_admins (r : VoteRule) (targetOrg resourceName : Bytes) (admins : ∀ endorsement ∈ endorsements,
      Identified op.rebuildMember op.Recorded endorsement.signer roleAdmin)
    (distinct : (endorsements.map (·.signer.orgId)).Nodup) (holds : cache.Holds op.Recorded) :
    ∃ verdict cache', verifyPrincipalPolicy op.rebuildMember op.orgNum targetOrg resourceName
        ⟨r.rule, [], [roleAdmin]⟩ endorsements cache = .ok (verdict, cache') ∧
      cache'.Holds op.Recorded ∧ (verdict.isOk = true ↔ r.Met op.orgNum endorsements.length) := by
  have admin : [roleAdmin].contains roleAdmin = true := rfl
  have counted : ∃ cache', countValidEndorsements op.rebuildMember [] [roleAdmin] endorsements
      cache = .ok (endorsements.length, cache') ∧ cache'.Holds op.Recorded := by
    obtain ⟨cache', found, keeps⟩ := getValidEndorsements_identified
      OrgProvider.recorded_of_rebuildMember (fun _ => roleAdmin) (List.cons_ne_nil roleAdmin [])
      admins holds
    refine ⟨cache', bind_eq_ok.mpr ⟨_, found, ?_⟩, keeps⟩
    simp only [admin, List.filter_true, countOrgsFromEndorsements, distinct.dedup, List.length_map]
    rfl
  cases r with
  | any =>
    obtain ⟨cache', searched, keeps⟩ := anyMeets_identified
      OrgProvider.recorded_of_rebuildMember (fun _ => roleAdmin) (List.cons_ne_nil roleAdmin [])
      admins holds
    rw [verifyPrincipalPolicy_any rfl]
    refine ⟨_, cache', bind_eq_ok.mpr ⟨_, searched, rfl⟩, keeps, ?_⟩
    rw [isOk_ite, VoteRule.Met, List.length_pos_iff]
    cases endorsements with
    | nil => simp
    | cons first rest => simp
  | all =>
    obtain ⟨cache', counted, keeps⟩ := counted
    rw [verifyPrincipalPolicy_all rfl]
    refine ⟨_, cache', bind_eq_ok.mpr ⟨_, counted, rfl⟩, keeps, ?_⟩
    exact isOk_ite
  | majority =>
    obtain ⟨cache', counted, keeps⟩ := counted
    rw [verifyPrincipalPolicy_majority rfl]
    refine ⟨_, cache', bind_eq_ok.mpr ⟨_, counted, rfl⟩, keeps, ?_⟩
    exact isOk_ite

end Votes

namespace AcProvider

variable {p : AcProvider} {verifier : Verifier} {op : OrgProvider} {r : VoteRule}
  {mInfo : MultiSignInfo} {cache : MemberCache}

variable (p op r mInfo cache) in
/-- A request on which administrators of different organizations have voted. -/
structure Voting : Prop where
  members : p.members = .org op
  orgNum : op.orgNum = op.orgs.length
  cached : cache.Holds op.Recorded
  processing : mInfo.status = .processing
  policy : p.findFromEndorsementsPolicies mInfo.resourceName = some ⟨r.rule, [], [roleAdmin]⟩
  votes : ∀ voteInfo ∈ mInfo.voteInfos, voteInfo.vote = .agree ∨ voteInfo.vote = .reject
  onChain : ∀ voteInfo ∈ mInfo.voteInfos, voteInfo.endorsement.signer.orgId ∈ op.orgs
  admins : ∀ voteInfo ∈ mInfo.voteInfos,
    Identified op.rebuildMember op.Recorded voteInfo.endorsement.signer roleAdmin
  once : (mInfo.voteInfos.map (·.endorsement.signer.orgId)).Nodup

variable {between : MemberCache}

theorem Voting.verify (voting : p.Voting op r mInfo cache) (verifier : Verifier)
    (positive : 0 < op.orgNum) {vote : VoteStatus} (nonempty : mInfo.endorsementsOf vote ≠ [])
    (holds : between.Holds op.Recorded) :
    ∃ verdict cache', p.verifyMultiSignEndorsementsPrincipal verifier
        ⟨mInfo.payload, none, mInfo.endorsementsOf vote⟩ mInfo.resourceName true between = .ok (verdict, cache') ∧
      cache'.Holds op.Recorded ∧
      (verdict.isOk = true ↔ r.Met op.orgNum (mInfo.endorsementsOf vote).length) := by
  have admins : ∀ endorsement ∈ mInfo.endorsementsOf vote, Identified op.rebuildMember op.Recorded endorsement.signer roleAdmin := by
    intro endorsement inside
    obtain ⟨voteInfo, chosen, rfl⟩ := List.mem_map.mp inside
    exact voting.admins voteInfo (List.mem_filter.mp chosen).1
  have distinct : ((mInfo.endorsementsOf vote).map (·.signer.orgId)).Nodup := by
    rw [MultiSignInfo.endorsementsOf, List.map_map]
    exact voting.once.sublist (List.filter_sublist.map _)
  have voters : p.members.getTotalVoterNum ≠ 0 := by
    rw [voting.members]
    exact positive.ne'
  have untargeted : r.rule ≠ ruleSelf := by
    cases r <;> decide
  have principal : p.members.principalError false (mInfo.endorsementsOf vote) = none := by
    rw [voting.members]
    simp [Members.principalError, nonempty]
  have unverified : p.members.principalEndorsements verifier mInfo.payload.unsignedTxBytes true none
      (mInfo.endorsementsOf vote) between = (.ok (mInfo.endorsementsOf vote), between) := by
    simp [Members.principalEndorsements]
  obtain ⟨verdict, cache', checked, keeps, ok⟩ :=
    verifyPrincipalPolicy_admins r [] mInfo.resourceName admins distinct holds
  refine ⟨verdict, cache', ?_, keeps, ok⟩
  simp only [verifyMultiSignEndorsementsPrincipal, verifyEndorsementsPrincipalCommon,
    if_neg voters, voting.policy, untargeted, false_and, if_false, decide_false,
    Option.toList_none, List.append_nil, principal, unverified, targetOrgOf]
  rw [voting.members]
  exact checked

theorem Voting.within (voting : p.Voting op r mInfo cache) :
    (mInfo.endorsementsOf .agree).length + (mInfo.endorsementsOf .reject).length ≤ op.orgNum := by
  have apart : (mInfo.endorsementsOf .agree).length + (mInfo.endorsementsOf .reject).length ≤ mInfo.voteInfos.length := by
    simp only [MultiSignInfo.endorsementsOf, List.length_map, ← List.countP_eq_length_filter]
    rw [List.length_eq_countP_add_countP (fun voteInfo : VoteInfo => decide (voteInfo.vote = .agree))]
    refine Nat.add_le_add_left (List.countP_mono_left ?_) _
    intro voteInfo _ rejects
    simp only [decide_eq_true_eq] at rejects
    simp [rejects]
  have claimed : mInfo.voteInfos.map (·.endorsement.signer.orgId) ⊆ op.orgs := by
    intro orgId inside
    obtain ⟨voteInfo, member, rfl⟩ := List.mem_map.mp inside
    exact voting.onChain voteInfo member
  have few := (List.subperm_of_subset voting.once claimed).length_le
  rw [List.length_map, ← voting.orgNum] at few
  exact apart.trans few

theorem Voting.isMultiSignRefused (voting : p.Voting op r mInfo cache) (verifier : Verifier)
    (positive : 0 < op.orgNum) (nonempty : mInfo.endorsementsOf .reject ≠ [])
    (holds : between.Holds op.Recorded) :
    ∃ refuse error cache', p.isMultiSignRefused verifier ⟨mInfo.payload, none, mInfo.endorsementsOf .reject⟩ mInfo.resourceName
        ⟨r.rule, [], [roleAdmin]⟩ between = .ok ((refuse, error), cache') ∧
      (refuse = true ↔ r.Met op.orgNum (mInfo.endorsementsOf .reject).length ∨
        r = .majority ∧ 2 * (mInfo.endorsementsOf .reject).length = op.orgNum) := by
  obtain ⟨verdict, cache', checked, _, ok⟩ := voting.verify verifier positive nonempty holds
  have permitted : ¬ (r.rule = ruleForbidden ∨ r.rule = ruleSelf) := by
    cases r <;> decide
  have majority : r.rule = ruleMajority ↔ r = .majority := by
    cases r <;> decide
  have voters : p.members.getTotalVoterNum = op.orgNum := by
    rw [voting.members]
    rfl
  rw [AcProvider.isMultiSignRefused, if_neg permitted, checked]
  cases verdict with
  | ok _ => exact ⟨true, none, cache', rfl, iff_of_true rfl (.inl (ok.mp rfl))⟩
  | error error =>
    have unmet : ¬ r.Met op.orgNum (mInfo.endorsementsOf .reject).length := by
      rw [← ok]
      exact Bool.false_ne_true
    by_cases half : r = .majority ∧ 2 * (mInfo.endorsementsOf .reject).length = op.orgNum
    · refine ⟨true, none, cache', ?_, iff_of_true rfl (.inr half)⟩
      exact if_pos ⟨majority.mpr half.1, half.2.trans voters.symm⟩
    · refine ⟨false, none, cache', ?_, iff_of_false Bool.false_ne_true (not_or.mpr ⟨unmet, half⟩)⟩
      exact if_neg fun both => half ⟨majority.mp both.1, both.2.trans voters⟩

theorem Voting.passedByVotes (voting : p.Voting op r mInfo cache) (verifier : Verifier) :
    ∃ agree cache', p.passedByVotes verifier mInfo cache = .ok (agree, cache') ∧ cache'.Holds op.Recorded ∧
      (agree = true ↔ 0 < (mInfo.endorsementsOf .agree).length ∧ r.Met op.orgNum (mInfo.endorsementsOf .agree).length) := by
  have within := voting.within
  rw [AcProvider.passedByVotes]
  by_cases empty : mInfo.endorsementsOf .agree = []
  · exact ⟨false, cache, if_pos (by simp [empty]), voting.cached, by simp [empty]⟩
  · have some := List.length_pos_iff.mpr empty
    obtain ⟨verdict, cache', checked, keeps, ok⟩ :=
      voting.verify verifier (by omega) empty voting.cached
    refine ⟨verdict.isOk, cache', ?_, keeps, ok.trans (and_iff_right some).symm⟩
    rw [if_neg (by simpa using empty)]
    exact bind_eq_ok.mpr ⟨_, checked, rfl⟩

theorem Voting.refusedByVotes (voting : p.Voting op r mInfo cache) (verifier : Verifier) (holds : between.Holds op.Recorded) :
    ∃ refuse cache', p.refusedByVotes verifier mInfo ⟨r.rule, [], [roleAdmin]⟩ between = .ok (refuse, cache') ∧
      (refuse = true ↔ 0 < (mInfo.endorsementsOf .reject).length ∧ (r.Met op.orgNum (mInfo.endorsementsOf .reject).length ∨
          r = .majority ∧ 2 * (mInfo.endorsementsOf .reject).length = op.orgNum)) := by
  have within := voting.within
  rw [AcProvider.refusedByVotes]
  by_cases empty : mInfo.endorsementsOf .reject = []
  · exact ⟨false, between, if_pos (by simp [empty]), by simp [empty]⟩
  · have some := List.length_pos_iff.mpr empty
    obtain ⟨refuse, error, cache', checked, refuses⟩ :=
      voting.isMultiSignRefused verifier (by omega) empty holds
    refine ⟨refuse, cache', ?_, refuses.trans (and_iff_right some).symm⟩
    rw [if_neg (by simpa using empty)]
    exact bind_eq_ok.mpr ⟨_, checked, rfl⟩

theorem Voting.status (voting : p.Voting op r mInfo cache) (verifier : Verifier) :
    ∃ cache', p.verifyMultiSignTxPrincipal verifier mInfo cache =
      .ok (({ mInfo with status := (r.statusGiven op.orgNum (mInfo.endorsementsOf .agree).length
        (mInfo.endorsementsOf .reject).length) }, none), cache') := by
  have unchanged : { mInfo with status := .processing } = mInfo := by
    rw [← voting.processing]
  obtain ⟨agree, between, agreed, holds, agrees⟩ := voting.passedByVotes verifier
  obtain ⟨refuse, last, rejected, refuses⟩ := voting.refusedByVotes verifier holds
  rw [verifyMultiSignTxPrincipal, if_neg (not_not.mpr voting.processing), voting.policy, VoteRule.statusGiven]
  simp only [← agrees, ← refuses]
  cases agree with
  | true => exact ⟨between, bind_eq_ok.mpr ⟨_, agreed, rfl⟩⟩
  | false =>
    refine ⟨last, bind_eq_ok.mpr ⟨_, agreed, bind_eq_ok.mpr ⟨_, rejected, ?_⟩⟩⟩
    cases refuse with
    | true => rfl
    | false => exact congrArg (fun mInfo => Except.ok ((mInfo, none), last)) unchanged.symm

/-- Votes get the status that is due exactly for a majority, when nobody or everybody rejects,
or when somebody agrees under the rule ANY. -/
theorem verifyMultiSignTxPrincipal_due_iff (voting : p.Voting op r mInfo cache) (verifier : Verifier) :
    (∃ cache', p.verifyMultiSignTxPrincipal verifier mInfo cache =
      .ok (({ mInfo with status := (r.statusDue op.orgNum (mInfo.endorsementsOf .agree).length
        (mInfo.endorsementsOf .reject).length) }, none), cache')) ↔
      r.Agrees op.orgNum (mInfo.endorsementsOf .agree).length (mInfo.endorsementsOf .reject).length := by
  rw [← r.statusGiven_eq_iff voting.within]
  obtain ⟨cache', result⟩ := voting.status verifier
  rw [result]
  constructor
  · intro due
    obtain ⟨last, same⟩ := due
    injection same with same
    exact congrArg (fun outcome => outcome.1.1.status) same
  · intro same
    exact ⟨cache', by rw [same]⟩

private def votingOrgs : OrgProvider := .permissionedPk
  { keys := ⟨some, fun _ => none⟩
    orgNum := 2
    orgList := [[1], [2]]
    adminMember := (AList.singleton [1] [1]).insert [2] [2]
    consensusMember := ∅
    registered := ∅ }

private def votingProvider (r : VoteRule) : AcProvider where
  members := .org votingOrgs
  latestPolicyMap := ∅
  txTypePolicyMap := ∅
  senderPolicyMap := ∅
  resourceNamePolicyMap := AList.singleton (resourceNameOf [] []) ⟨r.rule, [], [roleAdmin]⟩

private def rejectedOnce : MultiSignInfo where
  payload := ⟨.invokeContract, [], [], [], []⟩
  contractName := []
  method := []
  status := .processing
  voteInfos := [⟨.reject, ⟨⟨[1], [1], .publicKey⟩, []⟩⟩]

private theorem rejectedOnce_voting (r : VoteRule) : (votingProvider r).Voting votingOrgs r rejectedOnce (ShardCache.newShardCache 0) where
  members := rfl
  orgNum := rfl
  cached := ShardCache.Holds.newShardCache _ 0
  processing := rfl
  policy := by cases r <;> rfl
  votes := by decide
  onChain := by decide
  admins := by
    intro voteInfo inside
    rw [List.mem_singleton.mp inside]
    refine ⟨?_, _, rfl, rfl⟩
    intro cached recorded
    have isMember : some (Member.mk [1] roleAdmin (.publicKey [1])) = some cached.member := recorded
    rw [← Option.some.inj isMember]
    exact ⟨rfl, rfl⟩
  once := by decide

theorem verifyMultiSignTxPrincipal_due_iff_half :
    (∃ cache', (votingProvider .majority).verifyMultiSignTxPrincipal signedByAll rejectedOnce
      (ShardCache.newShardCache 0) = .ok (({ rejectedOnce with status := .refused }, none),
        cache')) ↔ VoteRule.Agrees .majority 2 0 1 :=
  verifyMultiSignTxPrincipal_due_iff (rejectedOnce_voting .majority) signedByAll

/-- Under the rule ALL a rejection leaves the request open, although it cannot pass. -/
theorem rejected_request_stays_open : (votingProvider .all).verifyMultiSignTxPrincipal signedByAll rejectedOnce
      (ShardCache.newShardCache 0) = .ok ((rejectedOnce, none),
        (ShardCache.newShardCache 0).add [1] ⟨⟨[1], roleAdmin, .publicKey [1]⟩, []⟩) ∧
    rejectedOnce.status = .processing ∧ VoteRule.statusDue .all 2 0 1 = .refused :=
  ⟨rfl, rfl, by decide⟩

end AcProvider

end Pdcc.AccessControl
