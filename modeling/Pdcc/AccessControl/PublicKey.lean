import Pdcc.AccessControl.KeyRefinement
import Pdcc.AccessControl.Policy

/-!
# The provider of public keys

Members of a chain without organizations. Every readable key is a member; rules count
the endorsements of administrators. Repeated signers are told by their texts and
administrators by their keys, so that a count is one of administrators exactly if no
administrator has signed under two texts.
-/

set_option autoImplicit false

namespace Pdcc.AccessControl

open Ledger Library

def adminPublicKey : Bytes := ascii "public"

def dposOrgId : Bytes := ascii "dpos_org_id"

def permissionConsensusOrgId : Bytes := ascii "public"

-- the dotted capital I and the Kelvin sign become ASCII letters, as in `toUpper`
def toLower : Bytes → Bytes
  | 0xC4 :: 0xB0 :: rest => 105 :: toLower rest
  | 0xE2 :: 0x84 :: 0xAA :: rest => 107 :: toLower rest
  | char :: rest => (if 65 ≤ char ∧ char ≤ 90 then char + 32 else char) :: toLower rest
  | [] => []

inductive ConsensusType where
  | dpos
  | tbft
  | other
  deriving DecidableEq, Repr

structure PkACProvider where
  keys : KeyLibrary
  adminNum : Nat
  adminMember : List Bytes
  consensusMember : List Bytes

namespace PkACProvider

def initAdminMembers (pk : PkACProvider) (trustRootList : List TrustRootConfig) :
    Option PkACProvider :=
  if trustRootList.isEmpty then some pk
  else do
    let roots := (trustRootList.filter fun trustRoot => toLower trustRoot.orgId = adminPublicKey)
      |>.flatMap (·.root)
    let admins ← roots.mapM pk.keys.publicKeyFromPEM
    return { pk with adminMember := admins, adminNum := admins.length }

def initConsensusMember (pk : PkACProvider) (consensusType : ConsensusType)
    (consensusConf : List OrgConfig) : Option PkACProvider :=
  let memberOrgId : Option Bytes :=
    match consensusType with
    | .dpos => some dposOrgId
    | .tbft => some permissionConsensusOrgId
    | .other => none
  match memberOrgId, consensusConf with
  | some orgId, conf :: _ =>
    if conf.orgId = orgId then some { pk with consensusMember := conf.nodeId } else none
  | _, _ => none

variable (pk : PkACProvider)

def memberOfKey (pkBytes : Bytes) : Option Member :=
  if pk.adminMember.contains pkBytes then some ⟨[], roleAdmin, .publicKey pkBytes⟩
  else
    match pk.keys.createLibp2pPeerIdWithPublicKey pkBytes with
    | none => none
    | some nodeId =>
      if pk.consensusMember.contains nodeId then
        some ⟨[], roleConsensusNode, .publicKey pkBytes⟩
      else some ⟨[], [], .publicKey pkBytes⟩

def memberOfText (text : Bytes) : Option Member :=
  (pk.keys.publicKeyFromPEM text).bind pk.memberOfKey

def publicNewPkMemberFromAcs (member : PbMember) : Option Member :=
  if member.memberType = .publicKey then pk.memberOfText member.memberInfo else none

def getMemberFromCache (cache : MemberCache) (member : PbMember) : Option Member × MemberCache :=
  match cache.get member.memberInfo with
  | some cached => (some cached.member, cache)
  | none =>
    match pk.publicNewPkMemberFromAcs member with
    | none => (none, cache)
    | some tmpMember => (some tmpMember, cache.add member.memberInfo ⟨tmpMember, []⟩)

def newMember (cache : MemberCache) (pbMember : PbMember) : Option Member × MemberCache :=
  match pk.getMemberFromCache cache pbMember with
  | (some found, cache) => (some found, cache)
  | (none, cache) =>
    match pk.publicNewPkMemberFromAcs pbMember with
    | none => (none, cache)
    | some member => (some member, cache.add pbMember.memberInfo ⟨member, []⟩)

def refineEndorsements (verifier : Verifier) (msg : Bytes) (cache : MemberCache)
    (endorsements : List EndorsementEntry) : List EndorsementEntry × MemberCache :=
  refineKeyEndorsements pk.newMember verifier msg cache endorsements

def getValidEndorsementsInner (roleList : List Role) :
    List EndorsementEntry → MemberCache → List EndorsementEntry × MemberCache
  | [], cache => ([], cache)
  | endorsement :: rest, cache =>
    if roleList.isEmpty then
      let (valid, cache) := getValidEndorsementsInner roleList rest cache
      (endorsement :: valid, cache)
    else
      match pk.getMemberFromCache cache endorsement.signer with
      | (none, cache) => getValidEndorsementsInner roleList rest cache
      | (some member, cache) =>
        let (valid, cache) := getValidEndorsementsInner roleList rest cache
        (if roleList.contains member.role then endorsement :: valid else valid, cache)

def verifyRuleAnyCase (pol : Policy) :
    List EndorsementEntry → MemberCache → Verdict × MemberCache
  | [], cache => (.error (.anyNotMet pol.rule pol.roleList), cache)
  | endorsement :: rest, cache =>
    if pol.roleList.isEmpty then (.ok (), cache)
    else
      match pk.getMemberFromCache cache endorsement.signer with
      | (none, cache) => verifyRuleAnyCase pol rest cache
      | (some member, cache) =>
        let role := if member.role = [] then roleClient else member.role
        if pol.roleList.contains role then (.ok (), cache)
        else verifyRuleAnyCase pol rest cache

def verifyRuleAllCase (endorsements : List EndorsementEntry) (cache : MemberCache) :
    Verdict × MemberCache :=
  let (refinedEndorsements, cache) := pk.getValidEndorsementsInner [roleAdmin] endorsements cache
  let numOfValid := refinedEndorsements.length
  (if pk.adminNum ≤ numOfValid then .ok () else .error (.notEnough pk.adminNum numOfValid), cache)

def verifyRuleMajorityCase (endorsements : List EndorsementEntry) (cache : MemberCache) :
    Verdict × MemberCache :=
  let (refinedEndorsements, cache) := pk.getValidEndorsementsInner [roleAdmin] endorsements cache
  let numOfValid := refinedEndorsements.length
  (if pk.adminNum < 2 * numOfValid then .ok ()
    else .error (.notEnough (pk.adminNum / 2 + 1) numOfValid), cache)

def verifyRuleDefaultCase (pol : Policy) (endorsements : List EndorsementEntry)
    (cache : MemberCache) : Verdict × MemberCache :=
  let (refinedEndorsements, cache) := pk.getValidEndorsementsInner [roleAdmin] endorsements cache
  let numOfValid := refinedEndorsements.length
  match pol.rule.splitOn limitDelimiter with
  | [num] =>
    match parseInt num with
    | .error _ => (.error .unrecognizedRule, cache)
    | .ok threshold =>
      (if threshold ≤ numOfValid then .ok () else .error (.notEnough threshold numOfValid),
        cache)
  | [num, den] =>
    match parseInt num, parseInt den with
    | .ok numerator, .ok denominator =>
      let denominator : Int := if denominator ≤ 0 then pk.adminNum else denominator
      (if numRequired pk.adminNum numerator denominator ≤ Float.ofNat numOfValid then .ok ()
        else .error (.portionNotReached pk.adminNum numerator denominator numOfValid), cache)
    | _, _ => (.error .unrecognizedRule, cache)
  | _ => (.error .unrecognizedPrinciple, cache)

def verifyPrincipalPolicy (resourceName : Bytes) (pol : Policy)
    (endorsements : List EndorsementEntry) (cache : MemberCache) : Verdict × MemberCache :=
  if pol.rule = ruleForbidden then (.error (.forbidden resourceName), cache)
  else if pol.rule = ruleAny then pk.verifyRuleAnyCase pol endorsements cache
  else if pol.rule = ruleAll then pk.verifyRuleAllCase endorsements cache
  else if pol.rule = ruleMajority then pk.verifyRuleMajorityCase endorsements cache
  else pk.verifyRuleDefaultCase pol endorsements cache

section Members

variable {pk}

variable (pk) in
/-- What the cache may hold for a text. -/
def Recorded (text : Bytes) (info : MemberCached) : Prop :=
  pk.memberOfText text = some info.member

variable {signer : PbMember} {cache : MemberCache} {member : Member}

theorem memberOfText_of_new (built : pk.publicNewPkMemberFromAcs signer = some member) : pk.memberOfText signer.memberInfo = some member := by
  unfold publicNewPkMemberFromAcs at built
  split at built
  · exact built
  · cases built

theorem getMemberFromCache_cache (pk : PkACProvider) (cache : MemberCache) (signer : PbMember) :
    (pk.getMemberFromCache cache signer).2 = cache ∨ ∃ info, pk.Recorded signer.memberInfo info ∧
      (pk.getMemberFromCache cache signer).2 = cache.add signer.memberInfo info := by
  unfold getMemberFromCache
  split
  · exact .inl rfl
  · split
    · exact .inl rfl
    · next member built => exact .inr ⟨⟨member, []⟩, memberOfText_of_new built, rfl⟩

theorem getMemberFromCache_holds (holds : cache.Holds pk.Recorded) (signer : PbMember) :
    (pk.getMemberFromCache cache signer).2.Holds pk.Recorded := by
  rcases pk.getMemberFromCache_cache cache signer with same | ⟨info, recorded, added⟩
  · rwa [same]
  · rw [added]
    exact holds.add recorded

theorem getMemberFromCache_found (holds : cache.Holds pk.Recorded) (found : (pk.getMemberFromCache cache signer).1 = some member) :
    pk.memberOfText signer.memberInfo = some member := by
  unfold getMemberFromCache at found
  split at found
  · next present =>
    cases found
    exact holds _ _ present
  · split at found
    · cases found
    · next built =>
      cases found
      exact memberOfText_of_new built

theorem getMemberFromCache_present {info : MemberCached} (present : cache.get signer.memberInfo = some info) :
    pk.getMemberFromCache cache signer = (some info.member, cache) := by
  rw [getMemberFromCache, present]

theorem newMember_eq (cache : MemberCache) (signer : PbMember) : pk.newMember cache signer = pk.getMemberFromCache cache signer := by
  unfold newMember
  split
  · next found => rw [found]
  · next missing =>
    rw [missing]
    unfold getMemberFromCache at missing
    split at missing
    · cases missing
    · split at missing
      · cases missing
        rfl
      · cases missing

theorem memberSource (pk : PkACProvider) : MemberSource pk.newMember pk.Recorded
      fun signer member => pk.memberOfText signer.memberInfo = some member where
  step := fun cache signer => by
    rw [newMember_eq]
    exact pk.getMemberFromCache_cache cache signer
  sound := fun cache signer member holds made => by
    rw [newMember_eq] at made
    exact getMemberFromCache_found holds made
  complete := fun cache signer member info holds present recorded => by
    rw [newMember_eq, getMemberFromCache_present present]
    exact (holds _ _ present).symm.trans recorded
  entry := fun _ member recorded => ⟨⟨member, []⟩, recorded⟩

theorem admin_of_memberOfText {text : Bytes} (recorded : pk.memberOfText text = some member) (admin : member.role = roleAdmin) :
    ∃ pkBytes, pk.keys.publicKeyFromPEM text = some pkBytes ∧ pkBytes ∈ pk.adminMember ∧ member.credential = .publicKey pkBytes := by
  obtain ⟨pkBytes, read, made⟩ := Option.bind_eq_some_iff.mp recorded
  refine ⟨pkBytes, read, ?_⟩
  unfold memberOfKey at made
  split at made
  · next listed =>
    cases made
    exact ⟨by simpa using listed, rfl⟩
  · split at made
    · cases made
    · split at made <;> cases made <;> cases admin

theorem memberOfText_admin {text pkBytes : Bytes} (read : pk.keys.publicKeyFromPEM text = some pkBytes) (listed : pkBytes ∈ pk.adminMember) :
    pk.memberOfText text = some ⟨[], roleAdmin, .publicKey pkBytes⟩ := by
  have contained : pk.adminMember.contains pkBytes = true := by simpa using listed
  rw [memberOfText, read]
  simp only [Option.bind_some, memberOfKey, contained, if_true]

end Members

section Counting

variable {pk} {roleList : List Role} {cache : MemberCache}

theorem getValidEndorsementsInner_spec (restricted : roleList ≠ []) (holds : cache.Holds pk.Recorded) (endorsements : List EndorsementEntry) :
    (pk.getValidEndorsementsInner roleList endorsements cache).2.Holds pk.Recorded ∧
      (pk.getValidEndorsementsInner roleList endorsements cache).1.Sublist endorsements ∧
      ∀ endorsement ∈ (pk.getValidEndorsementsInner roleList endorsements cache).1,
        ∃ member, pk.memberOfText endorsement.signer.memberInfo = some member ∧ member.role ∈ roleList := by
  have nonempty : roleList.isEmpty = false := by simpa using restricted
  induction endorsements generalizing cache with
  | nil => exact ⟨holds, List.Sublist.refl _, fun _ inside => absurd inside List.not_mem_nil⟩
  | cons endorsement rest ih =>
    have keeps := getMemberFromCache_holds holds endorsement.signer
    have recorded {member : Member} (found : (pk.getMemberFromCache cache endorsement.signer).1 = some member) :
        pk.memberOfText endorsement.signer.memberInfo = some member :=
      getMemberFromCache_found holds found
    rw [getValidEndorsementsInner, nonempty]
    simp only [Bool.false_eq_true, if_false]
    generalize pk.getMemberFromCache cache endorsement.signer = looked at keeps recorded ⊢
    obtain ⟨found, next⟩ := looked
    obtain ⟨final, sublist, counted⟩ := ih keeps
    cases found with
    | none => exact ⟨final, sublist.cons _, counted⟩
    | some member =>
      by_cases listed : roleList.contains member.role = true
      · simp only [listed, if_true]
        refine ⟨final, sublist.cons_cons _, ?_⟩
        intro other inside
        rcases List.mem_cons.mp inside with rfl | later
        · exact ⟨member, recorded rfl, by simpa using listed⟩
        · exact counted other later
      · simp only [Bool.not_eq_true] at listed
        simp only [listed, Bool.false_eq_true, if_false]
        exact ⟨final, sublist.cons _, counted⟩

variable {endorsements : List EndorsementEntry}

theorem getValidEndorsementsInner_cached (restricted : roleList ≠ []) {role : PbMember → Role}
    (present : ∀ endorsement ∈ endorsements, ∃ info,
      cache.get endorsement.signer.memberInfo = some info ∧ info.member.role = role endorsement.signer) :
    pk.getValidEndorsementsInner roleList endorsements cache =
      (endorsements.filter fun endorsement => roleList.contains (role endorsement.signer), cache) := by
  have nonempty : roleList.isEmpty = false := by simpa using restricted
  induction endorsements with
  | nil => rfl
  | cons endorsement rest ih =>
    obtain ⟨info, cached, sameRole⟩ := present endorsement List.mem_cons_self
    have later := ih fun other inside => present other (List.mem_cons_of_mem _ inside)
    rw [getValidEndorsementsInner, nonempty, getMemberFromCache_present cached, List.filter_cons]
    simp only [Bool.false_eq_true, if_false, sameRole, later]

section Keys

variable {role : PbMember → Role}
  (keys : ∀ endorsement ∈ endorsements, endorsement.signer.memberType = .publicKey ∧
    ∃ member, pk.memberOfText endorsement.signer.memberInfo = some member ∧
      member.role = role endorsement.signer)

include keys

end Keys

variable {pol : Policy}

theorem verifyRuleAnyCase_holds (holds : cache.Holds pk.Recorded) (endorsements : List EndorsementEntry) :
    (pk.verifyRuleAnyCase pol endorsements cache).2.Holds pk.Recorded := by
  induction endorsements generalizing cache with
  | nil => exact holds
  | cons endorsement rest ih =>
    have keeps := getMemberFromCache_holds holds endorsement.signer
    rw [verifyRuleAnyCase]
    split
    · exact holds
    · split
      · next looked =>
        rw [looked] at keeps
        exact ih keeps
      · next member _ looked =>
        rw [looked] at keeps
        simp only
        generalize (if member.role = [] then roleClient else member.role) = role
        split
        · exact keeps
        · exact ih keeps

theorem verifyPrincipalPolicy_holds {resourceName : Bytes} (holds : cache.Holds pk.Recorded) (endorsements : List EndorsementEntry) :
    (pk.verifyPrincipalPolicy resourceName pol endorsements cache).2.Holds pk.Recorded := by
  have counted : (pk.getValidEndorsementsInner [roleAdmin] endorsements cache).2.Holds pk.Recorded :=
    (getValidEndorsementsInner_spec (List.cons_ne_nil roleAdmin []) holds endorsements).1
  unfold verifyPrincipalPolicy
  split
  · exact holds
  · split
    · exact verifyRuleAnyCase_holds holds endorsements
    · split
      · exact counted
      · split
        · exact counted
        · unfold verifyRuleDefaultCase
          simp only
          split
          · split <;> exact counted
          · split <;> exact counted
          · exact counted

end Counting

section Accepted

variable {pk} {resourceName : Bytes} {pol : Policy} {endorsements : List EndorsementEntry}
  {cache cache' : MemberCache}

theorem verifyPrincipalPolicy_all (rule : pol.rule = ruleAll) :
    pk.verifyPrincipalPolicy resourceName pol endorsements cache = pk.verifyRuleAllCase endorsements cache := by
  rw [verifyPrincipalPolicy, rule, if_neg (by decide), if_neg (by decide), if_pos rfl]

theorem verifyPrincipalPolicy_majority (rule : pol.rule = ruleMajority) : pk.verifyPrincipalPolicy resourceName pol endorsements cache =
      pk.verifyRuleMajorityCase endorsements cache := by
  rw [verifyPrincipalPolicy, rule, if_neg (by decide), if_neg (by decide), if_neg (by decide), if_pos rfl]

theorem verifyPrincipalPolicy_threshold {threshold : Int} (parsed : parseInt pol.rule = .ok threshold) :
    pk.verifyPrincipalPolicy resourceName pol endorsements cache =
      (if threshold ≤ (pk.getValidEndorsementsInner [roleAdmin] endorsements cache).1.length then .ok () else .error (.notEnough threshold
          (pk.getValidEndorsementsInner [roleAdmin] endorsements cache).1.length),
        (pk.getValidEndorsementsInner [roleAdmin] endorsements cache).2) := by
  rw [verifyPrincipalPolicy, if_neg (rule_ne parsed (by decide)), if_neg (rule_ne parsed (by decide)), if_neg (rule_ne parsed (by decide)),
    if_neg (rule_ne parsed (by decide)),
    verifyRuleDefaultCase, rule_splitOn parsed]
  simp only [parsed]

theorem reached_of_accepted (counts : pol.rule = ruleMajority ∨ pol.rule = ruleAll ∨ ∃ threshold, parseInt pol.rule = .ok threshold)
    (accepted : pk.verifyPrincipalPolicy resourceName pol endorsements cache = (.ok (), cache')) :
    pol.Reached pk.adminNum (pk.getValidEndorsementsInner [roleAdmin] endorsements cache).1.length := by
  rcases counts with rule | rule | ⟨threshold, parsed⟩
  · rw [verifyPrincipalPolicy_majority rule] at accepted
    exact .of_majority rule (ok_of_ite (congrArg Prod.fst accepted))
  · rw [verifyPrincipalPolicy_all rule] at accepted
    exact .of_all rule (ok_of_ite (congrArg Prod.fst accepted))
  · rw [verifyPrincipalPolicy_threshold parsed] at accepted
    exact .of_threshold parsed (ok_of_ite (congrArg Prod.fst accepted))

theorem accepted_of_threshold {threshold : Int} (parsed : parseInt pol.rule = .ok threshold)
    (enough : threshold ≤ (pk.getValidEndorsementsInner [roleAdmin] endorsements cache).1.length) :
    pk.verifyPrincipalPolicy resourceName pol endorsements cache =
      (.ok (), (pk.getValidEndorsementsInner [roleAdmin] endorsements cache).2) := by
  rw [verifyPrincipalPolicy_threshold parsed, if_pos enough]

end Accepted

section Soundness

/-- The entry is an administrator's, with a valid signature of its key. -/
def AdminSigns (verifier : Verifier) (msg : Bytes) (entry : EndorsementEntry) (pkBytes : Bytes) : Prop :=
  pkBytes ∈ pk.adminMember ∧ pk.keys.publicKeyFromPEM entry.signer.memberInfo = some pkBytes ∧
    verifier (.publicKey pkBytes) msg entry.signature = true

/-- As many administrator keys as the policy requires have signed. -/
def AdminQuorumMet (verifier : Verifier) (msg : Bytes) (pol : Policy)
    (entries : List EndorsementEntry) : Prop :=
  ∃ admins : List Bytes, admins.Nodup ∧ pol.Reached pk.adminNum admins.length ∧
    ∀ pkBytes ∈ admins, ∃ entry ∈ entries, pk.AdminSigns verifier msg entry pkBytes

/-- Whatever is cached, an accepted policy has its quorum of administrator keys. -/
def AdminQuorumSound (verifier : Verifier) (msg : Bytes) (entries : List EndorsementEntry) : Prop :=
  ∀ (cache cache' last : MemberCache) (pol : Policy) (resourceName : Bytes),
    cache.Holds pk.Recorded → cache'.Holds pk.Recorded →
    (pol.rule = ruleMajority ∨ pol.rule = ruleAll ∨
      ∃ threshold, parseInt pol.rule = .ok threshold) →
    pk.verifyPrincipalPolicy resourceName pol
      (pk.refineEndorsements verifier msg cache entries).1 cache' = (.ok (), last) →
    pk.AdminQuorumMet verifier msg pol entries

/-- No administrator has signed under two texts. -/
def AdminsWrittenOnce (verifier : Verifier) (msg : Bytes) (entries : List EndorsementEntry) : Prop :=
  ∀ first ∈ entries, ∀ second ∈ entries, ∀ pkBytes, pk.AdminSigns verifier msg first pkBytes →
    pk.AdminSigns verifier msg second pkBytes → first.signer.memberInfo = second.signer.memberInfo

variable {pk} {verifier : Verifier} {msg : Bytes} {cache cache' : MemberCache}
  {entries : List EndorsementEntry}

theorem exists_counted (holds : cache.Holds pk.Recorded) (holds' : cache'.Holds pk.Recorded) (entries : List EndorsementEntry) :
    ∃ counted : List EndorsementEntry, (pk.getValidEndorsementsInner [roleAdmin]
        (pk.refineEndorsements verifier msg cache entries).1 cache').1 = counted ∧
      counted ⊆ entries ∧ (counted.map (·.signer.memberInfo)).Nodup ∧
      ∀ entry ∈ counted, ∃ pkBytes, pk.AdminSigns verifier msg entry pkBytes := by
  obtain ⟨_, kept, result, sublist, distinct, admitted⟩ :=
    pk.memberSource.refine_spec verifier msg holds entries
  have refined : (pk.refineEndorsements verifier msg cache entries).1 = kept.map Prod.snd := result
  have texts : kept.map Prod.fst = (kept.map Prod.snd).map (·.signer.memberInfo) := by
    rw [List.map_map]
    refine List.map_congr_left fun pair inside => ?_
    obtain ⟨entry, _, rfl⟩ := List.mem_map.mp (sublist.subset inside)
    rfl
  rw [refined]
  obtain ⟨_, within, valid⟩ :=
    getValidEndorsementsInner_spec (List.cons_ne_nil roleAdmin []) holds' (kept.map Prod.snd)
  refine ⟨_, rfl, ?_, (texts ▸ distinct).sublist (within.map _), ?_⟩
  · intro entry inside
    rw [← map_snd_keyed entries]
    exact (sublist.map Prod.snd).subset (within.subset inside)
  · intro entry inside
    obtain ⟨pair, pairIn, rfl⟩ := List.mem_map.mp (within.subset inside)
    obtain ⟨member, recorded, listed⟩ := valid pair.2 inside
    obtain ⟨pkBytes, read, admin, credential⟩ :=
      admin_of_memberOfText recorded (List.mem_singleton.mp listed)
    obtain ⟨signer, admits, signed⟩ := admitted pair pairIn
    obtain rfl : signer = member := Option.some.inj (admits.symm.trans recorded)
    exact ⟨pkBytes, admin, read, credential ▸ signed⟩

variable (pk) in
def adminKey (entry : EndorsementEntry) : Bytes :=
  (pk.keys.publicKeyFromPEM entry.signer.memberInfo).getD []

theorem AdminSigns.adminKey_eq {entry : EndorsementEntry} {pkBytes : Bytes} (signs : pk.AdminSigns verifier msg entry pkBytes) :
    pk.adminKey entry = pkBytes := by
  rw [adminKey, signs.2.1]
  rfl

theorem AdminsWrittenOnce.sound (once : pk.AdminsWrittenOnce verifier msg entries) : pk.AdminQuorumSound verifier msg entries := by
  intro cache cache' last pol resourceName holds holds' counts accepted
  have reached := reached_of_accepted counts accepted
  obtain ⟨counted, isCounted, within, distinct, admins⟩ := exists_counted holds holds' entries
  rw [isCounted] at reached
  refine ⟨counted.map pk.adminKey, ?_, by rwa [List.length_map], ?_⟩
  · refine List.pairwise_map.mpr ((List.pairwise_map.mp distinct).imp_of_mem ?_)
    intro first second firstIn secondIn different sameKey
    obtain ⟨pkBytes, signs⟩ := admins first firstIn
    obtain ⟨pkBytes', signs'⟩ := admins second secondIn
    rw [signs.adminKey_eq, signs'.adminKey_eq] at sameKey
    exact different (once first (within firstIn) second (within secondIn) pkBytes signs (sameKey ▸ signs'))
  · intro pkBytes inside
    obtain ⟨entry, entryIn, rfl⟩ := List.mem_map.mp inside
    obtain ⟨pkBytes, signs⟩ := admins entry entryIn
    exact ⟨entry, within entryIn, signs.adminKey_eq ▸ signs⟩

theorem adminKey_congr {entry other : EndorsementEntry} (same : entry.signer.memberInfo = other.signer.memberInfo) :
    pk.adminKey entry = pk.adminKey other := by
  rw [adminKey, adminKey, same]

variable (pk) in
def recordedRole (signer : PbMember) : Role :=
  ((pk.memberOfText signer.memberInfo).map (·.role)).getD []

theorem recordedRole_eq {signer : PbMember} {member : Member} (recorded : pk.memberOfText signer.memberInfo = some member) :
    pk.recordedRole signer = member.role := by
  rw [recordedRole, recorded]
  rfl

theorem counted_of_warm {texts : List Bytes} (warm : cache.Warm pk.Recorded texts entries.length)
    (known : ∀ entry ∈ entries, ∀ member, pk.memberOfText entry.signer.memberInfo = some member →
      entry.signer.memberInfo ∈ texts) :
    (pk.getValidEndorsementsInner [roleAdmin] (pk.refineEndorsements verifier msg cache entries).1 cache).1 =
      (pk.refineEndorsements verifier msg cache entries).1.filter fun entry =>
        [roleAdmin].contains (pk.recordedRole entry.signer) := by
  obtain ⟨_, kept, result, sublist, _, admitted⟩ :=
    pk.memberSource.refine_spec verifier msg warm.holds entries
  have refined : (pk.refineEndorsements verifier msg cache entries).1 = kept.map Prod.snd := result
  have present : ∀ entry ∈ kept.map Prod.snd, ∃ info,
      cache.get entry.signer.memberInfo = some info ∧ info.member.role = pk.recordedRole entry.signer := by
    intro entry inside
    obtain ⟨pair, pairIn, rfl⟩ := List.mem_map.mp inside
    obtain ⟨member, recorded, _⟩ := admitted pair pairIn
    have entryIn : pair.2 ∈ entries := by
      rw [← map_snd_keyed entries]
      exact (sublist.map Prod.snd).subset inside
    obtain ⟨info, cached⟩ := warm.present _ (known pair.2 entryIn member recorded)
    exact ⟨info, cached, (recordedRole_eq (warm.holds _ _ cached)).symm⟩
  rw [refined, getValidEndorsementsInner_cached (List.cons_ne_nil roleAdmin []) present]

-- with every known text cached, each administrator that has signed is counted
theorem exists_counted_all (pk : PkACProvider) (verifier : Verifier) (msg : Bytes) (entries : List EndorsementEntry) :
    ∃ cache : MemberCache, cache.Holds pk.Recorded ∧
      ∀ entry ∈ entries, ∀ pkBytes, pk.AdminSigns verifier msg entry pkBytes →
        ∃ counted ∈ (pk.getValidEndorsementsInner [roleAdmin]
          (pk.refineEndorsements verifier msg cache entries).1 cache).1,
          counted.signer.memberInfo = entry.signer.memberInfo := by
  let texts := (entries.map (·.signer.memberInfo)).filter fun text => (pk.memberOfText text).isSome
  have recorded : ∀ text ∈ texts, ∃ info, pk.Recorded text info := by
    intro text inside
    obtain ⟨member, found⟩ := Option.isSome_iff_exists.mp (List.mem_filter.mp inside).2
    exact ⟨⟨member, []⟩, found⟩
  have known : ∀ entry ∈ entries, ∀ member, pk.memberOfText entry.signer.memberInfo = some member →
      entry.signer.memberInfo ∈ texts := by
    intro entry inside member found
    exact List.mem_filter.mpr ⟨List.mem_map_of_mem inside, Option.isSome_iff_exists.mpr ⟨member, found⟩⟩
  obtain ⟨cache, warm⟩ := ShardCache.exists_warm recorded entries.length
  refine ⟨cache, warm.holds, ?_⟩
  intro entry entryIn pkBytes signs
  have made := memberOfText_admin signs.2.1 signs.1
  obtain ⟨counted, countedIn, same⟩ := List.mem_map.mp
    (pk.memberSource.refine_complete warm entryIn (known entry entryIn _ made) made signs.2.2)
  rw [counted_of_warm warm known]
  refine ⟨counted, List.mem_filter.mpr ⟨countedIn, ?_⟩, same⟩
  have admin : pk.recordedRole counted.signer = roleAdmin := recordedRole_eq (same ▸ made)
  rw [admin]
  rfl

private theorem nodup_of_length_dedup {keys : List Bytes} (all : keys.length ≤ keys.dedup.length) : keys.Nodup := by
  have whole := (List.dedup_sublist keys).eq_of_length_le all
  exact whole ▸ List.nodup_dedup keys

theorem AdminQuorumSound.counted_nodup (sound : pk.AdminQuorumSound verifier msg entries) (small : pk.adminMember.length + 1 < 2 ^ 63)
    (holds : cache.Holds pk.Recorded) (all : ∀ entry ∈ entries, ∀ pkBytes, pk.AdminSigns verifier msg entry pkBytes →
      ∃ counted ∈ (pk.getValidEndorsementsInner [roleAdmin] (pk.refineEndorsements verifier msg cache entries).1 cache).1,
        counted.signer.memberInfo = entry.signer.memberInfo) :
    ((pk.getValidEndorsementsInner [roleAdmin]
      (pk.refineEndorsements verifier msg cache entries).1 cache).1.map pk.adminKey).Nodup := by
  obtain ⟨counted, isCounted, _, _, admins⟩ := exists_counted holds holds entries
  rw [isCounted] at all ⊢
  refine nodup_of_length_dedup ?_
  by_contra more
  have listed : (counted.map pk.adminKey).dedup ⊆ pk.adminMember := by
    intro key inside
    obtain ⟨entry, entryIn, rfl⟩ := List.mem_map.mp (List.mem_dedup.mp inside)
    obtain ⟨pkBytes, signs⟩ := admins entry entryIn
    exact signs.adminKey_eq ▸ signs.1
  have few := (List.subperm_of_subset (List.nodup_dedup _) listed).length_le
  -- one more than the keys is still accepted
  generalize keysLength : (counted.map pk.adminKey).dedup.length = count at more few
  rw [List.length_map] at more
  have parsed : parseInt (formatInt (count + 1)) = .ok (count + 1) := parseInt_formatInt (by omega) (by omega)
  have enough : (count + 1 : Int) ≤ (pk.getValidEndorsementsInner [roleAdmin]
      (pk.refineEndorsements verifier msg cache entries).1 cache).1.length := by
    rw [isCounted]
    omega
  obtain ⟨quorum, nodup, reached, endorsed⟩ := sound cache cache _ ⟨formatInt (count + 1), [], []⟩ [] holds holds
    (.inr (.inr ⟨_, parsed⟩)) (accepted_of_threshold parsed enough)
  have many := reached.threshold _ parsed
  have inKeys : quorum ⊆ (counted.map pk.adminKey).dedup := by
    intro key inside
    obtain ⟨entry, entryIn, signs⟩ := endorsed key inside
    obtain ⟨other, otherIn, same⟩ := all entry entryIn key signs
    refine List.mem_dedup.mpr (List.mem_map.mpr ⟨other, otherIn, ?_⟩)
    rw [adminKey_congr same, signs.adminKey_eq]
  have bound := (List.subperm_of_subset nodup inKeys).length_le
  omega

theorem AdminQuorumSound.written_once (sound : pk.AdminQuorumSound verifier msg entries) (small : pk.adminMember.length + 1 < 2 ^ 63) :
    pk.AdminsWrittenOnce verifier msg entries := by
  intro first firstIn second secondIn pkBytes signs signs'
  obtain ⟨cache, holds, all⟩ := pk.exists_counted_all verifier msg entries
  obtain ⟨one, oneIn, sameFirst⟩ := all first firstIn pkBytes signs
  obtain ⟨two, twoIn, sameSecond⟩ := all second secondIn pkBytes signs'
  have sameKey : pk.adminKey one = pk.adminKey two := by
    rw [adminKey_congr sameFirst, adminKey_congr sameSecond, signs.adminKey_eq, signs'.adminKey_eq]
  have sameEntry := List.inj_on_of_nodup_map (sound.counted_nodup small holds all) oneIn twoIn sameKey
  rw [← sameFirst, ← sameSecond, sameEntry]

/-- Counts are those of administrators exactly for the lists in which no administrator has
signed under two texts; the number of administrators is a machine integer. -/
theorem adminQuorumSound_iff (pk : PkACProvider) (verifier : Verifier) (msg : Bytes)
    (entries : List EndorsementEntry) (small : pk.adminMember.length + 1 < 2 ^ 63) :
    pk.AdminQuorumSound verifier msg entries ↔ pk.AdminsWrittenOnce verifier msg entries :=
  ⟨fun sound => sound.written_once small, AdminsWrittenOnce.sound⟩

private def threeAdmins : PkACProvider where
  keys := ⟨fun text => text.head?.map ([·]), fun _ => none⟩
  adminNum := 3
  adminMember := [[1], [2], [3]]
  consensusMember := []

private def unsignedText : List EndorsementEntry :=
  [⟨⟨[], [1], .publicKey⟩, [1]⟩, ⟨⟨[], [1, 0], .publicKey⟩, []⟩]

theorem adminQuorumSound_unsignedText : threeAdmins.AdminQuorumSound signedByAll [] unsignedText := by
  refine (adminQuorumSound_iff threeAdmins signedByAll [] unsignedText (by decide)).mpr ?_
  have signed : ∀ entry ∈ unsignedText, ∀ pkBytes, threeAdmins.AdminSigns signedByAll [] entry pkBytes →
      entry.signer.memberInfo = [1] := by
    intro entry inside pkBytes signs
    simp only [unsignedText, List.mem_cons, List.not_mem_nil, or_false] at inside
    rcases inside with rfl | rfl
    · rfl
    · cases signs.2.2
  intro first firstIn second secondIn pkBytes signs signs'
  rw [signed first firstIn pkBytes signs, signed second secondIn pkBytes signs']

private def twoEncodings : List EndorsementEntry :=
  [⟨⟨[], [1], .publicKey⟩, [1]⟩, ⟨⟨[], [1, 0], .publicKey⟩, [1]⟩]

theorem majority_accepted_of_one_administrator :
    (∃ last, threeAdmins.verifyPrincipalPolicy [] ⟨ruleMajority, [], []⟩
      (threeAdmins.refineEndorsements signedByAll [] (ShardCache.newShardCache 0) twoEncodings).1
      (ShardCache.newShardCache 0) = (.ok (), last)) ∧
    ¬ threeAdmins.AdminQuorumMet signedByAll [] ⟨ruleMajority, [], []⟩ twoEncodings := by
  refine ⟨⟨_, rfl⟩, ?_⟩
  intro met
  obtain ⟨admins, distinct, reached, endorsed⟩ := met
  have single : admins ⊆ [[1]] := by
    intro admin inside
    obtain ⟨entry, entryIn, _, read, _⟩ := endorsed admin inside
    simp only [twoEncodings, List.mem_cons, List.not_mem_nil, or_false] at entryIn
    rcases entryIn with rfl | rfl
    · cases read
      exact List.mem_singleton_self _
    · cases read
      exact List.mem_singleton_self _
  have few := (List.subperm_of_subset distinct single).length_le
  have many : 3 < 2 * admins.length := reached.majority rfl
  rw [List.length_singleton] at few
  omega

end Soundness

end PkACProvider

end Pdcc.AccessControl
