import Mathlib.Data.List.Dedup
import Pdcc.AccessControl.KeyRefinement

/-!
# The provider of permissioned public keys

Members of a chain without certificates: administrators and consensus nodes of the
chain configuration, and keys that were registered on the chain. Each of them
belongs to the organization it is recorded with.
-/

set_option autoImplicit false

namespace Pdcc.AccessControl

open Ledger Library

structure PKInfo where
  orgId : Bytes
  role : Bytes

structure PermissionedPkACProvider where
  keys : KeyLibrary
  orgNum : Nat
  orgList : List Bytes
  adminMember : AList fun _ : Bytes => Bytes
  consensusMember : AList fun _ : Bytes => Bytes
  registered : AList fun _ : Bytes => PKInfo

namespace PermissionedPkACProvider

def initAdminMembers (pp : PermissionedPkACProvider) (trustRootList : List TrustRootConfig) :
    Option PermissionedPkACProvider := do
  let adminsOf (trustRoot : TrustRootConfig) : Option (List (Bytes × Bytes)) :=
    trustRoot.root.mapM fun root =>
      (pp.keys.publicKeyFromPEM root).map fun pkBytes => (pkBytes, trustRoot.orgId)
  let admins ← trustRootList.mapM adminsOf
  let orgList := (trustRootList.map (·.orgId)).dedup
  return { pp with
    orgNum := orgList.length
    orgList := orgList
    adminMember := admins.flatten.foldl (fun table admin => table.insert admin.1 admin.2) ∅ }

def initConsensusMember (pp : PermissionedPkACProvider) (consensusConf : List OrgConfig) :
    PermissionedPkACProvider :=
  { pp with
    consensusMember := (consensusConf.flatMap fun conf => conf.nodeId.map (·, conf.orgId)).foldl
      (fun table node => table.insert node.1 node.2) ∅ }

variable (pp : PermissionedPkACProvider)

def memberOfKey (pkBytes : Bytes) : Option Member :=
  match pp.adminMember.lookup pkBytes with
  | some orgId => some ⟨orgId, roleAdmin, .publicKey pkBytes⟩
  | none =>
    match pp.keys.createLibp2pPeerIdWithPublicKey pkBytes with
    | none => none
    | some nodeId =>
      match pp.consensusMember.lookup nodeId with
      | some orgId => some ⟨orgId, roleConsensusNode, .publicKey pkBytes⟩
      | none =>
        (pp.registered.lookup pkBytes).map fun info =>
          ⟨info.orgId, info.role, .publicKey pkBytes⟩

def memberOfText (text : Bytes) : Option Member :=
  (pp.keys.publicKeyFromPEM text).bind pp.memberOfKey

def newPkMemberFromAcs (member : PbMember) : Option Member :=
  if member.memberType = .publicKey then pp.memberOfText member.memberInfo else none

def newMemberFromAcs (member : PbMember) : Option Member :=
  (pp.newPkMemberFromAcs member).filter fun pkMember =>
    pkMember.orgId = member.orgId || member.orgId = []

def rebuildMember (signer : PbMember) : Except Panic (Option MemberCached) :=
  .ok ((pp.newMemberFromAcs signer).map (⟨·, []⟩))

def newPkMember (cache : MemberCache) (member : PbMember) : Option Member × MemberCache :=
  match getMemberFromCache pp.rebuildMember cache member with
  | .ok (some found, cache) => (some found, cache)
  | .ok (none, cache) =>
    match pp.newMemberFromAcs member with
    | none => (none, cache)
    | some pkMember => (some pkMember, cache.add member.memberInfo ⟨pkMember, []⟩)
  -- rebuilding a member does not panic in this mode
  | .error _ => (none, cache)

def refineEndorsements (verifier : Verifier) (msg : Bytes) (cache : MemberCache)
    (endorsements : List EndorsementEntry) : List EndorsementEntry × MemberCache :=
  refineKeyEndorsements pp.newPkMember verifier msg cache endorsements

section Recorded

variable {pp}

variable (pp) in
/-- What the cache may hold for a text. -/
def Recorded (text : Bytes) (info : MemberCached) : Prop :=
  pp.memberOfText text = some info.member

variable (pp) in
def Admits (signer : PbMember) (member : Member) : Prop :=
  pp.memberOfText signer.memberInfo = some member ∧
    (signer.orgId = member.orgId ∨ (signer.memberType = .publicKey ∧ signer.orgId = []))

variable {signer : PbMember} {member : Member}

theorem newMemberFromAcs_eq_some : pp.newMemberFromAcs signer = some member ↔
      pp.memberOfText signer.memberInfo = some member ∧ signer.memberType = .publicKey ∧
        (signer.orgId = member.orgId ∨ signer.orgId = []) := by
  unfold newMemberFromAcs newPkMemberFromAcs
  rw [Option.filter_eq_some_iff]
  by_cases key : signer.memberType = .publicKey
  · rw [if_pos key, Bool.or_eq_true, decide_eq_true_eq, decide_eq_true_eq, eq_comm (b := signer.orgId)]
    simp [key]
  · rw [if_neg key]
    simp [key]

theorem recorded_of_rebuildMember (signer : PbMember) (cached : MemberCached) (built : pp.rebuildMember signer = .ok (some cached)) :
    pp.Recorded signer.memberInfo cached := by
  injection built with same
  obtain ⟨member, made, rfl⟩ := Option.map_eq_some_iff.mp same
  exact (newMemberFromAcs_eq_some.mp made).1

theorem newPkMember_found {cache cache' : MemberCache} (made : pp.newPkMember cache signer = (some member, cache')) :
    (∃ info, cache.get signer.memberInfo = some info ∧ info.member = member ∧ member.orgId = signer.orgId ∧ cache' = cache) ∨
    (pp.newMemberFromAcs signer = some member ∧ cache' = cache.add signer.memberInfo ⟨member, []⟩) := by
  unfold newPkMember at made
  split at made
  · next looked =>
    cases made
    refine (getMemberFromCache_found looked).imp id ?_
    rintro ⟨cached, _, again, rfl, added⟩
    injection again with same
    obtain ⟨member, built, rfl⟩ := Option.map_eq_some_iff.mp same
    exact ⟨built, added⟩
  · next looked =>
    cases getMemberFromCache_absent looked
    split at made
    · cases made
    · next built =>
      cases made
      exact .inr ⟨built, rfl⟩
  · cases made

theorem newPkMember_admits {cache : MemberCache} (holds : cache.Holds pp.Recorded)
    (made : (pp.newPkMember cache signer).1 = some member) : pp.Admits signer member := by
  rcases newPkMember_found (Prod.ext made rfl) with
    ⟨info, present, rfl, belongs, _⟩ | ⟨built, _⟩
  · exact ⟨holds _ _ present, .inl belongs.symm⟩
  · obtain ⟨recorded, key, claimed⟩ := newMemberFromAcs_eq_some.mp built
    exact ⟨recorded, claimed.imp id fun empty => ⟨key, empty⟩⟩

theorem newPkMember_cache (cache : MemberCache) (signer : PbMember) :
    (pp.newPkMember cache signer).2 = cache ∨ ∃ info, pp.Recorded signer.memberInfo info ∧
      (pp.newPkMember cache signer).2 = cache.add signer.memberInfo info := by
  unfold newPkMember
  split
  · next looked =>
    rcases getMemberFromCache_cache looked with same | ⟨info, built, added⟩
    · exact .inl same
    · exact .inr ⟨info, recorded_of_rebuildMember _ _ built, added⟩
  · next looked =>
    rw [getMemberFromCache_absent looked]
    split
    · exact .inl rfl
    · next pkMember built =>
      exact .inr ⟨⟨pkMember, []⟩, (newMemberFromAcs_eq_some.mp built).1, rfl⟩
  · exact .inl rfl

theorem newPkMember_admitted {cache : MemberCache} (holds : cache.Holds pp.Recorded)
    {info : MemberCached} (present : cache.get signer.memberInfo = some info)
    (admits : pp.Admits signer member) :
    (pp.newPkMember cache signer).1 = some member := by
  obtain ⟨recorded, claimed⟩ := admits
  have same : info.member = member :=
    Option.some.inj ((holds _ _ present).symm.trans recorded)
  unfold newPkMember getMemberFromCache
  simp only [present, same]
  by_cases belongs : member.orgId = signer.orgId
  · rw [if_pos belongs]
  · obtain ⟨key, empty⟩ := claimed.resolve_left fun own => belongs own.symm
    have built : pp.newMemberFromAcs signer = some member :=
      newMemberFromAcs_eq_some.mpr ⟨recorded, key, .inr empty⟩
    simp only [if_neg belongs, built]

theorem memberSource (pp : PermissionedPkACProvider) : MemberSource pp.newPkMember pp.Recorded pp.Admits where
  step := newPkMember_cache
  sound := fun _ _ _ holds made => newPkMember_admits holds made
  complete := fun _ _ _ _ holds present admits => newPkMember_admitted holds present admits
  entry := fun _ member admits => ⟨⟨member, []⟩, admits.1⟩

end Recorded

end PermissionedPkACProvider

end Pdcc.AccessControl
