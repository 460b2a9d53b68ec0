import Pdcc.AccessControl.TxPrincipal

/-!
# The authentication of transactions in version 2.3.2

The check of chains that still run an earlier version. The sender is authenticated under
the policy of the transaction type or an exceptional policy of the resource, and the
endorsers of an invocation under the policy of the resource.
-/

set_option autoImplicit false

namespace Pdcc.AccessControl

open Ledger Library

structure LegacyTransaction where
  txType : TxType
  contractName : Bytes
  method : Bytes
  parameters : Option (List (Bytes × Bytes))
  unsignedTxBytes : Bytes
  sender : Option EndorsementEntry
  endorsers : Option (List EndorsementEntry)
  payer : Option EndorsementEntry

namespace LegacyTransaction

variable (tx : LegacyTransaction)

def endorsements : List EndorsementEntry := tx.endorsers.getD tx.sender.toList

def orgId : Option Bytes :=
  (tx.parameters.bind (List.find? fun parameter => parameter.1 = configNameOrgId)).map (·.2)

end LegacyTransaction

structure Principal where
  resourceName : Bytes
  endorsement : List EndorsementEntry
  message : Bytes
  targetOrg : Bytes

inductive LegacyAuthError where
  | principal (resourceName : Bytes) (error : AuthError)
  | authentication (error : AuthError)
  | invalidPayer
  | orgIdNotSet
  | principalWithOrgId (targetOrg contractName method : Bytes) (error : AuthError)
  | principalFor (contractName method : Bytes) (error : AuthError)
  | authenticationFor (contractName method : Bytes) (error : AuthError)
  deriving DecidableEq, Repr

structure LegacyAcProvider where
  members : Members
  latestPolicyMap : AList fun _ : Bytes => Policy
  resourceNamePolicyMap2320 : AList fun _ : Bytes => Policy
  exceptionalPolicyMap2320 : AList fun _ : Bytes => Policy

namespace LegacyAcProvider

variable (p : LegacyAcProvider) (verifier : Verifier) (resourceName : Bytes)

def lookUpPolicy2320 : Option Policy :=
  (p.latestPolicyMap.lookup resourceName).or (p.resourceNamePolicyMap2320.lookup resourceName)

def lookUpExceptionalPolicy2320 : Option Policy :=
  (p.latestPolicyMap.lookup resourceName).or (p.exceptionalPolicyMap2320.lookup resourceName)

def lookUpPolicyByResourceName2320 : Option Policy :=
  (p.latestPolicyMap.lookup resourceName).or
    ((p.resourceNamePolicyMap2320.lookup resourceName).or
      (p.exceptionalPolicyMap2320.lookup resourceName))

def createPrincipal (endorsements : List EndorsementEntry) (message : Bytes) : Except AuthError Principal :=
  match p.members.principalError false endorsements with
  | some error => .error error
  | none => .ok ⟨resourceName, endorsements, message, []⟩

def createPrincipalForTargetOrg (endorsements : List EndorsementEntry)
    (message targetOrg : Bytes) : Except AuthError Principal :=
  match p.members.principalError true endorsements with
  | some error => .error error
  | none => .ok ⟨resourceName, endorsements, message, targetOrg⟩

def verifyPrincipal2320 (principal : Principal) (cache : MemberCache) :
    Except Panic (Verdict × MemberCache) :=
  match p.members.refinePrincipal verifier principal.message principal.endorsement cache with
  | (.error error, cache) => .ok (.error error, cache)
  | (.ok refined, cache) =>
    match p.lookUpPolicyByResourceName2320 principal.resourceName with
    | none => .ok (.error (.policyNotConfigured principal.resourceName), cache)
    | some pol =>
      p.members.verifyPrincipalPolicy principal.targetOrg principal.resourceName pol refined
        cache

variable (tx : LegacyTransaction) (resourceId : Bytes)

def senderResource : Bytes :=
  if (p.lookUpExceptionalPolicy2320 resourceId).isSome then resourceId else tx.txType.name

def verifySender2320 (cache : MemberCache) :
    Except Panic (Except LegacyAuthError Principal × MemberCache) := do
  match p.createPrincipal (p.senderResource tx resourceId) tx.sender.toList tx.unsignedTxBytes with
  | .error error => return (.error (.principal (p.senderResource tx resourceId) error), cache)
  | .ok principal =>
    match ← p.verifyPrincipal2320 verifier principal cache with
    | (.error error, cache) => return (.error (.authentication error), cache)
    | (.ok (), cache) => return (.ok principal, cache)

def verifyPayer2320 (cache : MemberCache) : Bool × MemberCache :=
  match tx.payer with
  | none => (true, cache)
  | some payer =>
    let (refined, cache) :=
      p.members.refineEndorsements verifier tx.unsignedTxBytes cache [payer]
    (!refined.isEmpty, cache)

/-- The principal of the check of the endorsers. It takes the place of the sender's, which
stays when the rule is SELF and there are no parameters at all. -/
def endorserPrincipal (pol : Policy) (principal : Principal) : Except LegacyAuthError Principal :=
  if pol.rule = ruleSelf then
    match tx.parameters with
    | none => .ok principal
    | some _ =>
      let targetOrg := tx.orgId.getD []
      if targetOrg = [] then .error .orgIdNotSet
      else
        match p.createPrincipalForTargetOrg resourceId tx.endorsements tx.unsignedTxBytes
          targetOrg with
        | .error error =>
          .error (.principalWithOrgId targetOrg tx.contractName tx.method error)
        | .ok principal => .ok principal
  else
    match p.createPrincipal resourceId tx.endorsements tx.unsignedTxBytes with
    | .error error => .error (.principalFor tx.contractName tx.method error)
    | .ok principal => .ok principal

def verifyEndorsers2320 (pol : Policy) (principal : Principal) (cache : MemberCache) :
    Except Panic (Except LegacyAuthError Unit × MemberCache) := do
  match p.endorserPrincipal tx resourceId pol principal with
  | .error error => return (.error error, cache)
  | .ok principal =>
    match ← p.verifyPrincipal2320 verifier principal cache with
    | (.error error, cache) =>
      return (.error (.authenticationFor tx.contractName tx.method error), cache)
    | (.ok (), cache) => return (.ok (), cache)

def verifyTxPrincipal2320 (cache : MemberCache) :
    Except Panic (Except LegacyAuthError Unit × MemberCache) := do
  match ← p.verifySender2320 verifier tx resourceId cache with
  | (.error error, cache) => return (.error error, cache)
  | (.ok principal, cache) =>
    if tx.txType ≠ .invokeContract then return (.ok (), cache)
    else
      match p.verifyPayer2320 verifier tx cache with
      | (false, cache) => return (.error .invalidPayer, cache)
      | (true, cache) =>
        match p.lookUpPolicy2320 resourceId with
        | none => return (.ok (), cache)
        | some pol => p.verifyEndorsers2320 verifier tx resourceId pol principal cache

def cacheForEndorsers (cache : MemberCache) : MemberCache :=
  match p.verifySender2320 verifier tx resourceId cache with
  | .ok (_, cache) => (p.verifyPayer2320 verifier tx cache).2
  | .error _ => cache

end LegacyAcProvider

def Members.Administers (m : Members) (signer : PbMember) (org : Bytes) : Prop :=
  ∃ info, m.Recorded signer.memberInfo info ∧ info.member.orgId = org ∧
    info.member.role = roleAdmin

namespace OrgProvider

variable {p : OrgProvider}

theorem orgId_of_rebuildMember {signer : PbMember} {info : MemberCached} (built : p.rebuildMember signer = .ok (some info)) :
    signer.orgId = [] ∨ info.member.orgId = signer.orgId := by
  cases p with
  | cert cp =>
    obtain ⟨cert, _, claimed, same, _⟩ := CertACProvider.rebuildMember_cases built
    rw [same]
    exact claimed.imp id Eq.symm
  | permissionedPk pp =>
    injection built with same
    obtain ⟨member, made, rfl⟩ := Option.map_eq_some_iff.mp same
    obtain ⟨_, _, claimed⟩ := PermissionedPkACProvider.newMemberFromAcs_eq_some.mp made
    exact claimed.symm.imp id Eq.symm

theorem administers_of_allows {signer : PbMember} {org : Bytes} (named : org ≠ [])
    (allowed : Allows p.rebuildMember p.Recorded [org] [roleAdmin] signer) :
    (Members.org p).Administers signer org := by
  obtain ⟨listed, counted⟩ := allowed
  have claims : signer.orgId = org := by simpa using listed
  obtain ⟨role, isAdmin, counts⟩ := counted.resolve_left (List.cons_ne_nil _ _)
  cases List.mem_singleton.mp isAdmin
  rcases counts with ⟨info, recorded, belongs, role⟩ | ⟨info, built, role⟩
  · exact ⟨info, recorded, belongs.trans claims, role⟩
  · have belongs := (orgId_of_rebuildMember built).resolve_left fun empty =>
      named (claims.symm.trans empty)
    exact ⟨info, recorded_of_rebuildMember signer info built, belongs.trans claims, role⟩

end OrgProvider

/-- The validly signed endorsements satisfy the policy of the resource. -/
def LegacyAcProvider.Satisfied (p : LegacyAcProvider) (verifier : Verifier) (tx : LegacyTransaction)
    (resourceId : Bytes) (pol : Policy) (cache : MemberCache) : Prop :=
  let (refined, cache) :=
    p.members.refineEndorsements verifier tx.unsignedTxBytes cache tx.endorsements
  if pol.rule = ruleSelf then
    ∃ org, tx.orgId = some org ∧
      ∃ endorsement ∈ refined, p.members.Administers endorsement.signer org
  else
    ∃ cache', p.members.verifyPrincipalPolicy [] resourceId pol refined cache = .ok (.ok (), cache')

namespace LegacyAcProvider

section Accepted

variable {p : LegacyAcProvider} {verifier : Verifier} {tx : LegacyTransaction} {resourceId : Bytes}
  {pol : Policy} {principal principal' : Principal} {cache cache' : MemberCache}

theorem lookUpPolicyByResourceName2320_of_lookUpPolicy (configured : p.lookUpPolicy2320 resourceId = some pol) :
    p.lookUpPolicyByResourceName2320 resourceId = some pol := by
  unfold lookUpPolicy2320 at configured
  rw [lookUpPolicyByResourceName2320, ← Option.or_assoc, configured, Option.some_or]

theorem verifyPrincipal2320_accepted (accepted : p.verifyPrincipal2320 verifier principal cache = .ok (.ok (), cache')) :
    ∃ pol, p.lookUpPolicyByResourceName2320 principal.resourceName = some pol ∧
      p.members.verifyPrincipalPolicy principal.targetOrg principal.resourceName pol
        (p.members.refineEndorsements verifier principal.message cache principal.endorsement).1
        (p.members.refineEndorsements verifier principal.message cache principal.endorsement).2 = .ok (.ok (), cache') := by
  simp only [verifyPrincipal2320, Members.refinePrincipal] at accepted
  split at accepted
  · cases accepted
  · next refined between done =>
    split at done
    · cases done
    · cases done
      split at accepted
      · cases accepted
      · next pol found => exact ⟨pol, found, accepted⟩

theorem verifyPrincipal2320_holds (holds : cache.Holds p.members.Recorded)
    (accepted : p.verifyPrincipal2320 verifier principal cache = .ok (.ok (), cache')) :
    cache'.Holds p.members.Recorded := by
  obtain ⟨_, _, checked⟩ := verifyPrincipal2320_accepted accepted
  exact Members.verifyPrincipalPolicy_holds (p.members.refineEndorsements_holds verifier _ holds _) checked

theorem verifySender2320_holds (holds : cache.Holds p.members.Recorded)
    (accepted : p.verifySender2320 verifier tx resourceId cache = .ok (.ok principal, cache')) :
    cache'.Holds p.members.Recorded := by
  unfold verifySender2320 at accepted
  split at accepted
  · cases accepted
  · obtain ⟨⟨verdict, between⟩, checked, rest⟩ := bind_eq_ok.mp accepted
    cases verdict with
    | error error => cases rest
    | ok _ =>
      cases rest
      exact verifyPrincipal2320_holds holds checked

theorem verifyPayer2320_holds (holds : cache.Holds p.members.Recorded) :
    (p.verifyPayer2320 verifier tx cache).2.Holds p.members.Recorded := by
  unfold verifyPayer2320
  split
  · exact holds
  · exact p.members.refineEndorsements_holds verifier _ holds _

theorem verifyTxPrincipal2320_accepted (holds : cache.Holds p.members.Recorded) (invocation : tx.txType = .invokeContract)
    (configured : p.lookUpPolicy2320 resourceId = some pol)
    (accepted : p.verifyTxPrincipal2320 verifier tx resourceId cache = .ok (.ok (), cache')) :
    (p.cacheForEndorsers verifier tx resourceId cache).Holds p.members.Recorded ∧
      ∃ principal principal', p.endorserPrincipal tx resourceId pol principal = .ok principal' ∧ p.verifyPrincipal2320 verifier principal'
          (p.cacheForEndorsers verifier tx resourceId cache) = .ok (.ok (), cache') := by
  obtain ⟨⟨sent, first⟩, senderChecked, rest⟩ := bind_eq_ok.mp accepted
  cases sent with
  | error error => cases rest
  | ok principal =>
    simp only [invocation, ne_eq, not_true_eq_false, if_false, configured] at rest
    have between : p.cacheForEndorsers verifier tx resourceId cache = (p.verifyPayer2320 verifier tx first).2 := by
      rw [cacheForEndorsers, senderChecked]
    rw [between]
    refine ⟨verifyPayer2320_holds (verifySender2320_holds holds senderChecked), principal, ?_⟩
    split at rest
    · cases rest
    · next second paid =>
      rw [paid]
      unfold verifyEndorsers2320 at rest
      split at rest
      · cases rest
      · next principal' made =>
        refine ⟨principal', made, ?_⟩
        obtain ⟨⟨verdict, last⟩, checked, result⟩ := bind_eq_ok.mp rest
        cases verdict with
        | error error => cases result
        | ok _ =>
          cases result
          exact checked

theorem createPrincipal_eq_ok {resourceName message : Bytes} {endorsements : List EndorsementEntry}
    (made : p.createPrincipal resourceName endorsements message = .ok principal) :
    principal = ⟨resourceName, endorsements, message, []⟩ := by
  unfold createPrincipal at made
  split at made
  · cases made
  · cases made
    rfl

theorem createPrincipalForTargetOrg_eq_ok {resourceName message targetOrg : Bytes} {endorsements : List EndorsementEntry}
    (made : p.createPrincipalForTargetOrg resourceName endorsements message targetOrg = .ok principal) :
    principal = ⟨resourceName, endorsements, message, targetOrg⟩ ∧ ∃ provider, p.members = .org provider := by
  unfold createPrincipalForTargetOrg at made
  split at made
  · cases made
  · next unhindered =>
    cases made
    refine ⟨rfl, ?_⟩
    cases mode : p.members with
    | org provider => exact ⟨provider, rfl⟩
    | pk provider =>
      rw [mode] at unhindered
      cases unhindered

theorem endorserPrincipal_of_self (rule : pol.rule = ruleSelf) {parameters : List (Bytes × Bytes)} (given : tx.parameters = some parameters)
    (made : p.endorserPrincipal tx resourceId pol principal = .ok principal') :
    ∃ org, org ≠ [] ∧ tx.orgId = some org ∧ principal' = ⟨resourceId, tx.endorsements, tx.unsignedTxBytes, org⟩ ∧
      ∃ provider, p.members = .org provider := by
  simp only [endorserPrincipal, if_pos rule, given] at made
  split at made
  · cases made
  · next named =>
    split at made
    · cases made
    · next built =>
      cases made
      obtain ⟨same, mode⟩ := createPrincipalForTargetOrg_eq_ok built
      cases isOrg : tx.orgId with
      | none => exact absurd (by rw [isOrg]; rfl) named
      | some org =>
        rw [isOrg] at named same
        exact ⟨org, named, rfl, same, mode⟩

theorem endorserPrincipal_of_not_self (rule : pol.rule ≠ ruleSelf) (made : p.endorserPrincipal tx resourceId pol principal = .ok principal') :
    principal' = ⟨resourceId, tx.endorsements, tx.unsignedTxBytes, []⟩ := by
  rw [endorserPrincipal, if_neg rule] at made
  split at made
  · cases made
  · next built =>
    cases made
    exact createPrincipal_eq_ok built

theorem administers_of_verifyPrincipal2320 {provider : OrgProvider}
    (mode : p.members = .org provider) (holds : cache.Holds p.members.Recorded)
    (configured : p.lookUpPolicy2320 resourceId = some pol) (rule : pol.rule = ruleSelf)
    {endorsements : List EndorsementEntry} {message org : Bytes} (named : org ≠ [])
    (accepted : p.verifyPrincipal2320 verifier ⟨resourceId, endorsements, message, org⟩ cache = .ok (.ok (), cache')) :
    ∃ endorsement ∈ (p.members.refineEndorsements verifier message cache endorsements).1, p.members.Administers endorsement.signer org := by
  obtain ⟨pol', found, checked⟩ := verifyPrincipal2320_accepted accepted
  cases found.symm.trans (lookUpPolicyByResourceName2320_of_lookUpPolicy configured)
  have recorded := p.members.refineEndorsements_holds verifier message holds endorsements
  rw [mode] at checked recorded ⊢
  simp only [Members.verifyPrincipalPolicy, verifyPrincipalPolicy_self rule, verifyPrincipalPolicyRuleSelfCase, if_neg named] at checked
  obtain ⟨⟨met, last⟩, searched, result⟩ := bind_eq_ok.mp checked
  cases met with
  | false => cases result
  | true =>
    obtain ⟨endorsement, inside, allowed⟩ :=
      exists_allows_of_anyMeets OrgProvider.recorded_of_rebuildMember recorded searched
    exact ⟨endorsement, inside, OrgProvider.administers_of_allows named allowed⟩

/-- An accepted invocation satisfies the policy of its resource, unless the rule is SELF and
the transaction has no parameters. -/
theorem satisfied_iff_of_accepted (holds : cache.Holds p.members.Recorded)
    (invocation : tx.txType = .invokeContract)
    (configured : p.lookUpPolicy2320 resourceId = some pol)
    (accepted : p.verifyTxPrincipal2320 verifier tx resourceId cache = .ok (.ok (), cache')) :
    p.Satisfied verifier tx resourceId pol (p.cacheForEndorsers verifier tx resourceId cache) ↔
      ¬ (pol.rule = ruleSelf ∧ tx.parameters = none) := by
  obtain ⟨recorded, principal, principal', made, checked⟩ :=
    verifyTxPrincipal2320_accepted holds invocation configured accepted
  unfold Satisfied
  by_cases rule : pol.rule = ruleSelf
  · simp only [rule, true_and]
    cases given : tx.parameters with
    | none =>
      -- no parameter names an organization, whoever has endorsed
      simp [LegacyTransaction.orgId, given]
    | some parameters =>
      obtain ⟨org, named, isOrg, rfl, provider, mode⟩ := endorserPrincipal_of_self rule given made
      refine ⟨nofun, fun _ => ⟨org, isOrg, ?_⟩⟩
      exact administers_of_verifyPrincipal2320 mode recorded configured rule named checked
  · simp only [rule, false_and, not_false_eq_true, iff_true]
    rw [endorserPrincipal_of_not_self rule made] at checked
    obtain ⟨pol', found, checked⟩ := verifyPrincipal2320_accepted checked
    cases found.symm.trans (lookUpPolicyByResourceName2320_of_lookUpPolicy configured)
    exact ⟨cache', checked⟩

private def nodeChain : LegacyAcProvider where
  members := .org (.permissionedPk
    { keys := ⟨some, some⟩
      orgNum := 1
      orgList := [ascii "org1"]
      adminMember := AList.singleton [1] (ascii "org1")
      consensusMember := ∅
      registered := AList.singleton [2] ⟨ascii "org1", roleClient⟩ })
  latestPolicyMap := ∅
  resourceNamePolicyMap2320 :=
    (AList.singleton (ascii "CHAIN_CONFIG-NODE_ID_UPDATE") ⟨ruleSelf, [], [roleAdmin]⟩).insert
      (ascii "INVOKE_CONTRACT") ⟨ruleAny, [], [roleClient, roleAdmin]⟩
  exceptionalPolicyMap2320 := ∅

private def nodeUpdate (parameters : Option (List (Bytes × Bytes)))
    (endorsers : Option (List EndorsementEntry)) : LegacyTransaction where
  txType := .invokeContract
  contractName := ascii "CHAIN_CONFIG"
  method := ascii "NODE_ID_UPDATE"
  parameters := parameters
  unsignedTxBytes := []
  sender := some ⟨⟨ascii "org1", [2], .publicKey⟩, [1]⟩
  endorsers := endorsers
  payer := none

theorem satisfied_of_named_organization :
    let tx := nodeUpdate (some [(configNameOrgId, ascii "org1")])
      (some [⟨⟨ascii "org1", [1], .publicKey⟩, [1]⟩])
    nodeChain.Satisfied signedByAll tx (ascii "CHAIN_CONFIG-NODE_ID_UPDATE")
      ⟨ruleSelf, [], [roleAdmin]⟩ (nodeChain.cacheForEndorsers signedByAll tx
        (ascii "CHAIN_CONFIG-NODE_ID_UPDATE") (ShardCache.newShardCache 0)) := by
  intro tx
  obtain ⟨last, accepted⟩ : ∃ last, nodeChain.verifyTxPrincipal2320 signedByAll tx
      (ascii "CHAIN_CONFIG-NODE_ID_UPDATE") (ShardCache.newShardCache 0) = .ok (.ok (), last) :=
    ⟨_, rfl⟩
  exact (satisfied_iff_of_accepted (ShardCache.Holds.newShardCache _ 0) rfl rfl accepted).mpr
    fun absent => Option.some_ne_none _ absent.2

/-- A client changes the nodes of an organization without an administrator. -/
theorem invocation_accepted_without_parameters :
    (∃ last, nodeChain.verifyTxPrincipal2320 signedByAll (nodeUpdate none none)
      (ascii "CHAIN_CONFIG-NODE_ID_UPDATE") (ShardCache.newShardCache 0) = .ok (.ok (), last)) ∧
    nodeChain.lookUpPolicy2320 (ascii "CHAIN_CONFIG-NODE_ID_UPDATE") = some ⟨ruleSelf, [], [roleAdmin]⟩ ∧
    ∀ cache, ¬ nodeChain.Satisfied signedByAll (nodeUpdate none none)
      (ascii "CHAIN_CONFIG-NODE_ID_UPDATE") ⟨ruleSelf, [], [roleAdmin]⟩ cache := by
  refine ⟨⟨_, rfl⟩, rfl, ?_⟩
  intro cache satisfied
  obtain ⟨org, isOrg, _⟩ := satisfied
  cases isOrg

end Accepted

end LegacyAcProvider

end Pdcc.AccessControl
