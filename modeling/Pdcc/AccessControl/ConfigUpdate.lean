import Mathlib.Data.Finset.Card
import Mathlib.Data.List.Induction
import Pdcc.Library.Tables
import Pdcc.AccessControl.CertProvider
import Pdcc.AccessControl.PermissionedKey
import Pdcc.AccessControl.PublicKey

/-!
# Updates of the chain configuration

A provider is built from a chain configuration when a node starts, and it follows later
configurations by messages. The two paths are compared: what a provider has after a message
and what one built from the new configuration has. Certificates are given by their encoding.
-/

set_option autoImplicit false

namespace Pdcc.AccessControl

open Ledger Library

inductive ChainConsensus where
  | maxbft
  | standard (consensusType : ConsensusType)
  deriving DecidableEq, Repr

structure ResourcePolicy where
  resourceName : Bytes
  policy : Option Policy

structure ChainConfig where
  consensus : ChainConsensus
  consensusNodes : List OrgConfig
  trustRoots : List TrustRootConfig
  trustMembers : List TrustMemberConfig
  resourcePolicies : List ResourcePolicy

def ruleDelete : Bytes := ascii "DELETE"

def restrainedResourceList : List Bytes :=
  ["ALL_TEST", "P2P", "CONSENSUS", "QUERY_CONTRACT", "INVOKE_CONTRACT", "SUBSCRIBE",
    "ARCHIVE"].map ascii

def restrainedResourceListPK : List Bytes :=
  restrainedResourceList ++
    ["CERT_MANAGE-CERT_ALIAS_ADD", "CERT_MANAGE-CERT_ALIAS_UPDATE",
      "CERT_MANAGE-CERTS_ALIAS_DELETE", "CERT_MANAGE-CERTS_ALIAS_QUERY",
      "CERT_MANAGE-CERTS_QUERY", "CERT_MANAGE-CERT_ADD", "CERT_MANAGE-CERTS_FREEZE",
      "CERT_MANAGE-CERTS_UNFREEZE", "CERT_MANAGE-CERTS_DELETE", "CERT_MANAGE-CERTS_REVOKE",
      "CHAIN_CONFIG-ALTER_ADDR_TYPE"].map ascii

def newPolicyFromPb (input : Policy) : Policy :=
  { input with roleList := input.roleList.map toUpper }

def checkResourcePolicyRuleDefaultCase (rule : Bytes) : Bool :=
  match rule.splitOn limitDelimiter with
  | [num] => (parseInt num).isOk
  | [num, den] =>
    match parseInt num, parseInt den with
    | .ok numerator, .ok denominator => 0 < numerator && 0 < denominator
    | _, _ => false
  | _ => false

def validateWith (restrained : List Bytes) (orgListOk : List Bytes → Bool)
    (selfOk majorityOk : Bytes → List Bytes → Bool) (resourcePolicy : ResourcePolicy) : Bool :=
  !restrained.contains resourcePolicy.resourceName &&
    resourcePolicy.policy.any fun pol =>
      orgListOk pol.orgList &&
        (if pol.rule = ruleAny ∨ pol.rule = ruleAll ∨ pol.rule = ruleForbidden then true
        else if pol.rule = ruleSelf then selfOk resourcePolicy.resourceName pol.roleList
        else if pol.rule = ruleMajority then majorityOk resourcePolicy.resourceName pol.roleList
        else if pol.rule = ruleDelete then true
        else checkResourcePolicyRuleDefaultCase pol.rule)

def validateResourcePolicy (known : Bytes → Bool) : ResourcePolicy → Bool :=
  validateWith restrainedResourceList (fun orgList => orgList.all known && decide orgList.Nodup)
    (fun resourceName roleList =>
      ([ascii "CHAIN_CONFIG-TRUST_ROOT_UPDATE", ascii "CHAIN_CONFIG-NODE_ID_UPDATE"].contains
        resourceName) && roleList = [roleAdmin])
    fun _ _ => true

def validateResourcePolicyPK : ResourcePolicy → Bool :=
  validateWith restrainedResourceListPK
    (fun orgList => orgList.isEmpty || (orgList.length = 1 && orgList ≠ [ascii "public"]))
    (fun _ _ => true) fun _ roleList => roleList = [] || roleList = [roleAdmin]

/-- The configured policies that pass a check; a later one replaces an earlier one. They come
before the default policies, which depend on the mode and on the consensus type only. -/
def loadResourcePolicy (valid : ResourcePolicy → Bool) (resourcePolicies : List ResourcePolicy) :
    Table Bytes Policy :=
  (resourcePolicies.filter valid).foldl (fun latest resourcePolicy =>
    match resourcePolicy.policy with
    | none => latest
    | some pol => latest.insert resourcePolicy.resourceName (newPolicyFromPb pol)) ∅

def SameLookups {Value : Type} (left right : Table Bytes Value) : Prop :=
  ∀ key, left.lookup key = right.lookup key

def SameMembers (left right : List Bytes) : Prop := ∀ item, item ∈ left ↔ item ∈ right

section Certificates

structure RootLibrary where
  buildCertificateChain : Bytes → Option (List Bytes)
  isCA : Bytes → Bool

structure OrgCerts where
  trustedRootCerts : List Bytes
  trustedIntermediateCerts : List Bytes

structure CertTrust where
  orgNum : Nat
  orgList : Table Bytes OrgCerts
  roots : List Bytes
  intermediates : List Bytes

namespace CertTrust

def empty : CertTrust := ⟨0, ∅, [], []⟩

variable (lib : RootLibrary) (trust : CertTrust)

def addOrg (orgId : Bytes) (org : OrgCerts) : CertTrust :=
  { trust with
    orgList := trust.orgList.insert orgId org
    orgNum := if (trust.orgList.lookup orgId).isSome then trust.orgNum else trust.orgNum + 1 }

def addCerts (org : OrgCerts) : CertTrust :=
  { trust with
    roots := trust.roots ++ org.trustedRootCerts
    intermediates := trust.intermediates ++ org.trustedIntermediateCerts }

def rootChain (root : Bytes) : Option (List Bytes) :=
  (lib.buildCertificateChain root).filter fun chain => chain.getLast?.any lib.isCA

def initTrustRoot (orgRoot : TrustRootConfig) : Option CertTrust := do
  let chains ← orgRoot.root.mapM (rootChain lib)
  let org : OrgCerts := ⟨chains.filterMap (·.getLast?), chains.flatten⟩
  return (trust.addOrg orgRoot.orgId org).addCerts org

def initTrustRoots (roots : List TrustRootConfig) : Option CertTrust :=
  roots.foldlM (initTrustRoot lib) empty

def addRoot (org : OrgCerts) (root : Bytes) : Option OrgCerts := do
  let chain ← lib.buildCertificateChain root
  let org : OrgCerts := ⟨org.trustedRootCerts ++ chain.filter lib.isCA,
    org.trustedIntermediateCerts ++ chain.filter (!lib.isCA ·)⟩
  if org.trustedRootCerts.isEmpty then none else some org

def updateTrustRoot (orgRoot : TrustRootConfig) : Option CertTrust := do
  let org ← orgRoot.root.foldlM (addRoot lib) ⟨[], []⟩
  return { trust.addCerts org with
    orgNum := trust.orgNum + 1
    orgList := trust.orgList.insert orgRoot.orgId org }

def initTrustRootsForUpdatingChainConfig (roots : List TrustRootConfig) : Option CertTrust :=
  roots.foldlM (updateTrustRoot lib) empty

end CertTrust

structure CertState where
  consensus : ChainConsensus
  trust : CertTrust
  trustMembers : TrustMembers
  latestPolicyMap : Table Bytes Policy

namespace CertState

variable (lib : RootLibrary) (x509 : X509)

def known (trust : CertTrust) (orgId : Bytes) : Bool := (trust.orgList.lookup orgId).isSome

def newCertACProvider (governance : Option ChainConfig) (chainConfig : ChainConfig) :
    Option CertState := do
  let consensus := chainConfig.consensus
  let chainConfig := if consensus = .maxbft then governance.getD chainConfig else chainConfig
  let trustMembers ← initTrustMembers x509 chainConfig.trustMembers
  let trust ← CertTrust.initTrustRoots lib chainConfig.trustRoots
  return ⟨consensus, trust, trustMembers,
    loadResourcePolicy (validateResourcePolicy (known trust)) chainConfig.resourcePolicies⟩

def messageChainConfig (cp : CertState) (chainConfig : ChainConfig) : CertState :=
  let cp := { cp with
    latestPolicyMap :=
      loadResourcePolicy (validateResourcePolicy (known cp.trust)) chainConfig.resourcePolicies }
  if cp.consensus = .maxbft then cp
  else
    match CertTrust.initTrustRootsForUpdatingChainConfig lib chainConfig.trustRoots with
    | none => cp
    | some trust =>
      let cp := { cp with trust }
      match initTrustMembers x509 chainConfig.trustMembers with
      | none => cp
      | some trustMembers => { cp with trustMembers }

end CertState

structure SameTrust (left right : CertTrust) : Prop where
  orgNum : left.orgNum = right.orgNum
  orgs : ∀ orgId, (left.orgList.lookup orgId).isSome = (right.orgList.lookup orgId).isSome
  orgRoots : ∀ orgId leftOrg rightOrg, left.orgList.lookup orgId = some leftOrg →
    right.orgList.lookup orgId = some rightOrg →
    SameMembers leftOrg.trustedRootCerts rightOrg.trustedRootCerts ∧
      SameMembers leftOrg.trustedIntermediateCerts rightOrg.trustedIntermediateCerts
  roots : SameMembers left.roots right.roots
  intermediates : SameMembers left.intermediates right.intermediates

structure Rootless (roots : List TrustRootConfig) : Prop where
  distinct : (roots.map (·.orgId)).Nodup
  without : ∀ orgRoot ∈ roots, orgRoot.root = []

namespace CertTrust

variable {lib : RootLibrary} {trust after : CertTrust} {orgRoot : TrustRootConfig}
  {roots : List TrustRootConfig}

theorem rootChain_eq_some {root : Bytes} {chain : List Bytes} (built : rootChain lib root = some chain) :
    lib.buildCertificateChain root = some chain ∧ ∃ cert ∈ chain, lib.isCA cert = true := by
  obtain ⟨found, ends⟩ := Option.filter_eq_some_iff.mp built
  obtain ⟨cert, last, authority⟩ := Option.any_eq_true _ _ |>.mp ends
  exact ⟨found, cert, List.mem_of_getLast? last, authority⟩

structure Adds (trust : CertTrust) (orgRoot : TrustRootConfig) (org : OrgCerts)
    (after : CertTrust) : Prop where
  orgList : after.orgList = trust.orgList.insert orgRoot.orgId org
  roots : after.roots = trust.roots ++ org.trustedRootCerts
  intermediates : after.intermediates = trust.intermediates ++ org.trustedIntermediateCerts
  without : orgRoot.root = [] → org = ⟨[], []⟩

theorem initTrustRoot_adds (added : trust.initTrustRoot lib orgRoot = some after) :
    ∃ org, trust.Adds orgRoot org after ∧ after.orgNum = (trust.addOrg orgRoot.orgId org).orgNum ∧
      ∀ root ∈ orgRoot.root, ∃ chain, lib.buildCertificateChain root = some chain ∧
        ∃ cert ∈ chain, lib.isCA cert = true ∧ cert ∈ org.trustedIntermediateCerts := by
  obtain ⟨chains, built, same⟩ := Option.bind_eq_some_iff.mp added
  cases same
  refine ⟨_, ⟨rfl, rfl, rfl, fun noRoot => ?_⟩, rfl, fun root member => ?_⟩
  · rw [noRoot] at built
    cases built
    rfl
  · obtain ⟨chain, listed, found⟩ := exists_of_map (map_of_mapM built) member
    obtain ⟨build, cert, inside, authority⟩ := rootChain_eq_some found
    exact ⟨chain, build, cert, inside, authority, List.mem_flatten.mpr ⟨chain, listed, inside⟩⟩

theorem addRoot_intermediates {texts : List Bytes} {result : OrgCerts} (added : texts.foldlM (addRoot lib) ⟨[], []⟩ = some result) :
    ∀ cert ∈ result.trustedIntermediateCerts, lib.isCA cert = false := by
  refine foldlM_some_invariant added nofun ?_
  intro _ text org next before here
  obtain ⟨chain, _, here⟩ := Option.bind_eq_some_iff.mp here
  dsimp only at here
  split at here
  · cases here
  · cases here
    intro cert member
    rcases List.mem_append.mp member with earlier | new
    · exact before cert earlier
    · simpa using (List.mem_filter.mp new).2

theorem addRoot_returns {texts : List Bytes} (built : ∀ text ∈ texts, ∃ chain, lib.buildCertificateChain text = some chain ∧
      ∃ cert ∈ chain, lib.isCA cert = true) (org : OrgCerts) :
    ∃ result, texts.foldlM (addRoot lib) org = some result := by
  refine foldlM_some_total (fun text member org => ?_) org
  obtain ⟨chain, found, cert, inside, authority⟩ := built text member
  have listed : cert ∈ org.trustedRootCerts ++ chain.filter lib.isCA :=
    List.mem_append_right _ (List.mem_filter.mpr ⟨inside, authority⟩)
  have kept : (org.trustedRootCerts ++ chain.filter lib.isCA).isEmpty = false :=
    List.isEmpty_eq_false_iff.mpr (List.ne_nil_of_mem listed)
  rw [addRoot, found]
  simp only [Option.bind_eq_bind, Option.bind_some, kept, Bool.false_eq_true, if_false]
  exact ⟨_, rfl⟩

theorem updateTrustRoot_adds (added : trust.updateTrustRoot lib orgRoot = some after) :
    ∃ org, trust.Adds orgRoot org after ∧ after.orgNum = trust.orgNum + 1 ∧ ∀ cert ∈ org.trustedIntermediateCerts, lib.isCA cert = false := by
  obtain ⟨org, built, same⟩ := Option.bind_eq_some_iff.mp added
  cases same
  refine ⟨org, ⟨rfl, rfl, rfl, fun noRoot => ?_⟩, rfl, addRoot_intermediates built⟩
  rw [noRoot] at built
  cases built
  rfl

structure Loaded (done : List TrustRootConfig) (trust : CertTrust) : Prop where
  orgs : ∀ orgId, (trust.orgList.lookup orgId).isSome = true ↔ orgId ∈ done.map (·.orgId)
  rootless : (∀ orgRoot ∈ done, orgRoot.root = []) →
    trust.roots = [] ∧ trust.intermediates = [] ∧
      ∀ orgId org, trust.orgList.lookup orgId = some org → org = ⟨[], []⟩

theorem loaded_empty : Loaded [] empty :=
  ⟨fun _ => iff_of_false nofun List.not_mem_nil, fun _ => ⟨rfl, rfl, nofun⟩⟩

theorem Loaded.add {org : OrgCerts} (loaded : Loaded roots trust)
    (adds : trust.Adds orgRoot org after) : Loaded (roots ++ [orgRoot]) after := by
  constructor
  · intro orgId
    rw [adds.orgList, Table.lookup_insert_eq, List.map_append, List.mem_append, ← loaded.orgs]
    by_cases same : orgId = orgRoot.orgId <;> simp [same]
  · intro without
    obtain ⟨earlier, last⟩ := List.forall_mem_append.mp without
    cases adds.without (last orgRoot (List.mem_singleton_self _))
    obtain ⟨noRoots, noIntermediates, bare⟩ := loaded.rootless earlier
    refine ⟨by rw [adds.roots, noRoots]; rfl, by rw [adds.intermediates, noIntermediates]; rfl, ?_⟩
    intro orgId org found
    rw [adds.orgList, Table.lookup_insert_eq] at found
    split at found
    · exact (Option.some.inj found).symm
    · exact bare orgId org found

theorem initTrustRoots_spec (ran : initTrustRoots lib roots = some after) :
    Loaded roots after ∧ after.orgNum = (roots.map (·.orgId)).toFinset.card ∧
      ∀ orgRoot ∈ roots, ∀ root ∈ orgRoot.root, ∃ chain, lib.buildCertificateChain root = some chain ∧
          ∃ cert ∈ chain, lib.isCA cert = true ∧ cert ∈ after.intermediates := by
  refine foldlM_some_invariant ran ⟨loaded_empty, rfl, nofun⟩ ?_
  rintro done orgRoot trust next ⟨loaded, count, authorities⟩ added
  obtain ⟨org, adds, orgNum, chains⟩ := initTrustRoot_adds added
  have grown : ((done ++ [orgRoot]).map (·.orgId)).toFinset = insert orgRoot.orgId (done.map (·.orgId)).toFinset := by
    ext orgId
    simp
  refine ⟨loaded.add adds, ?_, ?_⟩
  · rw [orgNum, grown, addOrg]
    by_cases known : orgRoot.orgId ∈ (done.map (·.orgId)).toFinset
    · rw [Finset.insert_eq_of_mem known]
      exact (if_pos ((loaded.orgs _).mpr (List.mem_toFinset.mp known))).trans count
    · rw [Finset.card_insert_of_notMem known, ← count]
      exact if_neg fun present => known (List.mem_toFinset.mpr ((loaded.orgs _).mp present))
  · rw [List.forall_mem_append, adds.intermediates]
    constructor
    · intro other member root inside
      obtain ⟨chain, built, cert, listed, authority, stored⟩ := authorities other member root inside
      exact ⟨chain, built, cert, listed, authority, List.mem_append_left _ stored⟩
    · intro other member root inside
      cases List.mem_singleton.mp member
      obtain ⟨chain, built, cert, listed, authority, stored⟩ := chains root inside
      exact ⟨chain, built, cert, listed, authority, List.mem_append_right _ stored⟩

theorem updateTrustRoots_spec (ran : initTrustRootsForUpdatingChainConfig lib roots = some after) :
    Loaded roots after ∧ after.orgNum = roots.length ∧ ∀ cert ∈ after.intermediates, lib.isCA cert = false := by
  refine foldlM_some_invariant ran ⟨loaded_empty, rfl, nofun⟩ ?_
  rintro done orgRoot trust next ⟨loaded, count, before⟩ added
  obtain ⟨org, adds, orgNum, others⟩ := updateTrustRoot_adds added
  refine ⟨loaded.add adds, by rw [orgNum, count, List.length_append]; rfl, ?_⟩
  rw [adds.intermediates, List.forall_mem_append]
  exact ⟨before, others⟩

theorem updateTrustRoots_returns (trust : CertTrust) (built : ∀ orgRoot ∈ roots, ∀ root ∈ orgRoot.root,
      ∃ chain, lib.buildCertificateChain root = some chain ∧ ∃ cert ∈ chain, lib.isCA cert = true) :
    ∃ after, roots.foldlM (updateTrustRoot lib) trust = some after := by
  refine foldlM_some_total (fun orgRoot member trust => ?_) trust
  obtain ⟨org, added⟩ := addRoot_returns (built orgRoot member) ⟨[], []⟩
  rw [updateTrustRoot, added]
  exact ⟨_, rfl⟩

theorem card_toFinset_eq_length_iff {items : List Bytes} : items.toFinset.card = items.length ↔ items.Nodup := by
  rw [List.card_toFinset]
  constructor
  · intro same
    rw [← (List.dedup_sublist items).eq_of_length same]
    exact List.nodup_dedup items
  · intro distinct
    rw [distinct.dedup]

theorem updated_same_iff {updated fresh : CertTrust} (started : initTrustRoots lib roots = some fresh)
    (followed : initTrustRootsForUpdatingChainConfig lib roots = some updated) :
    SameTrust updated fresh ↔ Rootless roots := by
  obtain ⟨loaded, count, authorities⟩ := initTrustRoots_spec started
  obtain ⟨newLoaded, total, others⟩ := updateTrustRoots_spec followed
  have counts : updated.orgNum = fresh.orgNum ↔ (roots.map (·.orgId)).Nodup := by
    rw [total, count, ← card_toFinset_eq_length_iff, List.length_map, eq_comm]
  constructor
  · intro same
    refine ⟨counts.mp same.orgNum, fun orgRoot member => ?_⟩
    refine List.eq_nil_iff_forall_not_mem.mpr fun root inside => ?_
    obtain ⟨_, _, cert, _, authority, stored⟩ := authorities orgRoot member root inside
    have other := others cert ((same.intermediates cert).mpr stored)
    rw [authority] at other
    cases other
  · rintro ⟨distinct, without⟩
    obtain ⟨freshRoots, freshIntermediates, freshOrgs⟩ := loaded.rootless without
    obtain ⟨newRoots, newIntermediates, newOrgs⟩ := newLoaded.rootless without
    refine ⟨counts.mpr distinct, fun orgId => ?_, ?_, ?_, ?_⟩
    · exact Bool.eq_iff_iff.mpr ((newLoaded.orgs orgId).trans (loaded.orgs orgId).symm)
    · intro orgId leftOrg rightOrg left right
      cases newOrgs orgId leftOrg left
      cases freshOrgs orgId rightOrg right
      exact ⟨fun _ => .rfl, fun _ => .rfl⟩
    · rw [newRoots, freshRoots]
      exact fun _ => .rfl
    · rw [newIntermediates, freshIntermediates]
      exact fun _ => .rfl

end CertTrust

end Certificates

section Policies

def lastPolicy (valid : ResourcePolicy → Bool) (resourcePolicies : List ResourcePolicy)
    (resourceName : Bytes) : Option Policy :=
  (resourcePolicies.reverse.find? fun resourcePolicy =>
    valid resourcePolicy && resourcePolicy.resourceName = resourceName).bind
      fun resourcePolicy => resourcePolicy.policy.map newPolicyFromPb

theorem policy_of_validateResourcePolicy {known : Bytes → Bool} {resourcePolicy : ResourcePolicy}
    (valid : validateResourcePolicy known resourcePolicy = true) :
    resourcePolicy.policy.isSome = true := by
  obtain ⟨pol, found, _⟩ := (Option.any_eq_true _ _).mp (Bool.and_eq_true_iff.mp valid).2
  exact Option.isSome_iff_exists.mpr ⟨pol, found⟩

theorem lookup_loadResourcePolicy {valid : ResourcePolicy → Bool}
    (given : ∀ resourcePolicy, valid resourcePolicy = true → resourcePolicy.policy.isSome = true)
    (resourcePolicies : List ResourcePolicy) (resourceName : Bytes) :
    (loadResourcePolicy valid resourcePolicies).lookup resourceName = lastPolicy valid resourcePolicies resourceName := by
  induction resourcePolicies using List.reverseRecOn with
  | nil => rfl
  | append_singleton earlier last ih =>
    rw [loadResourcePolicy] at ih ⊢
    rw [lastPolicy] at ih ⊢
    rw [List.filter_append, List.foldl_append, List.reverse_append]
    cases passes : valid last with
    | false => simpa [passes] using ih
    | true =>
      obtain ⟨pol, some⟩ := Option.isSome_iff_exists.mp (given last passes)
      by_cases same : last.resourceName = resourceName
      · simp [passes, some, same]
      · simpa [passes, some, same, Ne.symm same] using ih

def ChainConfig.names (chainConfig : ChainConfig) (orgId : Bytes) : Bool :=
  (chainConfig.trustRoots.map (·.orgId)).contains orgId

def PoliciesKept (old new : ChainConfig) : Prop :=
  ∀ resourceName,
    lastPolicy (validateResourcePolicy old.names) new.resourcePolicies resourceName =
      lastPolicy (validateResourcePolicy new.names) new.resourcePolicies resourceName

end Policies

namespace CertState

variable {lib : RootLibrary} {x509 : X509} {governance : Option ChainConfig}
  {chainConfig new : ChainConfig} {cp fresh : CertState}

theorem newCertACProvider_spec (built : newCertACProvider lib x509 governance chainConfig = some cp)
    (standard : chainConfig.consensus ≠ .maxbft) :
    cp.consensus = chainConfig.consensus ∧ CertTrust.initTrustRoots lib chainConfig.trustRoots = some cp.trust ∧
      initTrustMembers x509 chainConfig.trustMembers = some cp.trustMembers ∧
      known cp.trust = chainConfig.names ∧
      cp.latestPolicyMap = loadResourcePolicy (validateResourcePolicy chainConfig.names) chainConfig.resourcePolicies := by
  rw [newCertACProvider] at built
  simp only [if_neg standard] at built
  obtain ⟨trustMembers, members, built⟩ := Option.bind_eq_some_iff.mp built
  obtain ⟨trust, started, same⟩ := Option.bind_eq_some_iff.mp built
  have names : known trust = chainConfig.names := by
    funext orgId
    obtain ⟨loaded, _⟩ := CertTrust.initTrustRoots_spec started
    refine Bool.eq_iff_iff.mpr ((loaded.orgs orgId).trans ?_)
    rw [ChainConfig.names, List.contains_iff_mem]
  cases same
  exact ⟨rfl, started, members, names, by rw [names]⟩

structure Same (left right : CertState) : Prop where
  policies : SameLookups left.latestPolicyMap right.latestPolicyMap
  trust : SameTrust left.trust right.trust
  trustMembers : left.trustMembers = right.trustMembers

theorem messageChainConfig_same_iff (built : newCertACProvider lib x509 governance chainConfig = some cp)
    (standard : chainConfig.consensus ≠ .maxbft)
    (restarted : newCertACProvider lib x509 governance new = some fresh)
    (newStandard : new.consensus ≠ .maxbft) :
    Same (messageChainConfig lib x509 cp new) fresh ↔ PoliciesKept chainConfig new ∧ Rootless new.trustRoots := by
  obtain ⟨consensus, _, _, names, _⟩ := newCertACProvider_spec built standard
  obtain ⟨_, started, members, _, policies⟩ := newCertACProvider_spec restarted newStandard
  obtain ⟨_, _, authorities⟩ := CertTrust.initTrustRoots_spec started
  obtain ⟨updated, followed⟩ := CertTrust.updateTrustRoots_returns .empty fun orgRoot member root inside => by
      obtain ⟨chain, build, cert, listed, authority, _⟩ := authorities orgRoot member root inside
      exact ⟨chain, build, cert, listed, authority⟩
  -- What a node can start with, an update takes without an error.
  have message : messageChainConfig lib x509 cp new = ⟨chainConfig.consensus, updated, fresh.trustMembers,
        loadResourcePolicy (validateResourcePolicy chainConfig.names) new.resourcePolicies⟩ := by
    rw [messageChainConfig, names]
    simp only [consensus, if_neg standard, CertTrust.initTrustRootsForUpdatingChainConfig, followed, members]
  have lookups : SameLookups (messageChainConfig lib x509 cp new).latestPolicyMap fresh.latestPolicyMap ↔ PoliciesKept chainConfig new := by
    rw [message, policies]
    refine forall_congr' fun resourceName => ?_
    rw [lookup_loadResourcePolicy fun _ => policy_of_validateResourcePolicy,
      lookup_loadResourcePolicy fun _ => policy_of_validateResourcePolicy]
  have trusts : SameTrust (messageChainConfig lib x509 cp new).trust fresh.trust ↔ Rootless new.trustRoots := by
    rw [message]
    exact CertTrust.updated_same_iff started followed
  constructor
  · intro same
    exact ⟨lookups.mp same.policies, trusts.mp same.trust⟩
  · rintro ⟨kept, rootless⟩
    exact ⟨lookups.mpr kept, trusts.mpr rootless, by rw [message]⟩

end CertState

section PermissionedKeys

structure PermissionedKeyState where
  provider : PermissionedPkACProvider
  latestPolicyMap : Table Bytes Policy

namespace PermissionedKeyState

def loaded (pp : PermissionedPkACProvider) (chainConfig : ChainConfig) : PermissionedKeyState :=
  let pp := pp.initConsensusMember chainConfig.consensusNodes
  ⟨pp, loadResourcePolicy (validateResourcePolicy pp.orgList.contains)
    chainConfig.resourcePolicies⟩

def newPermissionedPkACProvider (keys : KeyLibrary) (registered : Table Bytes PKInfo)
    (chainConfig : ChainConfig) : Option PermissionedKeyState := do
  let pp : PermissionedPkACProvider := ⟨keys, 0, [], ∅, ∅, registered⟩
  return loaded (← pp.initAdminMembers chainConfig.trustRoots) chainConfig

def onMessageChainConfig (state : PermissionedKeyState) (chainConfig : ChainConfig) :
    PermissionedKeyState :=
  loaded ((state.provider.initAdminMembers chainConfig.trustRoots).getD state.provider) chainConfig

variable {keys : KeyLibrary} {registered : Table Bytes PKInfo} {chainConfig new : ChainConfig}
  {state fresh : PermissionedKeyState}

theorem onMessageChainConfig_eq (built : newPermissionedPkACProvider keys registered chainConfig = some state)
    (restarted : newPermissionedPkACProvider keys registered new = some fresh) :
    state.onMessageChainConfig new = fresh := by
  obtain ⟨old, started, same⟩ := Option.bind_eq_some_iff.mp built
  obtain ⟨admins, _, sameOld⟩ := Option.bind_eq_some_iff.mp started
  obtain ⟨pp, restarted, sameFresh⟩ := Option.bind_eq_some_iff.mp restarted
  obtain ⟨newAdmins, read, samePp⟩ := Option.bind_eq_some_iff.mp restarted
  cases sameOld
  cases same
  cases samePp
  cases sameFresh
  rw [onMessageChainConfig, PermissionedPkACProvider.initAdminMembers]
  dsimp only [loaded, PermissionedPkACProvider.initConsensusMember] at read ⊢
  rw [read]
  rfl

end PermissionedKeyState

end PermissionedKeys

section PublicKeys

structure PublicKeyState where
  provider : PkACProvider
  latestPolicyMap : Table Bytes Policy

namespace PublicKeyState

def initConsensusMember (pk : PkACProvider) (chainConfig : ChainConfig) : Option PkACProvider :=
  match chainConfig.consensus with
  | .maxbft => none
  | .standard consensusType => pk.initConsensusMember consensusType chainConfig.consensusNodes

def newPkACProvider (keys : KeyLibrary) (chainConfig : ChainConfig) : Option PublicKeyState := do
  let pk : PkACProvider := ⟨keys, 0, [], []⟩
  let pk ← pk.initAdminMembers chainConfig.trustRoots
  let pk ← initConsensusMember pk chainConfig
  return ⟨pk, loadResourcePolicy validateResourcePolicyPK chainConfig.resourcePolicies⟩

def onMessageChainConfig (state : PublicKeyState) (chainConfig : ChainConfig) : PublicKeyState :=
  let pk := (state.provider.initAdminMembers chainConfig.trustRoots).getD state.provider
  ⟨(initConsensusMember pk chainConfig).getD pk,
    loadResourcePolicy validateResourcePolicyPK chainConfig.resourcePolicies⟩

def adminRoots (chainConfig : ChainConfig) : List Bytes :=
  (chainConfig.trustRoots.filter fun trustRoot => toLower trustRoot.orgId = adminPublicKey).flatMap
    (·.root)

structure Same (left right : PublicKeyState) : Prop where
  policies : SameLookups left.latestPolicyMap right.latestPolicyMap
  admins : SameMembers left.provider.adminMember right.provider.adminMember
  adminNum : left.provider.adminNum = right.provider.adminNum

variable {keys : KeyLibrary} {chainConfig new : ChainConfig} {pk after : PkACProvider}
  {state fresh : PublicKeyState}

theorem initConsensusMember_admins (made : initConsensusMember pk chainConfig = some after) :
    after.adminMember = pk.adminMember ∧ after.adminNum = pk.adminNum ∧ after.keys = pk.keys := by
  unfold initConsensusMember PkACProvider.initConsensusMember at made
  split at made
  · cases made
  · dsimp only at made
    split at made
    · split at made
      · cases made
        exact ⟨rfl, rfl, rfl⟩
      · cases made
    · cases made

theorem initAdminMembers_cases (made : pk.initAdminMembers chainConfig.trustRoots = some after) :
    after.keys = pk.keys ∧ ((chainConfig.trustRoots = [] ∧ after = pk) ∨ (chainConfig.trustRoots ≠ [] ∧
          (adminRoots chainConfig).mapM pk.keys.publicKeyFromPEM = some after.adminMember ∧
          after.adminNum = after.adminMember.length)) := by
  rw [PkACProvider.initAdminMembers] at made
  split at made
  · next none_configured =>
    cases made
    exact ⟨rfl, .inl ⟨List.isEmpty_iff.mp none_configured, rfl⟩⟩
  · next configured =>
    obtain ⟨admins, read, same⟩ := Option.bind_eq_some_iff.mp made
    cases same
    exact ⟨rfl, .inr ⟨fun empty => configured (List.isEmpty_iff.mpr empty), read, rfl⟩⟩

theorem newPkACProvider_spec (built : newPkACProvider keys chainConfig = some state) : state.latestPolicyMap =
        loadResourcePolicy validateResourcePolicyPK chainConfig.resourcePolicies ∧
      state.provider.keys = keys ∧
      (adminRoots chainConfig).mapM keys.publicKeyFromPEM = some state.provider.adminMember ∧
      state.provider.adminNum = state.provider.adminMember.length := by
  obtain ⟨pk, admins, built⟩ := Option.bind_eq_some_iff.mp built
  obtain ⟨after, consensus, same⟩ := Option.bind_eq_some_iff.mp built
  cases same
  obtain ⟨sameAdmins, sameNum, sameKeys⟩ := initConsensusMember_admins consensus
  obtain ⟨keptKeys, either⟩ := initAdminMembers_cases admins
  refine ⟨rfl, sameKeys.trans keptKeys, ?_⟩
  dsimp only
  rw [sameAdmins, sameNum]
  rcases either with ⟨empty, rfl⟩ | ⟨_, read, num⟩
  · rw [adminRoots, empty]
    exact ⟨rfl, rfl⟩
  · exact ⟨read, num⟩

theorem onMessageChainConfig_admins (built : newPkACProvider keys chainConfig = some state)
    (restarted : newPkACProvider keys new = some fresh) :
    (new.trustRoots ≠ [] → (state.onMessageChainConfig new).provider.adminMember = fresh.provider.adminMember ∧
      (state.onMessageChainConfig new).provider.adminNum = fresh.provider.adminNum) ∧
    (new.trustRoots = [] → (state.onMessageChainConfig new).provider.adminMember = state.provider.adminMember ∧
      (state.onMessageChainConfig new).provider.adminNum = state.provider.adminNum) := by
  obtain ⟨_, oldKeys, _⟩ := newPkACProvider_spec built
  obtain ⟨_, _, read, num⟩ := newPkACProvider_spec restarted
  have consensus (pk : PkACProvider) : ((initConsensusMember pk new).getD pk).adminMember = pk.adminMember ∧
        ((initConsensusMember pk new).getD pk).adminNum = pk.adminNum := by
    cases made : initConsensusMember pk new with
    | none => exact ⟨rfl, rfl⟩
    | some after =>
      obtain ⟨sameAdmins, sameNum, _⟩ := initConsensusMember_admins made
      exact ⟨sameAdmins, sameNum⟩
  have kept := consensus ((state.provider.initAdminMembers new.trustRoots).getD state.provider)
  rw [onMessageChainConfig]
  dsimp only
  rw [kept.1, kept.2, PkACProvider.initAdminMembers]
  constructor
  · intro configured
    rw [adminRoots, ← oldKeys] at read
    rw [if_neg (by simpa using configured)]
    simp only [Option.bind_eq_bind, read, Option.bind_some, Option.pure_def, Option.getD_some]
    exact ⟨trivial, num.symm⟩
  · intro empty
    rw [empty]
    exact ⟨rfl, rfl⟩

theorem onMessageChainConfig_same_iff (built : newPkACProvider keys chainConfig = some state)
    (restarted : newPkACProvider keys new = some fresh) :
    Same (state.onMessageChainConfig new) fresh ↔ new.trustRoots ≠ [] ∨ adminRoots chainConfig = [] := by
  obtain ⟨_, _, oldRead, oldNum⟩ := newPkACProvider_spec built
  obtain ⟨policies, _, read, num⟩ := newPkACProvider_spec restarted
  obtain ⟨replaced, kept⟩ := onMessageChainConfig_admins built restarted
  have samePolicies : SameLookups (state.onMessageChainConfig new).latestPolicyMap fresh.latestPolicyMap := by
    rw [policies]
    exact fun _ => rfl
  by_cases configured : new.trustRoots = []
  · obtain ⟨admins, adminNum⟩ := kept configured
    have noAdmins : fresh.provider.adminMember = [] := by
      rw [adminRoots, configured] at read
      exact (Option.some.inj read).symm
    constructor
    · intro same
      refine .inr (List.eq_nil_iff_forall_not_mem.mpr fun root inside => ?_)
      obtain ⟨key, member, _⟩ := exists_of_map (map_of_mapM oldRead) inside
      rw [← admins] at member
      have listed := (same.admins key).mp member
      rw [noAdmins] at listed
      cases listed
    · intro either
      have none_before := either.resolve_left (not_not_intro configured)
      rw [none_before] at oldRead
      have noOld : state.provider.adminMember = [] := (Option.some.inj oldRead).symm
      refine ⟨samePolicies, ?_, ?_⟩
      · rw [admins, noOld, noAdmins]
        exact fun _ => .rfl
      · rw [adminNum, oldNum, noOld, num, noAdmins]
  · obtain ⟨admins, adminNum⟩ := replaced configured
    refine iff_of_true ⟨samePolicies, ?_, adminNum⟩ (.inl configured)
    rw [admins]
    exact fun _ => .rfl

end PublicKeyState

end PublicKeys

section Modes

structure NodeSetup where
  lib : RootLibrary
  x509 : X509
  governance : Option ChainConfig
  keys : KeyLibrary
  registered : Table Bytes PKInfo

inductive Provider where
  | cert (cp : CertState)
  | permissionedKey (state : PermissionedKeyState)
  | publicKey (state : PublicKeyState)

namespace Provider

variable (setup : NodeSetup)

def newACProvider (chainConfig : ChainConfig) : AuthType → Option Provider
  | .permissionedWithCert =>
    (CertState.newCertACProvider setup.lib setup.x509 setup.governance chainConfig).map .cert
  | .permissionedWithKey =>
    (PermissionedKeyState.newPermissionedPkACProvider setup.keys setup.registered
      chainConfig).map .permissionedKey
  | .publicKey => (PublicKeyState.newPkACProvider setup.keys chainConfig).map .publicKey

def onMessage (chainConfig : ChainConfig) : Provider → Provider
  | .cert cp => .cert (cp.messageChainConfig setup.lib setup.x509 chainConfig)
  | .permissionedKey state => .permissionedKey (state.onMessageChainConfig chainConfig)
  | .publicKey state => .publicKey (state.onMessageChainConfig chainConfig)

/-- The providers have the same policies and trust the same members. -/
def Same : Provider → Provider → Prop
  | .cert left, .cert right => CertState.Same left right
  | .permissionedKey left, .permissionedKey right => left = right
  | .publicKey left, .publicKey right => PublicKeyState.Same left right
  | _, _ => False

/-- The configurations for which an update is compared with a restart. -/
def Comparable (old new : ChainConfig) : AuthType → Prop
  | .permissionedWithCert => old.consensus ≠ .maxbft ∧ new.consensus ≠ .maxbft
  | .permissionedWithKey => True
  | .publicKey => old.consensus = new.consensus

/-- The configurations that an update follows as a restart does. -/
def FollowedAlike (old new : ChainConfig) : AuthType → Prop
  | .permissionedWithCert => PoliciesKept old new ∧ Rootless new.trustRoots
  | .permissionedWithKey => True
  | .publicKey => new.trustRoots ≠ [] ∨ PublicKeyState.adminRoots old = []

/-- A provider that has handled a configuration is like one built from it exactly for the
configurations that an update follows as a restart does. -/
theorem onMessage_same_iff (setup : NodeSetup) (authType : AuthType) (old new : ChainConfig)
    (provider fresh : Provider) (comparable : Comparable old new authType)
    (built : newACProvider setup old authType = some provider)
    (restarted : newACProvider setup new authType = some fresh) :
    Same (onMessage setup new provider) fresh ↔ FollowedAlike old new authType := by
  cases authType with
  | permissionedWithCert =>
    obtain ⟨cp, started, rfl⟩ := Option.map_eq_some_iff.mp built
    obtain ⟨cpFresh, startedNew, rfl⟩ := Option.map_eq_some_iff.mp restarted
    exact CertState.messageChainConfig_same_iff started comparable.1 startedNew comparable.2
  | permissionedWithKey =>
    obtain ⟨state, started, rfl⟩ := Option.map_eq_some_iff.mp built
    obtain ⟨stateFresh, startedNew, rfl⟩ := Option.map_eq_some_iff.mp restarted
    exact iff_of_true (PermissionedKeyState.onMessageChainConfig_eq started startedNew) trivial
  | publicKey =>
    obtain ⟨state, started, rfl⟩ := Option.map_eq_some_iff.mp built
    obtain ⟨stateFresh, startedNew, rfl⟩ := Option.map_eq_some_iff.mp restarted
    exact PublicKeyState.onMessageChainConfig_same_iff started startedNew

def plainSetup : NodeSetup where
  lib := ⟨fun root => some [root], fun _ => true⟩
  x509 := ⟨fun _ => none, fun _ => none, fun _ _ => none, rfl⟩
  governance := none
  keys := ⟨some, some⟩
  registered := ∅

def tbftConfig (trustRoots : List TrustRootConfig) (resourcePolicies : List ResourcePolicy) :
    ChainConfig :=
  ⟨.standard .tbft, [⟨permissionConsensusOrgId, []⟩], trustRoots, [], resourcePolicies⟩

/-- One administrator is replaced by another. -/
theorem onMessage_same_replaced : ∃ provider fresh,
      newACProvider plainSetup (tbftConfig [⟨adminPublicKey, [[1]]⟩] []) .publicKey = some provider ∧
      newACProvider plainSetup (tbftConfig [⟨adminPublicKey, [[2]]⟩] []) .publicKey = some fresh ∧
      Same (onMessage plainSetup (tbftConfig [⟨adminPublicKey, [[2]]⟩] []) provider) fresh :=
  ⟨_, _, rfl, rfl, (onMessage_same_iff plainSetup .publicKey (tbftConfig [⟨adminPublicKey, [[1]]⟩] [])
      (tbftConfig [⟨adminPublicKey, [[2]]⟩] []) _ _ rfl rfl rfl).mpr (.inl nofun)⟩

/-- A root certificate that stays is no longer intermediate after an update; a policy for a
new organization comes with a restart only; an administrator stays without trust roots. -/
theorem update_differs_from_restart : (∃ provider fresh,
      newACProvider plainSetup (tbftConfig [⟨[1], [[1]]⟩] []) .permissionedWithCert = some (.cert provider) ∧
      newACProvider plainSetup (tbftConfig [⟨[1], [[1]]⟩] []) .permissionedWithCert = some (.cert fresh) ∧
      (provider.messageChainConfig plainSetup.lib plainSetup.x509
        (tbftConfig [⟨[1], [[1]]⟩] [])).trust.intermediates = [] ∧
      fresh.trust.intermediates = [[1]]) ∧
    (∃ provider fresh, newACProvider plainSetup (tbftConfig [] []) .permissionedWithCert =
        some (.cert provider) ∧
      newACProvider plainSetup
          (tbftConfig [⟨[1], []⟩] [⟨[2], some ⟨ruleAny, [[1]], []⟩⟩]) .permissionedWithCert =
        some (.cert fresh) ∧
      (provider.messageChainConfig plainSetup.lib plainSetup.x509
        (tbftConfig [⟨[1], []⟩] [⟨[2], some ⟨ruleAny, [[1]], []⟩⟩])).latestPolicyMap.lookup [2] = none ∧
      fresh.latestPolicyMap.lookup [2] = some ⟨ruleAny, [[1]], []⟩) ∧
    ∃ provider fresh, newACProvider plainSetup (tbftConfig [⟨adminPublicKey, [[1]]⟩] []) .publicKey =
        some (.publicKey provider) ∧
      newACProvider plainSetup (tbftConfig [] []) .publicKey = some (.publicKey fresh) ∧
      (provider.onMessageChainConfig (tbftConfig [] [])).provider.adminMember = [[1]] ∧
      fresh.provider.adminMember = [] :=
  ⟨⟨_, _, rfl, rfl, rfl, rfl⟩, ⟨_, _, rfl, rfl, rfl, rfl⟩, _, _, rfl, rfl, rfl, rfl⟩

end Provider

end Modes

end Pdcc.AccessControl
