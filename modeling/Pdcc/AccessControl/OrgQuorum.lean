import Pdcc.Library.Tally
import Pdcc.AccessControl.CertRefinement
import Pdcc.AccessControl.PermissionedKey

/-!
# Quorums of organizations

The two modes with organizations count an endorsement for the organization its signer
claims, while the organization of a member is established by its certificate, the
list of trusted members or the registration of its key. A quorum is one of
organizations where these agree for the entries with a valid signature.
-/

set_option autoImplicit false

namespace Pdcc.AccessControl

open Ledger Library

namespace CertACProvider

variable (cp : CertACProvider)

def record (text : Bytes) : Option Member :=
  (cp.x509.parse text).map fun cert =>
    match cp.loadTrustMembers text with
    | some trusted => ⟨trusted.orgId, toUpper trusted.role, .certificate cert⟩
    | none => cert.member

/-- What the cache can hold for a text: a trusted member, a member with a verified chain, or
a member that was built again, which is not looked up among the trusted members. -/
def Recorded (text : Bytes) (info : MemberCached) : Prop :=
  ∃ cert, cp.x509.parse text = some cert ∧
    ((∃ trusted, cp.loadTrustMembers text = some trusted ∧
        info = ⟨⟨trusted.orgId, toUpper trusted.role, .certificate cert⟩, []⟩) ∨
      (cp.loadTrustMembers text = none ∧ info.member = cert.member ∧
        cp.verifyMember cert.member = some info.certChain) ∨
      (info.member = cert.member ∧
        ∃ others, cp.x509.verify cp.opts cert = some (info.certChain :: others)))

variable {cp} {signer : PbMember} {info : MemberCached} {text : Bytes}

theorem recorded_of_authenticate (authenticated : cp.authenticate signer = some info) : cp.Recorded signer.memberInfo info := by
  obtain ⟨cert, parsed, kind⟩ := cp.authenticate_cases authenticated
  refine ⟨cert, parsed, ?_⟩
  rcases kind with trusted | ⟨untrusted, _, _, same, verified⟩
  · exact .inl trusted
  · exact .inr (.inl ⟨untrusted, same, verified⟩)

theorem rebuildMember_cases (built : cp.rebuildMember signer = .ok (some info)) : ∃ cert, cp.x509.parse signer.memberInfo = some cert ∧
      (signer.orgId = [] ∨ signer.orgId = cert.orgId) ∧ info.member = cert.member ∧
      ∃ others, cp.x509.verify cp.opts cert = some (info.certChain :: others) := by
  unfold rebuildMember at built
  split at built
  · cases built
  · next member made =>
    rw [newCertMember_eq] at made
    obtain ⟨cert, parsed, claimed⟩ := Option.bind_eq_some_iff.mp made
    obtain ⟨claims, same⟩ := Option.ite_none_right_eq_some.mp claimed
    cases same
    simp only [Certificate.member] at built
    split at built
    · next certChain others verified =>
      cases built
      exact ⟨cert, parsed, claims.2, rfl, others, verified⟩
    · cases built

theorem recorded_of_rebuildMember (built : cp.rebuildMember signer = .ok (some info)) : cp.Recorded signer.memberInfo info := by
  obtain ⟨cert, parsed, _, same, verified⟩ := rebuildMember_cases built
  exact ⟨cert, parsed, .inr (.inr ⟨same, verified⟩)⟩

theorem record_of_parse {cert : Certificate} (parsed : cp.x509.parse text = some cert) :
    ∃ member, cp.record text = some member ∧ member.credential = .certificate cert := by
  refine ⟨_, by rw [record, parsed, Option.map_some], ?_⟩
  cases cp.loadTrustMembers text <;> rfl

theorem Recorded.credential (recorded : cp.Recorded text info) :
    ∃ member, cp.record text = some member ∧ member.credential = info.member.credential := by
  obtain ⟨cert, parsed, kind⟩ := recorded
  obtain ⟨member, isMember, credential⟩ := record_of_parse parsed
  refine ⟨member, isMember, credential.trans ?_⟩
  rcases kind with ⟨_, _, rfl⟩ | ⟨_, same, _⟩ | ⟨same, _⟩
  · rfl
  · rw [same]
    rfl
  · rw [same]
    rfl

theorem signed_of_refined (cp : CertACProvider) {verifier : Verifier} {msg : Bytes}
    {cache : MemberCache} {sender : EndorsementEntry} (holds : cache.Holds cp.Recorded)
    (returned : (cp.refineEndorsements verifier msg cache [sender]).1 ≠ []) :
    ∃ text signer, cp.present [] sender.signer = some (text, signer) ∧ ∃ member, cp.record signer.memberInfo = some member ∧
        member.verify verifier msg sender.signature = true := by
  obtain ⟨_, kept, result, sublist, _, admitted⟩ :=
    refineEndorsements_spec (fun _ _ => recorded_of_authenticate) verifier msg holds [sender]
  obtain ⟨pair, inside⟩ := List.exists_mem_of_ne_nil kept (by
    intro empty
    rw [empty] at result
    exact returned result)
  obtain ⟨info, admits, signed⟩ := admitted pair inside
  have presentedIn := sublist.subset inside
  cases found : cp.present [] sender.signer with
  | none =>
    simp only [presented, found] at presentedIn
    cases presentedIn
  | some item =>
    obtain ⟨text, signer⟩ := item
    simp only [presented, found, List.mem_singleton] at presentedIn
    subst presentedIn
    refine ⟨text, signer, rfl, ?_⟩
    have own : cp.Recorded signer.memberInfo info := by
      rcases admits with ⟨recorded, _⟩ | authenticated
      · rw [cp.present_text found] at recorded
        split at recorded
        · exact recorded
        · obtain ⟨cert, parsed, _⟩ := recorded
          rw [cp.x509.parse_empty] at parsed
          cases parsed
      · exact recorded_of_authenticate authenticated
    obtain ⟨member, isMember, credential⟩ := own.credential
    refine ⟨member, isMember, ?_⟩
    rw [Member.verify, credential]
    exact signed

theorem getMemberFromCache_certId {cache : MemberCache} (holds : cache.Holds cp.Recorded)
    (registered : cp.certs.lookup signer.memberInfo = some text) :
    getMemberFromCache cp.rebuildMember cache signer = .error .nilDereference := by
  have unreadable := cp.certs_ids _ _ registered
  have absent : cache.get signer.memberInfo = none := by
    cases present : cache.get signer.memberInfo with
    | none => rfl
    | some info =>
      obtain ⟨cert, parsed, _⟩ := holds _ _ present
      rw [unreadable] at parsed
      cases parsed
  have unbuilt : cp.newCertMember signer = none := by
    simp [newCertMember, newMemberFromCertPem, unreadable]
  simp only [getMemberFromCache, absent, rebuildMember, unbuilt]

end CertACProvider

inductive OrgProvider where
  | cert (cp : CertACProvider)
  | permissionedPk (pp : PermissionedPkACProvider)

namespace OrgProvider

def orgNum : OrgProvider → Nat
  | .cert cp => cp.orgNum
  | .permissionedPk pp => pp.orgNum

def orgs : OrgProvider → List Bytes
  | .cert cp => cp.orgList.keys
  | .permissionedPk pp => pp.orgList

def rebuildMember : OrgProvider → PbMember → Except Panic (Option MemberCached)
  | .cert cp => cp.rebuildMember
  | .permissionedPk pp => pp.rebuildMember

def refineEndorsements : OrgProvider → Verifier → Bytes → MemberCache → List EndorsementEntry →
    List EndorsementEntry × MemberCache
  | .cert cp => cp.refineEndorsements
  | .permissionedPk pp => pp.refineEndorsements

def record : OrgProvider → Bytes → Option Member
  | .cert cp => cp.record
  | .permissionedPk pp => pp.memberOfText

/-- What the cache may hold for a text. -/
def Recorded : OrgProvider → Bytes → MemberCached → Prop
  | .cert cp => cp.Recorded
  | .permissionedPk pp => pp.Recorded

def presented : OrgProvider → List EndorsementEntry → List (Bytes × EndorsementEntry)
  | .cert cp => cp.presented []
  | .permissionedPk _ => keyed

def Admits : OrgProvider → Bytes × PbMember → Credential → Prop
  | .cert cp, presented, credential =>
    ∃ info, cp.Admits cp.Recorded presented.1 presented.2 info ∧
      info.member.credential = credential
  | .permissionedPk pp, presented, credential =>
    ∃ member, pp.Admits presented.2 member ∧ member.credential = credential

variable (p : OrgProvider)

/-- An organization of the chain with an endorser that is recorded as its member, signed the
message and has one of the roles, where an empty list allows every role. -/
structure Endorsed (verifier : Verifier) (msg : Bytes) (roles : List Role)
    (entries : List EndorsementEntry) (org : Bytes) : Prop where
  onChain : org ∈ p.orgs
  endorser : ∃ item ∈ p.presented entries, ∃ member,
    p.record item.2.signer.memberInfo = some member ∧ member.orgId = org ∧
      member.verify verifier msg item.2.signature = true ∧ (roles = [] ∨ member.role ∈ roles)

/-- As many organizations as the policy requires have endorsed. -/
def QuorumMet (verifier : Verifier) (msg : Bytes) (policy : Policy)
    (entries : List EndorsementEntry) : Prop :=
  ∃ orgs : List Bytes, orgs.Nodup ∧ policy.Reached p.orgNum orgs.length ∧
    ∀ org ∈ orgs, p.Endorsed verifier msg policy.allowedRoles entries org

/-- The refinement can let this endorsement through: with some content of the cache its
signer is admitted with a credential under which the signature is valid. -/
def Signed (verifier : Verifier) (msg : Bytes) (item : Bytes × EndorsementEntry) : Prop :=
  ∃ credential, p.Admits (item.1, item.2.signer) credential ∧
    verifier credential msg item.2.signature = true

/-- The entries with a valid signature claim what is recorded: each of them is signed by the
member recorded for its text, which belongs to an organization of the chain and counts with
its recorded role only, and members of one organization claim one organization. -/
structure HonestClaims (verifier : Verifier) (msg : Bytes) (entries : List EndorsementEntry) :
    Prop where
  recorded : ∀ item ∈ p.presented entries, p.Signed verifier msg item →
    ∃ member, p.record item.2.signer.memberInfo = some member ∧
      member.verify verifier msg item.2.signature = true ∧ member.orgId ∈ p.orgs ∧
      ∀ role, CountsFor p.rebuildMember p.Recorded item.2.signer role → member.role = role
  once : (p.presented entries).Pairwise fun first second => first.1 ≠ second.1 →
    p.Signed verifier msg first → p.Signed verifier msg second →
      ∀ member member', p.record first.2.signer.memberInfo = some member →
        p.record second.2.signer.memberInfo = some member' → member.orgId = member'.orgId →
          first.2.signer.orgId = second.2.signer.orgId

variable {p}

section Modes

theorem recorded_of_rebuildMember (signer : PbMember) (info : MemberCached)
    (built : p.rebuildMember signer = .ok (some info)) : p.Recorded signer.memberInfo info := by
  cases p with
  | cert cp => exact CertACProvider.recorded_of_rebuildMember built
  | permissionedPk pp => exact PermissionedPkACProvider.recorded_of_rebuildMember signer info built

theorem refineEndorsements_spec (p : OrgProvider) (verifier : Verifier) (msg : Bytes)
    {cache : MemberCache} (holds : cache.Holds p.Recorded) (entries : List EndorsementEntry) :
    (p.refineEndorsements verifier msg cache entries).2.Holds p.Recorded ∧
    ∃ kept : List (Bytes × EndorsementEntry), (p.refineEndorsements verifier msg cache entries).1 = kept.map Prod.snd ∧
      kept.Sublist (p.presented entries) ∧ (kept.map Prod.fst).Nodup ∧
      ∀ pair ∈ kept, p.Signed verifier msg pair := by
  cases p with
  | cert cp =>
    obtain ⟨keeps, kept, result, sublist, distinct, admitted⟩ :=
      CertACProvider.refineEndorsements_spec (fun _ _ => CertACProvider.recorded_of_authenticate) verifier msg holds entries
    refine ⟨keeps, kept, result, sublist, distinct, ?_⟩
    intro pair inside
    obtain ⟨info, admits, signed⟩ := admitted pair inside
    exact ⟨_, ⟨info, admits, rfl⟩, signed⟩
  | permissionedPk pp =>
    obtain ⟨keeps, kept, result, sublist, distinct, admitted⟩ :=
      pp.memberSource.refine_spec verifier msg holds entries
    refine ⟨keeps, kept, result, sublist, distinct, ?_⟩
    intro pair inside
    obtain ⟨member, admits, signed⟩ := admitted pair inside
    exact ⟨_, ⟨member, admits, rfl⟩, signed⟩

variable {verifier : Verifier} {msg : Bytes} {entry : EndorsementEntry}
  {item : Bytes × EndorsementEntry}

theorem Signed.exists_refined (signed : p.Signed verifier msg item) (alone : p.presented [entry] = [item]) :
    ∃ cache : MemberCache, cache.Holds p.Recorded ∧ (p.refineEndorsements verifier msg cache [entry]).1 = [item.2] := by
  obtain ⟨credential, admits, valid⟩ := signed
  cases p with
  | cert cp =>
    obtain ⟨info, admits, rfl⟩ := admits
    obtain ⟨cache, cache', holds, passed⟩ := CertACProvider.exists_cache_of_admits admits valid
    have only : cp.presented [] [entry] = [item] := alone
    refine ⟨cache, holds, ?_⟩
    rw [refineEndorsements, CertACProvider.refineEndorsements, CertACProvider.refineWith_eq_admit, only,
      admitOnce_cons_kept passed List.not_mem_nil]
    rfl
  | permissionedPk pp =>
    obtain ⟨member, admits, rfl⟩ := admits
    obtain rfl : (entry.signer.memberInfo, entry) = item := List.singleton_inj.mp alone
    obtain ⟨cache, warm⟩ := ShardCache.exists_warm
      (List.forall_mem_singleton.mpr (pp.memberSource.entry _ member admits)) 0
    have passed : (verifyKeySigner pp.newPkMember verifier msg cache entry.signer.memberInfo entry).1 = true :=
      pp.memberSource.verifyKeySigner_signed warm (List.mem_singleton_self _) admits valid
    refine ⟨cache, warm.holds, ?_⟩
    rw [refineEndorsements, PermissionedPkACProvider.refineEndorsements, refineKeyEndorsements, keyed, List.map_singleton,
      admitOnce_cons_kept (Prod.ext passed rfl) List.not_mem_nil]
    rfl

end Modes

section Soundness

variable {verifier : Verifier} {msg : Bytes} {policy : Policy}

variable (p) in
def recordedOrg (item : Bytes × EndorsementEntry) : Bytes :=
  ((p.record item.2.signer.memberInfo).map (·.orgId)).getD []

variable {member : Member} {entries : List EndorsementEntry}

theorem recordedOrg_eq {item : Bytes × EndorsementEntry} (recorded : p.record item.2.signer.memberInfo = some member) :
    p.recordedOrg item = member.orgId := by
  rw [recordedOrg, recorded]
  rfl

theorem HonestClaims.claims_agree (honest : p.HonestClaims verifier msg entries)
    {kept : List (Bytes × EndorsementEntry)} (sublist : kept.Sublist (p.presented entries))
    (distinct : (kept.map Prod.fst).Nodup) (signed : ∀ item ∈ kept, p.Signed verifier msg item) :
    ∀ first ∈ kept, ∀ second ∈ kept, p.recordedOrg first = p.recordedOrg second → first.2.signer.orgId = second.2.signer.orgId := by
  have apart := (List.pairwise_map.mp distinct).and (honest.once.sublist sublist)
  have agree : kept.Pairwise fun first second => p.recordedOrg first = p.recordedOrg second →
      first.2.signer.orgId = second.2.signer.orgId := by
    refine apart.imp_of_mem ?_
    intro first second firstIn secondIn conditions sameOrg
    obtain ⟨member, here, _⟩ := honest.recorded first (sublist.subset firstIn) (signed first firstIn)
    obtain ⟨member', there, _⟩ := honest.recorded second (sublist.subset secondIn) (signed second secondIn)
    rw [recordedOrg_eq here, recordedOrg_eq there] at sameOrg
    exact conditions.2 conditions.1 (signed first firstIn) (signed second secondIn) member member' here there sameOrg
  have symmetric : Std.Symm fun first second : Bytes × EndorsementEntry =>
      p.recordedOrg first = p.recordedOrg second → first.2.signer.orgId = second.2.signer.orgId :=
    ⟨fun _ _ related same => (related same.symm).symm⟩
  intro first firstIn second secondIn
  exact agree.forall_of_forall (fun _ _ _ => rfl) firstIn secondIn

variable {cache cache' last : MemberCache}

variable (p) in
/-- Whatever is cached, and whatever is evicted between the refinement and the check of a
policy, an accepted policy has its quorum of organizations. -/
def QuorumSound (verifier : Verifier) (msg : Bytes) (entries : List EndorsementEntry) : Prop :=
  ∀ (cache cache' last : MemberCache) (policy : Policy) (targetOrg resourceName : Bytes),
    cache.Holds p.Recorded → cache'.Holds p.Recorded → policy.CountsOrgs →
    verifyPrincipalPolicy p.rebuildMember p.orgNum targetOrg resourceName policy
      (p.refineEndorsements verifier msg cache entries).1 cache' = .ok (.ok (), last) →
    p.QuorumMet verifier msg policy entries

theorem HonestClaims.sound (honest : p.HonestClaims verifier msg entries) : p.QuorumSound verifier msg entries := by
  intro cache cache' last policy targetOrg resourceName holds holds' counts accepted
  obtain ⟨_, kept, result, sublist, distinct, admitted⟩ :=
    p.refineEndorsements_spec verifier msg holds entries
  obtain ⟨orgList, valid, _, found, reached⟩ := exists_valid_of_accepted counts accepted
  rw [result] at found
  obtain ⟨within, _, allowed⟩ := getValidEndorsements_spec recorded_of_rebuildMember holds' found
  obtain ⟨counted, countedIn, rfl⟩ := List.sublist_map_iff.mp within
  have signed : ∀ item ∈ counted, p.Signed verifier msg item :=
    fun item inside => admitted item (countedIn.subset inside)
  have agree := honest.claims_agree (countedIn.trans sublist) (distinct.sublist (countedIn.map Prod.fst)) signed
  have enough := length_dedup_map_le (fun item => item.2.signer.orgId) p.recordedOrg counted agree
  refine ⟨(counted.map p.recordedOrg).dedup, List.nodup_dedup _, reached.mono ?_, ?_⟩
  · rw [countOrgsFromEndorsements, List.map_map]
    exact enough
  · intro org orgIn
    obtain ⟨item, inside, rfl⟩ := List.mem_map.mp (List.mem_dedup.mp orgIn)
    have presentedIn := sublist.subset (countedIn.subset inside)
    obtain ⟨endorser, here, verified, onChain, roles⟩ := honest.recorded item presentedIn (signed item inside)
    rw [recordedOrg_eq here]
    refine ⟨onChain, item, presentedIn, endorser, here, rfl, verified, ?_⟩
    rcases (allowed item.2 (List.mem_map_of_mem inside)).2 with every | ⟨role, listed, countsFor⟩
    · exact .inl every
    · exact .inr (roles role countsFor ▸ listed)

private theorem valid_single {signature : Bytes} {signer : PbMember} {role : Role}
    (found : getMemberFromCache p.rebuildMember cache signer = .ok (some member, cache'))
    (sameRole : member.role = role) :
    getValidEndorsements p.rebuildMember [] [role] [⟨signer, signature⟩] cache = .ok ([⟨signer, signature⟩], cache') := by
  have met : meets p.rebuildMember [] [role] cache ⟨signer, signature⟩ = .ok (true, cache') := by
    simp [meets, found, sameRole]
  rw [getValidEndorsements, met]
  rfl

-- what one endorsement that alone is let through and counted says about its signer
theorem QuorumSound.endorser {entry : EndorsementEntry} {item : Bytes × EndorsementEntry}
    (sound : p.QuorumSound verifier msg [entry]) (alone : p.presented [entry] = [item])
    (signed : p.Signed verifier msg item) {roleList : List Role} (holds' : cache'.Holds p.Recorded)
    (found : getValidEndorsements p.rebuildMember [] roleList [item.2] cache' = .ok ([item.2], last)) :
    ∃ member, p.record item.2.signer.memberInfo = some member ∧
      member.verify verifier msg item.2.signature = true ∧ member.orgId ∈ p.orgs ∧
      (roleList = [] ∨ member.role ∈ roleList) := by
  obtain ⟨cache, holds, refined⟩ := signed.exists_refined alone
  rw [← refined] at found
  have parsed : parseInt (ascii "1") = .ok 1 := by decide
  have accepted : verifyPrincipalPolicy p.rebuildMember p.orgNum [] [] ⟨ascii "1", [], roleList⟩
      (p.refineEndorsements verifier msg cache [entry]).1 cache' = .ok (.ok (), last) :=
    accepted_of_threshold parsed found (by rw [refined]; simp [countOrgsFromEndorsements])
  obtain ⟨orgs, _, reached, endorsed⟩ := sound cache cache' last ⟨ascii "1", [], roleList⟩ [] [] holds holds'
    (.inr (.inr ⟨1, parsed⟩)) accepted
  have many := reached.threshold 1 parsed
  obtain ⟨org, orgIn⟩ := List.exists_mem_of_length_pos (by omega : 0 < orgs.length)
  obtain ⟨onChain, other, otherIn, member, recorded, rfl, verified, allowed⟩ := endorsed org orgIn
  rw [alone, List.mem_singleton] at otherIn
  subst otherIn
  exact ⟨member, recorded, verified, onChain, allowed⟩

theorem QuorumSound.honest {entry : EndorsementEntry} (sound : p.QuorumSound verifier msg [entry])
    {item : Bytes × EndorsementEntry} (alone : p.presented [entry] = [item]) :
    p.HonestClaims verifier msg [entry] := by
  refine ⟨?_, by rw [alone]; exact List.pairwise_singleton _ _⟩
  rw [alone, List.forall_mem_singleton]
  intro signed
  obtain ⟨member, recorded, verified, onChain, _⟩ := sound.endorser alone signed
    (ShardCache.Holds.newShardCache _ 0) (getValidEndorsements_unrestricted _ _)
  refine ⟨member, recorded, verified, onChain, ?_⟩
  intro role countsFor
  obtain ⟨cache', last, counted, holds', found, sameRole⟩ := countsFor.getMemberFromCache
  obtain ⟨same, again, _, _, allowed⟩ :=
    sound.endorser alone signed holds' (valid_single found sameRole)
  rw [recorded] at again
  cases again
  simpa using allowed

theorem presented_cases (p : OrgProvider) (entry : EndorsementEntry) :
    p.presented [entry] = [] ∨ ∃ item, p.presented [entry] = [item] := by
  cases p with
  | cert cp =>
    simp only [presented, CertACProvider.presented]
    cases cp.present [] entry.signer with
    | none => exact .inl rfl
    | some found => exact .inr ⟨_, rfl⟩
  | permissionedPk pp => exact .inr ⟨_, rfl⟩

/-- Honest claims of the entries with a valid signature are enough for policies to be sound,
and for a list of one entry they are needed. -/
theorem quorumSound_of_honestClaims (p : OrgProvider) (verifier : Verifier) (msg : Bytes)
    (entries : List EndorsementEntry) :
    (p.HonestClaims verifier msg entries → p.QuorumSound verifier msg entries) ∧
      (entries.length = 1 → p.QuorumSound verifier msg entries →
        p.HonestClaims verifier msg entries) := by
  refine ⟨HonestClaims.sound, ?_⟩
  intro one sound
  obtain ⟨entry, rfl⟩ := List.length_eq_one_iff.mp one
  rcases p.presented_cases entry with none | ⟨item, alone⟩
  · refine ⟨?_, by rw [none]; exact .nil⟩
    intro item inside
    rw [none] at inside
    cases inside
  · exact sound.honest alone

private def twoOrgs : OrgProvider := .permissionedPk
  { keys := ⟨some, fun _ => none⟩
    orgNum := 2
    orgList := [ascii "org1", ascii "org2"]
    adminMember := (AList.singleton [1] (ascii "org1")).insert [2] (ascii "org1")
    consensusMember := ∅
    registered := ∅ }

private def unsignedClaim : List EndorsementEntry :=
  [⟨⟨ascii "org1", [1], .publicKey⟩, [1]⟩, ⟨⟨[], [2], .publicKey⟩, []⟩]

theorem quorumSound_unsignedClaim : twoOrgs.QuorumSound signedByAll [] unsignedClaim := by
  refine (quorumSound_of_honestClaims twoOrgs signedByAll [] unsignedClaim).1 ⟨?_, ?_⟩
  · intro item inside signed
    simp only [presented, keyed, twoOrgs, unsignedClaim, List.map_cons, List.map_nil, List.mem_cons,
      List.not_mem_nil, or_false] at inside
    rcases inside with rfl | rfl
    · refine ⟨⟨ascii "org1", roleAdmin, .publicKey [1]⟩, rfl, rfl, List.mem_cons_self, ?_⟩
      rintro role (⟨cached, recorded, _, rfl⟩ | ⟨cached, built, rfl⟩)
      · exact congrArg Member.role (Option.some.inj recorded)
      · exact congrArg Member.role (Option.some.inj (recorded_of_rebuildMember _ _ built))
    · obtain ⟨_, _, valid⟩ := signed
      cases valid
  · refine List.pairwise_pair.mpr ?_
    rintro _ _ ⟨_, _, valid⟩
    cases valid

private def twoAdmins : List EndorsementEntry :=
  [⟨⟨ascii "org1", [1], .publicKey⟩, [1]⟩, ⟨⟨[], [2], .publicKey⟩, [1]⟩]

theorem majority_accepted_of_one_organization :
    (∃ last, verifyPrincipalPolicy twoOrgs.rebuildMember twoOrgs.orgNum [] [] ⟨ruleMajority, [], []⟩
      (twoOrgs.refineEndorsements signedByAll [] (ShardCache.newShardCache 0) twoAdmins).1
      (ShardCache.newShardCache 0) = .ok (.ok (), last)) ∧
    ¬ twoOrgs.QuorumMet signedByAll [] ⟨ruleMajority, [], []⟩ twoAdmins := by
  refine ⟨⟨_, rfl⟩, ?_⟩
  intro met
  obtain ⟨orgs, distinct, reached, endorsed⟩ := met
  have single : orgs ⊆ [ascii "org1"] := by
    intro org inside
    obtain ⟨_, item, itemIn, member, recorded, rfl, _, _⟩ := endorsed org inside
    simp only [presented, keyed, twoOrgs, twoAdmins, List.map_cons, List.map_nil, List.mem_cons,
      List.not_mem_nil, or_false] at itemIn
    rcases itemIn with rfl | rfl
    · cases recorded
      exact List.mem_singleton_self _
    · cases recorded
      exact List.mem_singleton_self _
  have few := (List.subperm_of_subset distinct single).length_le
  have many : 2 < 2 * orgs.length := reached.majority rfl
  rw [List.length_singleton] at few
  omega

end Soundness

end OrgProvider

end Pdcc.AccessControl
