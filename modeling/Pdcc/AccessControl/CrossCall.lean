import Pdcc.AccessControl.TxPrincipal

/-!
# Calls from one contract to another

For a call, the policy of the called resource is checked with all endorsers of the
transaction, although the checks of the transaction's own resource need not have
verified any of them but the sender. The policy is satisfied by verified signers if
the entries it is checked with have signed and name nobody twice.
-/

set_option autoImplicit false

namespace Pdcc.AccessControl

open Ledger Library

namespace Members

def resolve (m : Members) (entry : EndorsementEntry) : Option EndorsementEntry :=
  match m with
  | .org (.cert cp) =>
    (cp.present [] entry.signer).map fun presented => { entry with signer := presented.2 }
  | _ => some entry

variable (m : Members) (verifier : Verifier) (msg : Bytes)

def signed (entry : EndorsementEntry) : Bool :=
  (m.record entry.signer.memberInfo).any (·.verify verifier msg entry.signature)

def hasValidSignature (entry : EndorsementEntry) : Bool :=
  (m.resolve entry).any (m.signed verifier msg)

/-- The policy accepts some of the entries with a valid signature, each signer counted once. -/
def Satisfied (targetOrg resourceName : Bytes) (pol : Policy)
    (entries : List EndorsementEntry) : Prop :=
  ∃ (counted : List EndorsementEntry) (cache cache' : MemberCache),
    counted.Sublist (entries.filterMap m.resolve) ∧
    (∀ entry ∈ counted, m.signed verifier msg entry = true) ∧
    (counted.map (·.signer.memberInfo)).Nodup ∧ cache.Holds m.Recorded ∧
    m.verifyPrincipalPolicy targetOrg resourceName pol counted cache = .ok (.ok (), cache')

def entriesOf (tx : Transaction) : List EndorsementEntry := tx.endorsers ++ tx.sender.toList

/-- The entries that a call is checked with, each with the text its signer stands for: texts
are looked up and repeated ones dropped if the sender's certificate is compressed, and the
entries are taken as they are otherwise. -/
def calledEntries (tx : Transaction) : List (Option EndorsementEntry) :=
  match m, tx.sender.any fun entry => isCompressed entry.signer.memberType with
  | .org (.cert cp), true =>
    (cp.refineEndorsementsForCertOptimization (ShardCache.newShardCache 0) (entriesOf tx)).1.map some
  | _, _ => (entriesOf tx).map m.resolve

/-- Nobody but the sender is counted for a call without a valid signature, and nobody is
counted twice. -/
structure Covered (tx : Transaction) : Prop where
  signed : ∀ called ∈ m.calledEntries tx, tx.sender.map m.resolve = some called ∨
    ∃ entry, called = some entry ∧ m.signed verifier tx.payload.unsignedTxBytes entry = true
  once : ((m.calledEntries tx).map (Option.map (·.signer.memberInfo))).Nodup

variable {m verifier msg}

section Resolution

theorem presented_resolve (cp : CertACProvider) (memInfo : Bytes) (entries : List EndorsementEntry) :
    (cp.presented memInfo entries).map Prod.snd = entries.filterMap (Members.org (.cert cp)).resolve := by
  induction entries generalizing memInfo with
  | nil => rfl
  | cons entry rest ih =>
    have sameSigner : (cp.present memInfo entry.signer).map Prod.snd = (cp.present [] entry.signer).map Prod.snd := by
      unfold CertACProvider.present
      split
      · rfl
      · split <;> rfl
    rw [CertACProvider.presented, List.filterMap_cons, resolve]
    cases here : cp.present memInfo entry.signer with
    | none =>
      rw [here, Option.map_none, eq_comm, Option.map_eq_none_iff] at sameSigner
      simp only [sameSigner, Option.map_none, ih]
    | some presented =>
      rw [here, Option.map_some, eq_comm, Option.map_eq_some_iff] at sameSigner
      obtain ⟨other, there, same⟩ := sameSigner
      simp only [there, Option.map_some, List.map_cons, ih, same]

variable {entries : List EndorsementEntry}

theorem forall₂_resolve (resolved : ∀ entry ∈ entries, ∃ entry', m.resolve entry = some entry') :
    List.Forall₂ (fun entry entry' => m.resolve entry = some entry') entries (entries.filterMap m.resolve) := by
  induction entries with
  | nil => exact .nil
  | cons entry rest ih =>
    obtain ⟨entry', here⟩ := resolved entry List.mem_cons_self
    rw [List.filterMap_cons_some here]
    exact .cons here (ih fun other inside => resolved other (List.mem_cons_of_mem _ inside))

theorem resolve_standsFor {p : OrgProvider} {entry entry' : EndorsementEntry} (resolved : (Members.org p).resolve entry = some entry') :
    StandsFor p.rebuildMember p.Recorded entry entry' := by
  cases p with
  | permissionedPk pp =>
    cases resolved
    exact ⟨rfl, fun _ _ _ _ _ done => done⟩
  | cert cp =>
    obtain ⟨⟨text, signer⟩, presented, rfl⟩ := Option.map_eq_some_iff.mp resolved
    rcases cp.present_cases presented with rfl | ⟨registered, rfl⟩
    · exact ⟨rfl, fun _ _ _ _ _ done => done⟩
    · refine ⟨rfl, ?_⟩
      intro orgList roleList cache result holds done
      have panics : getMemberFromCache (OrgProvider.cert cp).rebuildMember cache entry.signer =
          .error .nilDereference := CertACProvider.getMemberFromCache_certId holds registered
      simp only [meets, panics] at done ⊢
      split at done
      · next listed =>
        split at done
        · next unrestricted => rwa [if_pos listed, if_pos unrestricted]
        · cases done
      · next unlisted => rwa [if_neg unlisted]

theorem hasValidSignature_iff {entry : EndorsementEntry} : m.hasValidSignature verifier msg entry = true ↔
      ∃ entry', m.resolve entry = some entry' ∧ m.signed verifier msg entry' = true := by
  simp [hasValidSignature, Option.any_eq_true]

variable {tx : Transaction}

theorem calledEntries_uncompressed (m : Members)
    (uncompressed : (tx.sender.any fun entry => isCompressed entry.signer.memberType) = false) :
    m.calledEntries tx = (entriesOf tx).map m.resolve := by
  unfold calledEntries
  rw [uncompressed]
  cases m with
  | pk p => rfl
  | org p => cases p <;> rfl

theorem calledEntries_compressed (cp : CertACProvider)
    (compressed : (tx.sender.any fun entry => isCompressed entry.signer.memberType) = true) (cache : MemberCache) :
    (Members.org (.cert cp)).calledEntries tx =
      (cp.refineEndorsementsForCertOptimization cache (entriesOf tx)).1.map some := by
  have unread : ∀ cache : MemberCache, (cp.refineEndorsementsForCertOptimization cache (entriesOf tx)).1 =
      (admitOnce (fun (_ : Unit) _ _ => (true, ())) [] () (cp.presented [] (entriesOf tx))).1.map Prod.snd := by
    intro cache
    rw [CertACProvider.refineEndorsementsForCertOptimization, CertACProvider.refineWith_eq_admit]
    have keeps : ∀ (state : MemberCache) key item, True → (fun _ => True) (CertACProvider.acceptSigner state key item).2 :=
      fun _ _ _ _ => trivial
    have decided : ∀ pair ∈ cp.presented [] (entriesOf tx), ∀ state : MemberCache, True →
        (CertACProvider.acceptSigner state pair.1 pair.2).1 = (fun _ => true) pair := fun _ _ _ _ => rfl
    exact congrArg (List.map Prod.snd) (admitOnce_fst_eq keeps decided [] trivial)
  unfold calledEntries
  rw [compressed]
  exact congrArg (List.map some) ((unread _).trans (unread cache).symm)

private theorem exists_map_some {called : List (Option EndorsementEntry)} {valid : EndorsementEntry → Prop}
    (every : ∀ item ∈ called, ∃ entry, item = some entry ∧ valid entry) :
    ∃ entries : List EndorsementEntry, called = entries.map some ∧ ∀ entry ∈ entries, valid entry := by
  induction called with
  | nil => exact ⟨[], rfl, fun _ inside => absurd inside List.not_mem_nil⟩
  | cons item rest ih =>
    obtain ⟨entry, rfl, isValid⟩ := every _ List.mem_cons_self
    obtain ⟨entries, rfl, valid⟩ := ih fun other inside => every other (List.mem_cons_of_mem _ inside)
    exact ⟨entry :: entries, rfl, List.forall_mem_cons.mpr ⟨isValid, valid⟩⟩

theorem Covered.exists_entries (covered : m.Covered verifier tx) {sender : EndorsementEntry} (isSender : tx.sender = some sender)
    (senderSigned : m.hasValidSignature verifier tx.payload.unsignedTxBytes sender = true) :
    ∃ entries : List EndorsementEntry, m.calledEntries tx = entries.map some ∧
      (∀ entry ∈ entries, m.signed verifier tx.payload.unsignedTxBytes entry = true) ∧
      (entries.map (·.signer.memberInfo)).Nodup := by
  have signed : ∀ called ∈ m.calledEntries tx, ∃ entry, called = some entry ∧
      m.signed verifier tx.payload.unsignedTxBytes entry = true := by
    intro called inside
    rcases covered.signed called inside with own | signed
    · rw [isSender] at own
      obtain ⟨entry, resolved, signed⟩ := hasValidSignature_iff.mp senderSigned
      exact ⟨entry, (Option.some.inj own).symm.trans resolved, signed⟩
    · exact signed
  obtain ⟨entries, isCalled, valid⟩ := exists_map_some signed
  refine ⟨entries, isCalled, valid, ?_⟩
  have once := covered.once
  rw [isCalled, List.map_map] at once
  exact List.Nodup.of_map some (by rwa [List.map_map])

end Resolution

section Caches

variable {cache cache' : MemberCache} {endorsements counted : List EndorsementEntry}
  {sender : Option EndorsementEntry}

theorem principalEndorsements_bypass (done : m.principalEndorsements verifier msg true sender endorsements cache = (.ok counted, cache')) :
    cache' = cache ∧ (((sender.any fun entry => isCompressed entry.signer.memberType) = false ∧ counted = endorsements) ∨
      ((sender.any fun entry => isCompressed entry.signer.memberType) = true ∧ ∃ cp, m = .org (.cert cp) ∧
        counted = (cp.refineEndorsementsForCertOptimization cache endorsements).1)) := by
  unfold principalEndorsements at done
  simp only [Bool.not_true, Bool.false_eq_true, if_false] at done
  split at done
  · next compressed =>
    unfold refinePrincipalForCertOptimization at done
    split at done
    · next cp =>
      have unchanged := (cp.refineEndorsementsForCertOptimization_spec cache endorsements).2
      simp only at done
      split at done
      · cases done
      · cases done
        exact ⟨unchanged, .inr ⟨compressed, cp, rfl, rfl⟩⟩
    · cases done
  · next uncompressed =>
    cases done
    exact ⟨rfl, .inl ⟨Bool.eq_false_iff.mpr uncompressed, rfl⟩⟩

theorem principalEndorsements_holds {bypass : Bool} (holds : cache.Holds m.Recorded)
    (done : m.principalEndorsements verifier msg bypass sender endorsements cache = (.ok counted, cache')) : cache'.Holds m.Recorded := by
  cases bypass with
  | true =>
    rw [(principalEndorsements_bypass done).1]
    exact holds
  | false =>
    have keeps := m.refineEndorsements_holds verifier msg holds endorsements
    simp only [principalEndorsements, Bool.not_false, if_true, refinePrincipal] at done
    split at done
    · cases done
    · cases done
      exact keeps

end Caches

section Sender

variable {cache cache' : MemberCache}

theorem hasValidSignature_of_refined {sender : EndorsementEntry} (holds : cache.Holds m.Recorded)
    (returned : (m.refineEndorsements verifier msg cache [sender]).1 ≠ []) :
    m.hasValidSignature verifier msg sender = true := by
  rw [hasValidSignature_iff]
  cases m with
  | pk p =>
    obtain ⟨member, recorded, signed⟩ := p.memberSource.admits_of_refined holds returned
    refine ⟨sender, rfl, ?_⟩
    rw [Members.signed, record, recorded]
    exact signed
  | org p =>
    cases p with
    | permissionedPk pp =>
      obtain ⟨member, ⟨recorded, _⟩, signed⟩ := pp.memberSource.admits_of_refined holds returned
      refine ⟨sender, rfl, ?_⟩
      rw [Members.signed, record, OrgProvider.record, recorded]
      exact signed
    | cert cp =>
      obtain ⟨text, signer, presented, member, recorded, signed⟩ :=
        cp.signed_of_refined holds returned
      refine ⟨⟨signer, sender.signature⟩, ?_, ?_⟩
      · rw [resolve, presented]
        rfl
      · rw [Members.signed, record, OrgProvider.record, recorded]
        exact signed

end Sender

theorem verifyPrincipalPolicy_resolved {cache : MemberCache} (holds : cache.Holds m.Recorded) {entries : List EndorsementEntry}
    (resolved : ∀ entry ∈ entries, ∃ entry', m.resolve entry = some entry')
    {targetOrg resourceName : Bytes} {pol : Policy} {result : Verdict × MemberCache}
    (done : m.verifyPrincipalPolicy targetOrg resourceName pol entries cache = .ok result) :
    m.verifyPrincipalPolicy targetOrg resourceName pol (entries.filterMap m.resolve) cache = .ok result := by
  have stands := forall₂_resolve resolved
  cases m with
  | org p =>
    exact verifyPrincipalPolicy_standsFor OrgProvider.recorded_of_rebuildMember (stands.imp fun _ _ => resolve_standsFor) holds done
  | pk p =>
    have same : entries.filterMap (Members.pk p).resolve = entries := List.filterMap_some
    rwa [same]

end Members

namespace AcProvider

variable {p : AcProvider} {verifier : Verifier} {tx : Transaction} {cache cache' : MemberCache}

theorem sender_signed_of_own (holds : cache.Holds p.members.Recorded) (invocation : tx.payload.txType = .invokeContract)
    (own : p.verifyTxPrincipal verifier tx (getTxResourceName tx) cache = .ok (.ok (), cache')) :
    ∃ sender, tx.sender = some sender ∧ p.members.hasValidSignature verifier tx.payload.unsignedTxBytes sender = true := by
  obtain ⟨first, _, typeChecked, _, _⟩ :=
    (verifyTxPrincipal_accepted invocation false (by simp) rfl).mp own
  obtain ⟨sender, refined, between, _, isSender, done, _⟩ :=
    verifyTxTypePrincipal_accepted typeChecked
  refine ⟨sender, isSender, Members.hasValidSignature_of_refined holds ?_⟩
  intro empty
  simp only [Members.principalEndorsements, Bool.not_false, if_true, Members.refinePrincipal,
    Bool.false_eq_true, if_false, empty, List.isEmpty_nil] at done
  cases done

theorem counted_of_crossCall {resourceId : Bytes} {pol : Policy} (holds : cache.Holds p.members.Recorded)
    (invocation : tx.payload.txType = .invokeContract) (called : resourceId ≠ getTxResourceName tx)
    (configured : p.findFromEndorsementsPolicies resourceId = some pol)
    (accepted : p.verifyTxPrincipal verifier tx resourceId cache = .ok (.ok (), cache')) :
    ∃ counted before between, between.Holds p.members.Recorded ∧
      p.members.principalEndorsements verifier [] true tx.sender (Members.entriesOf tx) before = (.ok counted, between) ∧
      p.members.verifyPrincipalPolicy (targetOrgOf tx pol) resourceId pol counted between = .ok (.ok (), cache') := by
  obtain ⟨first, second, typeChecked, senderChecked, checked⟩ :=
    (verifyTxPrincipal_accepted invocation true (by simpa using called.symm) rfl).mp accepted
  have firstHolds : first.Holds p.members.Recorded := by
    obtain ⟨_, _, _, _, _, done, verified⟩ := verifyTxTypePrincipal_accepted typeChecked
    exact Members.verifyPrincipalPolicy_holds (Members.principalEndorsements_holds holds done) verified
  have secondHolds : second.Holds p.members.Recorded := by
    obtain ⟨_, _, between, _, done, verified⟩ := verifySenderPrincipal_accepted senderChecked
    have betweenHolds := Members.principalEndorsements_holds firstHolds done
    rcases verified with rfl | ⟨_, _, verified⟩
    · exact betweenHolds
    · exact Members.verifyPrincipalPolicy_holds betweenHolds verified
  obtain ⟨counted, between, done, verified⟩ :=
    verifyEndorsementsPrincipalCommon_accepted configured checked
  exact ⟨counted, second, between, Members.principalEndorsements_holds secondHolds done, done, verified⟩

/-- A call that is accepted after the transaction itself has its policy satisfied by verified
signers, as far as the entries it is checked with are covered. -/
theorem crossCall_satisfied (p : AcProvider) (verifier : Verifier) (tx : Transaction)
    (cache cache' called last : MemberCache) (resourceId : Bytes) (pol : Policy)
    (holds : cache.Holds p.members.Recorded) (calledHolds : called.Holds p.members.Recorded)
    (invocation : tx.payload.txType = .invokeContract) (other : resourceId ≠ getTxResourceName tx)
    (configured : p.findFromEndorsementsPolicies resourceId = some pol)
    (own : p.verifyTxPrincipal verifier tx (getTxResourceName tx) cache = .ok (.ok (), cache'))
    (accepted : p.verifyTxPrincipal verifier tx resourceId called = .ok (.ok (), last))
    (covered : p.members.Covered verifier tx) :
    p.members.Satisfied verifier tx.payload.unsignedTxBytes (targetOrgOf tx pol) resourceId pol
      (tx.endorsers ++ tx.sender.toList) := by
  obtain ⟨sender, isSender, senderSigned⟩ := sender_signed_of_own holds invocation own
  obtain ⟨entries, isCalled, signed, once⟩ := covered.exists_entries isSender senderSigned
  obtain ⟨counted, before, between, betweenHolds, done, verified⟩ :=
    counted_of_crossCall calledHolds invocation other configured accepted
  obtain ⟨_, ⟨uncompressed, rfl⟩ | ⟨compressed, cp, isCert, rfl⟩⟩ := Members.principalEndorsements_bypass done
  · rw [Members.calledEntries_uncompressed _ uncompressed] at isCalled
    have whole := filterMap_of_map isCalled
    have resolved : ∀ entry ∈ Members.entriesOf tx, ∃ entry', p.members.resolve entry = some entry' := by
      intro entry inside
      obtain ⟨entry', _, same⟩ := exists_of_map isCalled inside
      exact ⟨entry', same⟩
    have verified := Members.verifyPrincipalPolicy_resolved betweenHolds resolved verified
    rw [whole] at verified
    exact ⟨entries, between, last, whole ▸ List.Sublist.refl _, signed, once, betweenHolds, verified⟩
  · have isRefined : entries = (cp.refineEndorsementsForCertOptimization before (Members.entriesOf tx)).1 := by
      rw [isCert, Members.calledEntries_compressed cp compressed before] at isCalled
      exact (List.map_injective_iff.mpr (Option.some_injective _) isCalled).symm
    have sublist := (cp.refineEndorsementsForCertOptimization_spec before (Members.entriesOf tx)).1
    rw [Members.presented_resolve, ← isCert, ← isRefined] at sublist
    rw [← isRefined] at verified
    exact ⟨entries, between, last, sublist, signed, once, betweenHolds, verified⟩

private def org1 : Bytes := ascii "org1"

private def calledProvider (members : Members) (pol : Policy) : AcProvider where
  members := members
  latestPolicyMap := ∅
  txTypePolicyMap := AList.singleton TxType.invokeContract.name ⟨ruleAny, [], []⟩
  senderPolicyMap := ∅
  resourceNamePolicyMap := AList.singleton (ascii "r") pol

private def hashedAdmin : CertACProvider where
  x509 :=
    { parse := fun text => if text = [1] then some ⟨[1], [org1], [roleAdmin], [], 0⟩ else none
      parsePem := fun _ => none
      verify := fun _ cert => some [[cert]]
      parse_empty := rfl }
  orgNum := 1
  orgList := AList.singleton org1 ⟨[[1]]⟩
  opts := ⟨[], []⟩
  trustMembers := TrustMembers.empty
  certs := AList.singleton [9] [1]
  certs_ids := fun id _ found => by
    have registered := AList.lookup_isSome.mp (Option.isSome_of_eq_some found)
    rw [List.mem_singleton.mp (AList.mem_keys.mp registered)]
    rfl
  crl := ∅
  frozenList := []

-- the sender is named by the hash of a certificate that also endorses
private def hashedTx : Transaction :=
  ⟨⟨.invokeContract, [], [], [], []⟩, some ⟨⟨org1, [9], .certHash⟩, [1]⟩, [⟨⟨org1, [1], .cert⟩, [1]⟩]⟩

theorem crossCall_satisfied_hashedSender :
    (Members.org (.cert hashedAdmin)).Satisfied signedByAll [] [] (ascii "r") ⟨ruleMajority, [], []⟩
      (hashedTx.endorsers ++ hashedTx.sender.toList) := by
  refine crossCall_satisfied (calledProvider (.org (.cert hashedAdmin)) ⟨ruleMajority, [], []⟩) signedByAll hashedTx
    (ShardCache.newShardCache 0) _ (ShardCache.newShardCache 0) _ (ascii "r") ⟨ruleMajority, [], []⟩
    (ShardCache.Holds.newShardCache _ 0) (ShardCache.Holds.newShardCache _ 0) rfl (by decide) rfl rfl rfl ?_
  have isCalled : (Members.org (.cert hashedAdmin)).calledEntries hashedTx = [some ⟨⟨org1, [1], .cert⟩, [1]⟩] := rfl
  refine ⟨?_, ?_⟩
  · intro called inside
    rw [show called = some ⟨⟨org1, [1], .cert⟩, [1]⟩ from List.mem_singleton.mp (isCalled ▸ inside)]
    exact .inr ⟨_, rfl, rfl⟩
  · rw [show (calledProvider (.org (.cert hashedAdmin)) ⟨ruleMajority, [], []⟩).members.calledEntries hashedTx = _ from isCalled]
    exact List.nodup_singleton _

private def keyedChain : OrgProvider := .permissionedPk
  { keys := ⟨some, some⟩
    orgNum := 1
    orgList := [org1]
    adminMember := AList.singleton [1] org1
    consensusMember := AList.singleton [2] org1
    registered := ∅ }

private def forgedTx : Transaction :=
  ⟨⟨.invokeContract, [], [], [], []⟩, some ⟨⟨org1, [2], .publicKey⟩, [1]⟩, [⟨⟨org1, [1], .publicKey⟩, []⟩]⟩

private theorem node_identified : Identified keyedChain.rebuildMember keyedChain.Recorded ⟨org1, [2], .publicKey⟩ roleConsensusNode := by
  refine ⟨?_, ⟨_, rfl, rfl⟩⟩
  intro cached recorded
  have isMember : some (Member.mk org1 roleConsensusNode (.publicKey [2])) = some cached.member := recorded
  rw [← Option.some.inj isMember]
  exact ⟨rfl, rfl⟩

theorem call_accepted_of_forged_administrator :
    (∃ first, (calledProvider (.org keyedChain) ⟨ruleAny, [], [roleAdmin]⟩).verifyTxPrincipal
      signedByAll forgedTx (getTxResourceName forgedTx) (ShardCache.newShardCache 0) = .ok (.ok (), first)) ∧
    (∃ last, (calledProvider (.org keyedChain) ⟨ruleAny, [], [roleAdmin]⟩).verifyTxPrincipal
      signedByAll forgedTx (ascii "r") (ShardCache.newShardCache 0) = .ok (.ok (), last)) ∧
    ¬ (Members.org keyedChain).Satisfied signedByAll [] [] (ascii "r") ⟨ruleAny, [], [roleAdmin]⟩
      (forgedTx.endorsers ++ forgedTx.sender.toList) := by
  refine ⟨⟨_, rfl⟩, ⟨_, rfl⟩, ?_⟩
  intro satisfied
  obtain ⟨counted, cache, last, sublist, signed, _, holds, accepted⟩ := satisfied
  have nodes : ∀ entry ∈ counted, Identified keyedChain.rebuildMember keyedChain.Recorded entry.signer roleConsensusNode := by
    intro entry inside
    rcases List.mem_pair.mp (sublist.subset inside) with rfl | rfl
    · cases signed _ inside
    · exact node_identified
  obtain ⟨_, searched, _⟩ := anyMeets_identified OrgProvider.recorded_of_rebuildMember
    (fun _ => roleConsensusNode) (List.cons_ne_nil roleAdmin []) nodes holds
  have refused : counted.any (fun _ => [roleAdmin].contains roleConsensusNode) = false := by
    rw [List.any_eq_false]
    exact fun _ _ => by decide
  simp only [Members.verifyPrincipalPolicy, verifyPrincipalPolicy_any, verifyPrincipalPolicyRuleAnyCase, searched, refused] at accepted
  cases accepted

end AcProvider

end Pdcc.AccessControl
