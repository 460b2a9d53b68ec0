import Pdcc.Library.Fallible
import Pdcc.Library.Tally
import Pdcc.AccessControl.PermissionedKey

/-!
# The deletion of a registered key

The member cache of a node keeps a member under the text that its signer sent. When a key is
deleted from the chain, the member under the canonical text of the key is removed from the
cache; a key may have other texts.
-/

set_option autoImplicit false

namespace Pdcc.AccessControl

open Ledger Library

inductive KeyEvent where
  | refine (verifier : Verifier) (msg : Bytes) (endorsements : List EndorsementEntry)
  | newMember (signer : PbMember)
  | register (pkBytes : Bytes) (info : PKInfo)
  | chainConfig (trustRoots : List TrustRootConfig) (nodes : List OrgConfig)
  | delete (publishKey : Bytes)

/-- The event makes the key neither registered nor an administrator nor a consensus node. -/
def KeyEvent.LeavesOut (keys : KeyLibrary) (key : Bytes) : KeyEvent → Prop
  | .register pkBytes _ => pkBytes ≠ key
  | .chainConfig trustRoots nodes =>
    (∀ trustRoot ∈ trustRoots, ∀ root ∈ trustRoot.root, keys.publicKeyFromPEM root ≠ some key) ∧
      ∀ conf ∈ nodes, ∀ nodeId ∈ conf.nodeId,
        keys.createLibp2pPeerIdWithPublicKey key ≠ some nodeId
  | _ => True

/-- A provider over the keys that are registered on the chain, and the member cache of the
node. -/
structure KeyNode where
  provider : PermissionedPkACProvider
  cache : MemberCache

namespace KeyNode

variable (pkString : Bytes → Bytes) (node : KeyNode)

def onMessagePublishKeyManageDelete (publishKey : Bytes) : Except Panic MemberCache :=
  match node.provider.keys.publicKeyFromPEM publishKey with
  | none => .error .nilDereference
  | some pk => .ok (node.cache.remove (pkString pk))

def onMessageChainConfig (trustRoots : List TrustRootConfig) (nodes : List OrgConfig) : KeyNode where
  provider :=
    ((node.provider.initAdminMembers trustRoots).getD node.provider).initConsensusMember nodes
  cache := node.cache.clear

/-- One call or event. A key is deleted from the store before its event is handled. -/
def step : KeyEvent → Except Panic KeyNode
  | .refine verifier msg endorsements => .ok { node with
      cache := (node.provider.refineEndorsements verifier msg node.cache endorsements).2 }
  | .newMember signer =>
    .ok { node with cache := (node.provider.newPkMember node.cache signer).2 }
  | .register pkBytes info => .ok { node with
      provider.registered := node.provider.registered.insert pkBytes info }
  | .chainConfig trustRoots nodes => .ok (node.onMessageChainConfig trustRoots nodes)
  | .delete publishKey =>
    (node.onMessagePublishKeyManageDelete pkString publishKey).map fun cache =>
      ⟨{ node.provider with
          registered := (node.provider.keys.publicKeyFromPEM publishKey).elim
            node.provider.registered node.provider.registered.erase }, cache⟩

def run (events : List KeyEvent) : Except Panic KeyNode := events.foldlM (step pkString) node

/-- After the key has been deleted in this history, and as long as no event names it again, no
endorsement is returned that names it by any text. -/
def Refuses (before : List KeyEvent) (publishKey key : Bytes) : Prop :=
  ∀ after final, (∀ event ∈ after, event.LeavesOut node.provider.keys key) →
    run pkString node (before ++ .delete publishKey :: after) = .ok final →
    ∀ verifier msg endorsements, ∀ endorsement ∈
      (final.provider.refineEndorsements verifier msg final.cache endorsements).1,
        node.provider.keys.publicKeyFromPEM endorsement.signer.memberInfo ≠ some key

/-- A key of a registered user only. -/
structure Ordinary (pp : PermissionedPkACProvider) (key : Bytes) : Prop where
  admin : pp.adminMember.lookup key = none
  consensus : ∃ nodeId, pp.keys.createLibp2pPeerIdWithPublicKey key = some nodeId ∧
    pp.consensusMember.lookup nodeId = none

/-- The key is unknown to the node, and no member is cached under a text of it. -/
structure Gone (keys : KeyLibrary) (key : Bytes) (node : KeyNode) : Prop where
  library : node.provider.keys = keys
  ordinary : Ordinary node.provider key
  unregistered : node.provider.registered.lookup key = none
  uncached : node.cache.Holds fun text _ => keys.publicKeyFromPEM text ≠ some key

def withoutKey (key : Bytes) : KeyNode where
  provider := { node.provider with registered := node.provider.registered.erase key }
  cache := node.cache.remove (pkString key)

variable {pkString node} {keys : KeyLibrary} {key text : Bytes} {member : Member}
  {signer : PbMember} {next : KeyNode}

theorem step_delete {publishKey : Bytes} (stepped : node.step pkString (.delete publishKey) = .ok next) :
    ∃ removed, node.provider.keys.publicKeyFromPEM publishKey = some removed ∧ next = node.withoutKey pkString removed := by
  simp only [step, onMessagePublishKeyManageDelete] at stepped
  cases parsed : node.provider.keys.publicKeyFromPEM publishKey with
  | none =>
    rw [parsed] at stepped
    cases stepped
  | some removed =>
    rw [parsed] at stepped
    cases stepped
    exact ⟨removed, rfl, rfl⟩

theorem onMessageChainConfig_keys (node : KeyNode) (trustRoots : List TrustRootConfig) (nodes : List OrgConfig) :
    (node.onMessageChainConfig trustRoots nodes).provider.keys = node.provider.keys ∧
      (node.onMessageChainConfig trustRoots nodes).provider.registered = node.provider.registered := by
  unfold onMessageChainConfig
  cases loaded : node.provider.initAdminMembers trustRoots with
  | none => exact ⟨rfl, rfl⟩
  | some updated =>
    obtain ⟨_, _, same⟩ := Option.bind_eq_some_iff.mp loaded
    cases same
    exact ⟨rfl, rfl⟩

theorem step_keys {event : KeyEvent} (stepped : node.step pkString event = .ok next) :
    next.provider.keys = node.provider.keys := by
  cases event with
  | delete publishKey =>
    obtain ⟨_, _, rfl⟩ := step_delete stepped
    rfl
  | chainConfig trustRoots nodes =>
    cases stepped
    exact (onMessageChainConfig_keys node trustRoots nodes).1
  | _ =>
    cases stepped
    rfl

theorem run_keys {events : List KeyEvent} (ran : run pkString node events = .ok next) : next.provider.keys = node.provider.keys := by
  have kept (done : List KeyEvent) (event : KeyEvent) (state state' : KeyNode)
      (same : state.provider.keys = node.provider.keys) (stepped : step pkString state event = .ok state') :
      state'.provider.keys = node.provider.keys := (step_keys stepped).trans same
  exact foldlM_invariant kept rfl ran

theorem admin_named {trustRoots : List TrustRootConfig} {pp updated : PermissionedPkACProvider}
    (loaded : pp.initAdminMembers trustRoots = some updated) (listed : updated.adminMember.lookup key ≠ none) :
    ∃ trustRoot ∈ trustRoots, ∃ root ∈ trustRoot.root, pp.keys.publicKeyFromPEM root = some key := by
  obtain ⟨admins, read, same⟩ := Option.bind_eq_some_iff.mp loaded
  cases same
  have named : amountsOf admins.flatten key ≠ [] := by
    intro none
    simp only [foldl_insert_lookup, none] at listed
    exact listed rfl
  obtain ⟨orgId, inside⟩ := List.exists_mem_of_ne_nil _ named
  obtain ⟨found, foundIn, entryIn⟩ := List.mem_flatten.mp (mem_amountsOf.mp inside)
  obtain ⟨trustRoot, rootIn, roots⟩ := mem_of_mapM read foundIn
  obtain ⟨root, textIn, parsed⟩ := mem_of_mapM roots entryIn
  obtain ⟨pkBytes, isKey, sameEntry⟩ := Option.map_eq_some_iff.mp parsed
  obtain ⟨rfl, _⟩ := Prod.mk.inj sameEntry
  exact ⟨trustRoot, rootIn, root, textIn, isKey⟩

theorem Ordinary.chainConfig (ordinary : Ordinary node.provider key) {trustRoots : List TrustRootConfig} {nodes : List OrgConfig}
    (leaves : (KeyEvent.chainConfig trustRoots nodes).LeavesOut node.provider.keys key) :
    Ordinary (node.onMessageChainConfig trustRoots nodes).provider key := by
  obtain ⟨nodeId, peer, _⟩ := ordinary.consensus
  refine ⟨?_, nodeId, by rw [(onMessageChainConfig_keys node trustRoots nodes).1, peer], ?_⟩
  · change ((node.provider.initAdminMembers trustRoots).getD node.provider).adminMember.lookup key = none
    cases loaded : node.provider.initAdminMembers trustRoots with
    | none => exact ordinary.admin
    | some updated =>
      by_contra listed
      obtain ⟨trustRoot, rootIn, root, textIn, named⟩ := admin_named loaded listed
      exact leaves.1 trustRoot rootIn root textIn named
  · have absent : amountsOf (nodes.flatMap fun conf => conf.nodeId.map (·, conf.orgId)) nodeId = [] := by
      rw [amountsOf_eq_nil_iff]
      intro entry inside same
      obtain ⟨conf, confIn, entryIn⟩ := List.mem_flatMap.mp inside
      obtain ⟨other, otherIn, rfl⟩ := List.mem_map.mp entryIn
      rw [show other = nodeId from same] at otherIn
      exact leaves.2 conf confIn nodeId otherIn peer
    simp only [onMessageChainConfig, PermissionedPkACProvider.initConsensusMember, foldl_insert_lookup, absent]
    rfl

section Gone

variable (gone : Gone keys key node)

include gone

theorem Gone.text_ne (recorded : node.provider.memberOfText text = some member) : keys.publicKeyFromPEM text ≠ some key := by
  intro named
  obtain ⟨found, parsed, known⟩ := Option.bind_eq_some_iff.mp recorded
  rw [gone.library, named] at parsed
  cases parsed
  obtain ⟨nodeId, peer, absent⟩ := gone.ordinary.consensus
  simp only [PermissionedPkACProvider.memberOfKey, gone.ordinary.admin, peer, absent, gone.unregistered] at known
  cases known

theorem Gone.newPkMember (signer : PbMember) : Gone keys key { node with cache := (node.provider.newPkMember node.cache signer).2 } := by
  refine ⟨gone.library, gone.ordinary, gone.unregistered, ?_⟩
  rcases @PermissionedPkACProvider.newPkMember_cache node.provider node.cache signer with
    same | ⟨info, recorded, added⟩
  · simp only [same]
    exact gone.uncached
  · simp only [added]
    exact gone.uncached.add (gone.text_ne recorded)

theorem Gone.refine (verifier : Verifier) (msg : Bytes) (endorsements : List EndorsementEntry) :
    let refined := node.provider.refineEndorsements verifier msg node.cache endorsements
    (∀ endorsement ∈ refined.1, keys.publicKeyFromPEM endorsement.signer.memberInfo ≠ some key) ∧
      Gone keys key { node with cache := refined.2 } := by
  have keeps : ∀ cache memInfo endorsement, Gone keys key { node with cache := cache } →
      Gone keys key { node with cache := (verifyKeySigner node.provider.newPkMember verifier msg
        cache memInfo endorsement).2 } := by
    intro cache memInfo endorsement gone
    rw [MemberSource.verifyKeySigner_cache]
    exact gone.newPkMember endorsement.signer
  obtain ⟨_, _, _, checked, final⟩ :=
    admitOnce_spec keeps [] node.cache gone (keyed endorsements)
  refine ⟨?_, final⟩
  intro endorsement inside
  obtain ⟨kept, listed, rfl⟩ := List.mem_map.mp inside
  obtain ⟨cache, reached, verified⟩ := checked kept listed
  unfold verifyKeySigner at verified
  split at verified
  · cases verified
  · next member _ made =>
    rcases PermissionedPkACProvider.newPkMember_found made with ⟨info, present, _⟩ | ⟨built, _⟩
    · exact reached.uncached _ _ present
    · exact gone.text_ne (PermissionedPkACProvider.newMemberFromAcs_eq_some.mp built).1

theorem Gone.step {event : KeyEvent} (leaves : event.LeavesOut keys key) (stepped : node.step pkString event = .ok next) :
    Gone keys key next := by
  cases event with
  | refine verifier msg endorsements =>
    cases stepped
    exact (gone.refine verifier msg endorsements).2
  | newMember signer =>
    cases stepped
    exact gone.newPkMember signer
  | register pkBytes info =>
    cases stepped
    have different : key ≠ pkBytes := fun same => leaves same.symm
    exact ⟨gone.library, ⟨gone.ordinary.admin, gone.ordinary.consensus⟩,
      (AList.lookup_insert_ne different).trans gone.unregistered, gone.uncached⟩
  | chainConfig trustRoots nodes =>
    cases stepped
    obtain ⟨library, registered⟩ := onMessageChainConfig_keys node trustRoots nodes
    exact ⟨library.trans gone.library, gone.ordinary.chainConfig (gone.library ▸ leaves),
      by rw [registered, gone.unregistered], gone.uncached.clear⟩
  | delete publishKey =>
    obtain ⟨removed, _, rfl⟩ := step_delete stepped
    refine ⟨gone.library, ⟨gone.ordinary.admin, gone.ordinary.consensus⟩, ?_, ?_⟩
    · by_cases same : key = removed
      · rw [same]
        exact AList.lookup_erase _ _
      · exact (AList.lookup_erase_ne same).trans gone.unregistered
    · exact gone.uncached.remove (pkString removed)

theorem Gone.run {events : List KeyEvent} (leaves : ∀ event ∈ events, event.LeavesOut keys key)
    (ran : run pkString node events = .ok next) : Gone keys key next := by
  induction events generalizing node with
  | nil =>
    cases ran
    exact gone
  | cons event rest ih =>
    rw [KeyNode.run, List.foldlM_cons] at ran
    obtain ⟨between, stepped, later⟩ := bind_eq_ok.mp ran
    obtain ⟨here, after⟩ := List.forall_mem_cons.mp leaves
    exact ih (gone.step here stepped) after later

end Gone

/-- An endorsement under a text that is cached is returned, whatever has become of its key. -/
theorem cached_text_accepted {info : MemberCached} (present : node.cache.get text = some info) :
    let signer : PbMember := ⟨info.member.orgId, text, .publicKey⟩
    ⟨signer, []⟩ ∈ (node.provider.refineEndorsements (fun _ _ _ => true) [] node.cache [⟨signer, []⟩]).1 := by
  simp [PermissionedPkACProvider.refineEndorsements, refineKeyEndorsements, keyed, admitOnce,
    verifyKeySigner, PermissionedPkACProvider.newPkMember, getMemberFromCache, present, Member.verify]

private theorem run_delete {start last : KeyNode} {before : List KeyEvent} {publishKey : Bytes} (ran : run pkString start before = .ok last)
    (parsed : last.provider.keys.publicKeyFromPEM publishKey = some key) (after : List KeyEvent) :
    run pkString start (before ++ .delete publishKey :: after) = run pkString (last.withoutKey pkString key) after := by
  have deleted : step pkString last (.delete publishKey) = .ok (last.withoutKey pkString key) := by
    simp only [step, onMessagePublishKeyManageDelete, parsed]
    rfl
  rw [run, List.foldlM_append, ← run, ran]
  change (last.step pkString (.delete publishKey) >>= fun next => run pkString next after) = _
  rw [deleted]
  rfl

/-- In a history, a deleted key is refused exactly if no text of it but the canonical one is
cached when it is deleted. -/
theorem refuses_iff {start last : KeyNode} {before : List KeyEvent} {publishKey : Bytes}
    (ran : run pkString start before = .ok last) (ordinary : Ordinary last.provider key)
    (named : start.provider.keys.publicKeyFromPEM publishKey = some key) :
    Refuses pkString start before publishKey key ↔ ∀ text info, last.cache.get text = some info →
      start.provider.keys.publicKeyFromPEM text = some key → text = pkString key := by
  have library := run_keys ran
  have split := run_delete ran (library ▸ named)
  constructor
  · intro refuses text info present isKey
    by_contra different
    have still : (last.withoutKey pkString key).cache.get text = some info := by
      rw [withoutKey, ShardCache.get_remove, if_neg different, present]
    exact refuses [] _ (by simp) (split []) _ _ _ _ (cached_text_accepted still) isKey
  · intro canonical after final leaves ranAll verifier msg endorsements
    rw [split] at ranAll
    have uncached : (last.withoutKey pkString key).cache.Holds fun text _ => start.provider.keys.publicKeyFromPEM text ≠ some key := by
      intro text info present isKey
      rw [withoutKey, ShardCache.get_remove] at present
      split at present
      · cases present
      · next different => exact different (canonical text info present isKey)
    have gone : Gone start.provider.keys key (last.withoutKey pkString key) :=
      ⟨library, ⟨ordinary.admin, ordinary.consensus⟩, AList.lookup_erase _ _, uncached⟩
    exact ((gone.run leaves ranAll).refine verifier msg endorsements).1

/-- Keys of one byte: a text is the key after any number of line feeds. -/
def lineFeeds : PermissionedPkACProvider where
  keys := ⟨fun text => some (text.dropWhile (· = 10)), some⟩
  orgNum := 1
  orgList := [ascii "org1"]
  adminMember := ∅
  consensusMember := ∅
  registered := ∅

private def configured : KeyNode where
  provider := { lineFeeds.initConsensusMember [] with
    adminMember := AList.singleton [2] (ascii "org1"), registered := AList.singleton [1] ⟨[], []⟩ }
  cache := (ShardCache.newShardCache 0).clear

-- the signer names its key by the canonical text, and the deletion by another one
theorem refuses_byCanonicalText : Refuses id ⟨lineFeeds, ShardCache.newShardCache 0⟩
    [.register [1] ⟨[], []⟩, .chainConfig [⟨ascii "org1", [[2]]⟩] [], .newMember ⟨[], [1], .publicKey⟩] [10, 1] [1] := by
  have ran : run id ⟨lineFeeds, ShardCache.newShardCache 0⟩
      [.register [1] ⟨[], []⟩, .chainConfig [⟨ascii "org1", [[2]]⟩] [], .newMember ⟨[], [1], .publicKey⟩] =
      .ok { configured with cache := (configured.provider.newPkMember configured.cache ⟨[], [1], .publicKey⟩).2 } := rfl
  refine (refuses_iff ran ⟨rfl, [1], rfl, rfl⟩ (by decide)).mpr ?_
  have empty : configured.cache.Holds fun text _ => text = [1] := (ShardCache.Holds.newShardCache _ 0).clear
  have canonical : (configured.provider.newPkMember configured.cache ⟨[], [1], .publicKey⟩).2.Holds fun text _ => text = [1] := by
    rcases @PermissionedPkACProvider.newPkMember_cache configured.provider configured.cache ⟨[], [1], .publicKey⟩ with
      same | ⟨info, _, added⟩
    · rw [same]
      exact empty
    · rw [added]
      exact empty.add rfl
  exact fun text info present _ => canonical text info present

/-- The key is sent with a line feed before it, and accepted after its deletion. -/
theorem deleted_key_accepted :
    let signer : PbMember := ⟨[], [10, 1], .publicKey⟩
    ∃ final, run id ⟨lineFeeds, ShardCache.newShardCache 0⟩
        [.register [1] ⟨[], []⟩, .newMember signer, .delete [10, 1]] = .ok final ∧
      ⟨signer, []⟩ ∈ (final.provider.refineEndorsements (fun _ _ _ => true) []
        final.cache [⟨signer, []⟩]).1 := by
  refine ⟨_, rfl, ?_⟩
  have cached : (((ShardCache.newShardCache 0).add [10, 1] ⟨⟨[], [], .publicKey [1]⟩, []⟩).remove [1] : MemberCache).get
      [10, 1] = some ⟨⟨[], [], .publicKey [1]⟩, []⟩ := by
    rw [ShardCache.get_remove, if_neg (by decide), ShardCache.get_add_self]
  exact @cached_text_accepted ⟨_, _⟩ [10, 1] _ cached

end KeyNode

end Pdcc.AccessControl
