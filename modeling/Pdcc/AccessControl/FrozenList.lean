import Pdcc.AccessControl.ConfigUpdate

/-!
# The list of frozen certificates

A node keeps the frozen certificates in memory: it applies freeze and unfreeze events to the
list, and builds the list from the store when it starts. An event names certificates in full,
as PEM blocks, or by the hashes under which the store holds their texts.
-/

set_option autoImplicit false

namespace Pdcc.AccessControl

open Ledger

/-- PEM blocks and the certificates in them. What is left after a block is shorter. -/
structure PemLibrary where
  decode : Bytes → Option (Bytes × Bytes)
  parseCertificate : Bytes → Option Certificate
  shorter : ∀ text block rest, decode text = some (block, rest) → rest.length < text.length

inductive FreezeEvent where
  | freeze (certs : Bytes)
  | unfreeze (certs hashes : Bytes)

def FreezeEvent.certs : FreezeEvent → Bytes
  | freeze certs | unfreeze certs _ => certs

inductive LoadFailure where
  | readList
  | unmarshal
  | readCert (certId : Bytes)
  | emptyCert (certId : Bytes)
  | nilDereference
  deriving DecidableEq

structure FrozenCerts where
  pem : PemLibrary
  consensus : ChainConsensus
  readObject : Bytes → Option (Option Bytes)
  unmarshal : Bytes → Option (List Bytes)

namespace FrozenCerts

variable (cp : FrozenCerts)

def isConsensusCert (raw : Bytes) : Bool :=
  (cp.pem.parseCertificate raw).any fun cert =>
    cert.organizationalUnit.head? = some (ascii "consensus")

def deferred (raw : Bytes) : Bool := cp.consensus = .maxbft && cp.isConsensusCert raw

variable (frozenList : List Bytes)

def store (raw : Bytes) : List Bytes := frozenList.insert raw

def delete (raw : Bytes) : List Bytes := frozenList.filter (· ≠ raw)

/-- The loop of both handlers. A deferred block is skipped before the next one is decoded. -/
def certLoop (update : List Bytes → Bytes → List Bytes) :
    Nat → Option (Bytes × Bytes) → List Bytes → Option (List Bytes)
  | 0, _, _ => none
  | _ + 1, none, frozenList => some frozenList
  | fuel + 1, some (certBlock, rest), frozenList =>
    if cp.deferred certBlock then certLoop update fuel (some (certBlock, rest)) frozenList
    else certLoop update fuel (cp.pem.decode rest) (update frozenList certBlock)

def certList (certs : Bytes) : Bytes := certs.map fun char => if char = 44 then 10 else char

def certHashes (hashes : Bytes) : List Bytes := if hashes = [] then [] else hashes.splitOn 44

def deleteByHash (hash : Bytes) : List Bytes :=
  match cp.readObject hash with
  | some (some cert) => delete frozenList cert
  | _ => frozenList

def onMessageCertFreeze (fuel : Nat) (certs : Bytes) (frozenList : List Bytes) :
    Option (List Bytes) :=
  cp.certLoop store fuel (cp.pem.decode (certList certs)) frozenList

def onMessageCertUnFreeze (fuel : Nat) (certs hashes : Bytes) (frozenList : List Bytes) :
    Option (List Bytes) :=
  (cp.certLoop delete fuel (cp.pem.decode (certList certs)) frozenList).map
    fun frozenList => (certHashes hashes).foldl cp.deleteByHash frozenList

def onMessage (fuel : Nat) : FreezeEvent → List Bytes → Option (List Bytes)
  | .freeze certs => cp.onMessageCertFreeze fuel certs
  | .unfreeze certs hashes => cp.onMessageCertUnFreeze fuel certs hashes

def loadFrozenCert (certID : Bytes) : Except LoadFailure (List Bytes) :=
  match cp.readObject certID with
  | none => .error (.readCert certID)
  | some none => .error (.emptyCert certID)
  | some (some certBytes) =>
    match cp.pem.decode certBytes with
    | none => .error .nilDereference
    | some (certBlock, _) => .ok (store frozenList certBlock)

def loadCertFrozenList (certList : Option (Option Bytes)) : Except LoadFailure (List Bytes) :=
  match certList with
  | none => .error .readList
  | some none => .ok []
  | some (some certList) =>
    match cp.unmarshal certList with
    | none => .error .unmarshal
    | some certIDs => certIDs.foldlM cp.loadFrozenCert []

/-- The blocks of a text that is at most as long as the bound. -/
def blocks : Nat → Bytes → List Bytes
  | 0, _ => []
  | bound + 1, text =>
    match cp.pem.decode text with
    | none => []
    | some (certBlock, rest) => certBlock :: blocks bound rest

/-- The certificates that an event names in full. -/
def certificates (event : FreezeEvent) : List Bytes :=
  cp.blocks (certList event.certs).length (certList event.certs)

section Loop

variable {cp} {update : List Bytes → Bytes → List Bytes} {bound : Nat} {text : Bytes}

theorem certLoop_deferred {certBlock : Bytes} (deferred : cp.deferred certBlock = true)
    (rest : Bytes) (fuel : Nat) (frozenList : List Bytes) :
    cp.certLoop update fuel (some (certBlock, rest)) frozenList = none := by
  induction fuel with
  | zero => rfl
  | succ fuel ih => rw [certLoop, if_pos deferred, ih]

/-- The loop stays at the first deferred block of the text, or passes over all of them. -/
theorem certLoop_eq (cp : FrozenCerts) (update : List Bytes → Bytes → List Bytes) (short : text.length ≤ bound) (frozenList : List Bytes) :
    (∀ raw ∈ cp.blocks bound text, cp.deferred raw = false) ∧
        (∀ fuel, bound < fuel → cp.certLoop update fuel (cp.pem.decode text) frozenList =
          some ((cp.blocks bound text).foldl update frozenList)) ∨
      (∃ raw ∈ cp.blocks bound text, cp.deferred raw = true) ∧ ∀ fuel, cp.certLoop update fuel (cp.pem.decode text) frozenList = none := by
  induction bound generalizing text frozenList with
  | zero =>
    have finished : cp.pem.decode text = none := by
      cases decoded : cp.pem.decode text with
      | none => rfl
      | some found => exact absurd (cp.pem.shorter _ _ _ decoded) (by omega)
    refine .inl ⟨by simp [blocks], ?_⟩
    intro fuel enough
    cases fuel with
    | zero => cases enough
    | succ fuel => rw [finished, certLoop, blocks, List.foldl_nil]
  | succ bound ih =>
    cases decoded : cp.pem.decode text with
    | none =>
      refine .inl ⟨by simp [blocks, decoded], ?_⟩
      intro fuel enough
      cases fuel with
      | zero => cases enough
      | succ fuel => simp [blocks, decoded, certLoop]
    | some found =>
      obtain ⟨certBlock, rest⟩ := found
      cases deferred : cp.deferred certBlock with
      | true =>
        exact .inr ⟨⟨certBlock, by simp [blocks, decoded], deferred⟩, fun fuel => certLoop_deferred deferred rest fuel frozenList⟩
      | false =>
        have shrunk : rest.length ≤ bound := by
          have := cp.pem.shorter _ _ _ decoded
          omega
        refine (ih shrunk (update frozenList certBlock)).imp ?_ ?_
        · rintro ⟨ordinary, passes⟩
          refine ⟨by simpa [blocks, decoded, deferred] using ordinary, ?_⟩
          intro fuel enough
          cases fuel with
          | zero => cases enough
          | succ fuel =>
            simp [blocks, decoded, certLoop, deferred, passes fuel (Nat.lt_of_succ_lt_succ enough)]
        · rintro ⟨⟨raw, inside, late⟩, stays⟩
          refine ⟨⟨raw, by simp [blocks, decoded, inside], late⟩, ?_⟩
          intro fuel
          cases fuel with
          | zero => rfl
          | succ fuel => rw [certLoop, if_neg (by simp [deferred]), stays]

end Loop

section Handlers

/-- The list after an event none of whose certificates is deferred. -/
def applied (frozenList : List Bytes) (event : FreezeEvent) : List Bytes :=
  match event with
  | .freeze _ => (cp.certificates event).foldl store frozenList
  | .unfreeze _ hashes =>
    (certHashes hashes).foldl cp.deleteByHash ((cp.certificates event).foldl delete frozenList)

/-- Each certificate of an event that is not deferred has been frozen, or unfrozen. -/
def Settled (event : FreezeEvent) (frozenList : List Bytes) : Prop :=
  ∀ raw ∈ cp.certificates event, cp.deferred raw = false →
    match event with
    | .freeze _ => raw ∈ frozenList
    | .unfreeze .. => raw ∉ frozenList

variable {cp}

theorem onMessage_eq (event : FreezeEvent) (frozenList : List Bytes) :
    (∀ raw ∈ cp.certificates event, cp.deferred raw = false) ∧ (∀ fuel, (certList event.certs).length < fuel →
          cp.onMessage fuel event frozenList = some (cp.applied frozenList event)) ∨
      (∃ raw ∈ cp.certificates event, cp.deferred raw = true) ∧ ∀ fuel, cp.onMessage fuel event frozenList = none := by
  cases event with
  | freeze certs => exact certLoop_eq cp store (Nat.le_refl _) frozenList
  | unfreeze certs hashes =>
    refine (certLoop_eq cp delete (Nat.le_refl (certList certs).length) frozenList).imp ?_ ?_
    · rintro ⟨ordinary, passes⟩
      exact ⟨ordinary, fun fuel enough => by
        rw [onMessage, onMessageCertUnFreeze, passes fuel enough]; rfl⟩
    · rintro ⟨late, stays⟩
      exact ⟨late, fun fuel => by rw [onMessage, onMessageCertUnFreeze, stays]; rfl⟩

variable {raw : Bytes} {items frozenList : List Bytes}

theorem mem_foldl_store : raw ∈ items.foldl store frozenList ↔ raw ∈ frozenList ∨ raw ∈ items := by
  induction items generalizing frozenList with
  | nil => simp
  | cons item items ih => simp [ih, store, or_assoc, or_left_comm]

theorem mem_foldl_delete : raw ∈ items.foldl delete frozenList ↔ raw ∈ frozenList ∧ raw ∉ items := by
  induction items generalizing frozenList with
  | nil => simp
  | cons item items ih => simp [ih, delete, and_assoc]

theorem mem_foldl_deleteByHash : raw ∈ items.foldl cp.deleteByHash frozenList ↔
      raw ∈ frozenList ∧ ∀ hash ∈ items, cp.readObject hash ≠ some (some raw) := by
  induction items generalizing frozenList with
  | nil => simp
  | cons hash items ih =>
    rw [List.foldl_cons, ih, List.forall_mem_cons, ← and_assoc]
    refine and_congr_left fun _ => ?_
    unfold deleteByHash
    split
    · next cert read =>
      rw [read]
      simp [delete, @eq_comm _ raw]
    · next other => exact ⟨fun inside => ⟨inside, other raw⟩, And.left⟩

/-- A handler finishes, with every certificate of its event settled, unless the event has a
deferred certificate: under MAXBFT the loop does not get past a consensus certificate. -/
theorem handler_settles_iff (cp : FrozenCerts) (event : FreezeEvent) (frozenList : List Bytes) :
    (∃ fuel final, cp.onMessage fuel event frozenList = some final ∧ cp.Settled event final) ↔
      ¬ (cp.consensus = .maxbft ∧ ∃ raw ∈ cp.certificates event, cp.isConsensusCert raw = true) := by
  have named : (∃ raw ∈ cp.certificates event, cp.deferred raw = true) ↔
      cp.consensus = .maxbft ∧ ∃ raw ∈ cp.certificates event, cp.isConsensusCert raw = true := by
    simp only [deferred, Bool.and_eq_true, decide_eq_true_eq]
    exact ⟨fun ⟨raw, inside, maxbft, late⟩ => ⟨maxbft, raw, inside, late⟩,
      fun ⟨maxbft, raw, inside, late⟩ => ⟨raw, inside, maxbft, late⟩⟩
  rw [← named]
  rcases onMessage_eq event frozenList with ⟨ordinary, passes⟩ | ⟨late, stays⟩
  · have settled : cp.Settled event (cp.applied frozenList event) := by
      intro raw inside _
      cases event with
      | freeze certs => exact mem_foldl_store.mpr (.inr inside)
      | unfreeze certs hashes =>
        exact fun kept => (mem_foldl_delete.mp (mem_foldl_deleteByHash.mp kept).1).2 inside
    refine ⟨fun _ ⟨raw, inside, late⟩ => ?_, fun _ => ⟨_, _, passes _ (Nat.lt_succ_self _), settled⟩⟩
    exact absurd late (by simp [ordinary raw inside])
  · refine ⟨fun ⟨fuel, final, handled, _⟩ => ?_, fun none => absurd late none⟩
    rw [stays] at handled
    cases handled

end Handlers

section Restart

/-- What the store is said to hold: the text of each certificate under its hash. Certificates
have different hashes, and the text of a certificate is not itself a certificate. -/
structure Stores (certs : Set Bytes) (hash text : Bytes → Bytes) : Prop where
  read : ∀ raw ∈ certs, cp.readObject (hash raw) = some (some (text raw))
  decoded : ∀ raw ∈ certs, ∃ rest, cp.pem.decode (text raw) = some (raw, rest)
  injective : Set.InjOn hash certs
  encoded : ∀ raw ∈ certs, text raw ∉ certs

/-- The hashes by which an event names certificates. -/
def hashes : FreezeEvent → List Bytes
  | .freeze _ => []
  | .unfreeze _ hashes => certHashes hashes

/-- An event names only the given certificates, in full or by their hashes. -/
def Names (certs : Set Bytes) (hash : Bytes → Bytes) (event : FreezeEvent) : Prop :=
  (∀ raw ∈ cp.certificates event, raw ∈ certs) ∧ ∀ id ∈ hashes event, ∃ raw ∈ certs, id = hash raw

/-- The list after a history of events, the newest first. -/
def run (fuel : Nat) : List FreezeEvent → Option (List Bytes)
  | [] => some []
  | event :: earlier => (run fuel earlier).bind (cp.onMessage fuel event)

def held : List FreezeEvent → List Bytes
  | [] => []
  | event :: earlier => cp.applied (held earlier) event

/-- The hashes that were frozen and not unfrozen since. -/
def frozenIds (hash : Bytes → Bytes) : List FreezeEvent → List Bytes
  | [] => []
  | .freeze certs :: earlier =>
    frozenIds hash earlier ++ (cp.certificates (.freeze certs)).map hash
  | .unfreeze certs named :: earlier =>
    (frozenIds hash earlier).filter fun id =>
      !((cp.certificates (.unfreeze certs named)).map hash).contains id &&
        !(certHashes named).contains id

/-- A certificate that was unfrozen by its hash, while it was frozen, and that no event since
has named in full. -/
def LeftBehind (hash : Bytes → Bytes) (raw : Bytes) : List FreezeEvent → Prop
  | [] => False
  | event :: earlier => raw ∉ cp.certificates event ∧
      (LeftBehind hash raw earlier ∨ raw ∈ cp.held earlier ∧ hash raw ∈ hashes event)

variable {cp} {certs : Set Bytes} {hash text : Bytes → Bytes} {history : List FreezeEvent}
  {raw : Bytes}

theorem run_eq_held (standard : cp.consensus ≠ .maxbft) (history : List FreezeEvent) :
    ∃ bound, ∀ fuel, bound < fuel → cp.run fuel history = some (cp.held history) := by
  induction history with
  | nil => exact ⟨0, fun _ _ => rfl⟩
  | cons event earlier ih =>
    obtain ⟨bound, before⟩ := ih
    rcases onMessage_eq event (cp.held earlier) with ⟨_, passes⟩ | ⟨⟨raw, _, late⟩, _⟩
    · refine ⟨max bound (certList event.certs).length, fun fuel enough => ?_⟩
      obtain ⟨enoughBefore, enoughNow⟩ := max_lt_iff.mp enough
      rw [run, before fuel enoughBefore, Option.bind_some, passes fuel enoughNow, held]
    · simp [deferred, standard] at late

variable (stores : cp.Stores certs hash text) (named : ∀ event ∈ history, cp.Names certs hash event)

include stores named

/-- The running node and the store agree on a certificate unless it was left behind. -/
theorem frozenIds_spec (known : raw ∈ certs) : (hash raw ∈ cp.frozenIds hash history → raw ∈ cp.held history) ∧
      (cp.LeftBehind hash raw history ↔ raw ∈ cp.held history ∧ hash raw ∉ cp.frozenIds hash history) := by
  induction history with
  | nil => simp [frozenIds, held, LeftBehind]
  | cons event earlier ih =>
    obtain ⟨agrees, left⟩ := ih fun event inside => named event (List.mem_cons_of_mem _ inside)
    obtain ⟨full, _⟩ := named event List.mem_cons_self
    have same : hash raw ∈ (cp.certificates event).map hash ↔ raw ∈ cp.certificates event := by
      refine ⟨fun inside => ?_, List.mem_map_of_mem⟩
      obtain ⟨other, named, equal⟩ := List.mem_map.mp inside
      exact stores.injective (full other named) known equal ▸ named
    cases event with
    | freeze certs =>
      have now : raw ∈ cp.held (.freeze certs :: earlier) ↔ raw ∈ cp.held earlier ∨ raw ∈ cp.certificates (.freeze certs) := mem_foldl_store
      rw [LeftBehind, left, now, frozenIds, List.mem_append, same]
      by_cases listed : raw ∈ cp.certificates (.freeze certs) 
      · simp [listed]
      · simpa [listed, hashes] using agrees
    | unfreeze certs ids =>
      have now : raw ∈ cp.held (.unfreeze certs ids :: earlier) ↔ raw ∈ cp.held earlier ∧ raw ∉ cp.certificates (.unfreeze certs ids) := by
        refine mem_foldl_deleteByHash.trans ((and_iff_left ?_).trans mem_foldl_delete)
        intro id inside read
        obtain ⟨other, listed, rfl⟩ := (named _ List.mem_cons_self).2 id inside
        rw [stores.read other listed] at read
        cases read
        exact stores.encoded other listed known
      rw [LeftBehind, left, now, frozenIds, List.mem_filter]
      simp only [Bool.and_eq_true, Bool.not_eq_true', List.contains_eq_mem, decide_eq_false_iff_not, same]
      by_cases listed : raw ∈ cp.certificates (.unfreeze certs ids)
      · simp [listed]
      · by_cases frozen : hash raw ∈ cp.frozenIds hash earlier <;> simp_all [hashes]

omit stores in
theorem mem_certs : (∀ raw ∈ cp.held history, raw ∈ certs) ∧ ∀ id ∈ cp.frozenIds hash history, ∃ raw ∈ certs, hash raw = id := by
  induction history with
  | nil => simp [held, frozenIds]
  | cons event earlier ih =>
    obtain ⟨memory, ids⟩ := ih fun event inside => named event (List.mem_cons_of_mem _ inside)
    obtain ⟨full, _⟩ := named event List.mem_cons_self
    cases event with
    | freeze certs =>
      refine ⟨fun raw inside => (mem_foldl_store.mp inside).elim (memory raw) (full raw), ?_⟩
      intro id inside
      rcases List.mem_append.mp inside with old | new
      · exact ids id old
      · obtain ⟨raw, listed, same⟩ := List.mem_map.mp new
        exact ⟨raw, full raw listed, same⟩
    | unfreeze certs named =>
      exact ⟨fun raw inside =>
          memory raw (mem_foldl_delete.mp (mem_foldl_deleteByHash.mp inside).1).1,
        fun id inside => ids id (List.mem_filter.mp inside).1⟩

omit named in
theorem loadFrozenCert_ids {ids : List Bytes} (known : ∀ id ∈ ids, ∃ raw ∈ certs, hash raw = id) (frozenList : List Bytes) :
    ∃ loaded, ids.foldlM cp.loadFrozenCert frozenList = .ok loaded ∧
      ∀ raw, raw ∈ loaded ↔ raw ∈ frozenList ∨ raw ∈ certs ∧ hash raw ∈ ids := by
  induction ids generalizing frozenList with
  | nil => exact ⟨frozenList, rfl, by simp⟩
  | cons id ids ih =>
    obtain ⟨cert, listed, rfl⟩ := known id List.mem_cons_self
    obtain ⟨rest, decoded⟩ := stores.decoded cert listed
    obtain ⟨loaded, result, holds⟩ :=
      ih (fun id inside => known id (List.mem_cons_of_mem _ inside)) (store frozenList cert)
    have first : cp.loadFrozenCert frozenList (hash cert) = .ok (store frozenList cert) := by
      simp only [loadFrozenCert, stores.read cert listed, decoded]
    refine ⟨loaded, by rw [List.foldlM_cons, first]; exact result, ?_⟩
    intro raw
    have same : raw ∈ certs ∧ hash raw = hash cert ↔ raw = cert :=
      ⟨fun ⟨known, equal⟩ => stores.injective known listed equal, fun equal => by rw [equal]; exact ⟨listed, rfl⟩⟩
    rw [holds, store, List.mem_insert_iff, List.mem_cons, and_or_left, same, or_assoc, or_left_comm]

/-- The list of a running node is the one that a restarted node loads, and the two answer
alike, exactly if no certificate was left behind. -/
theorem restart_iff (standard : cp.consensus ≠ .maxbft) {listed : Bytes}
    (parsed : cp.unmarshal listed = some (cp.frozenIds hash history)) :
    ∃ fuel memory loaded, cp.run fuel history = some memory ∧
      cp.loadCertFrozenList (some (some listed)) = .ok loaded ∧
      (((∀ raw, raw ∈ memory ↔ raw ∈ loaded) ∧ ∀ (provider : CertACProvider) certChain,
          CertACProvider.checkCertFrozenList { provider with frozenList := memory } certChain =
            CertACProvider.checkCertFrozenList { provider with frozenList := loaded } certChain) ↔
        ∀ raw ∈ certs, ¬ cp.LeftBehind hash raw history) := by
  obtain ⟨bound, finishes⟩ := run_eq_held standard history
  obtain ⟨memory, ids⟩ := mem_certs named
  obtain ⟨loaded, result, holds⟩ := loadFrozenCert_ids stores ids []
  have alike (raw : Bytes) : (raw ∈ cp.held history ↔ raw ∈ loaded) ↔
      (raw ∈ certs → ¬ cp.LeftBehind hash raw history) := by
    by_cases known : raw ∈ certs
    · obtain ⟨agrees, left⟩ := frozenIds_spec stores named known
      rw [left, holds raw]
      by_cases kept : raw ∈ cp.held history <;> simp_all
    · simp [holds, known, mt (memory raw) known]
  refine ⟨_, _, loaded, finishes _ (Nat.lt_succ_self bound), ?_, ?_⟩
  · simpa only [loadCertFrozenList, parsed] using result
  · rw [← forall_congr' alike]
    refine and_iff_left_of_imp fun same provider certChain => ?_
    cases certChain with
    | nil => rfl
    | cons cert rest => simp [CertACProvider.checkCertFrozenList, same]

end Restart

section Toy

/-- Certificates of one byte: the block of a certificate starts with `P`, its hash with `h`. -/
def toy : FrozenCerts where
  pem := {
    decode := fun text =>
      match text with
      | 80 :: raw :: rest => some ([raw], rest)
      | _ => none
    parseCertificate := fun raw => some ⟨raw, [], [ascii "consensus"], [], 0⟩
    shorter := by
      intro text block rest decoded
      split at decoded
      · cases decoded
        exact Nat.lt_succ_of_lt (Nat.lt_succ_self _)
      · cases decoded }
  consensus := .standard .tbft
  readObject := fun key =>
    match key with
    | [104, raw] => some (some [80, raw])
    | _ => some none
  unmarshal := fun text => some (if text = [] then [] else text.splitOn 44)

/-- Two certificates are frozen, then one is unfrozen in full and a third one by its hash. -/
theorem restart_toy :
    let history := [.unfreeze [80, 2] [104, 3], .freeze [80, 1, 80, 2]]
    ∃ fuel memory loaded, toy.run fuel history = some memory ∧
      toy.loadCertFrozenList (some (some [104, 1])) = .ok loaded ∧
      ∀ raw, raw ∈ memory ↔ raw ∈ loaded := by
  intro history
  have stores : toy.Stores {raw | ∃ byte, raw = [byte]} (104 :: ·) (80 :: ·) := by
    refine ⟨?_, ?_, fun _ _ _ _ same => List.tail_eq_of_cons_eq same, ?_⟩
    · rintro _ ⟨byte, rfl⟩
      rfl
    · rintro _ ⟨byte, rfl⟩
      exact ⟨[], rfl⟩
    · rintro _ ⟨byte, rfl⟩ ⟨_, same⟩
      cases same
  have frozen : toy.certificates (.freeze [80, 1, 80, 2]) = [[1], [2]] := by decide
  have unfrozen : toy.certificates (.unfreeze [80, 2] [104, 3]) = [[2]] := by decide
  have byHash : certHashes [104, 3] = [[104, 3]] := by decide
  have named : ∀ event ∈ history, toy.Names {raw | ∃ byte, raw = [byte]} (104 :: ·) event := by
    simp [history, Names, frozen, unfrozen, byHash, hashes]
  have parsed : toy.unmarshal [104, 1] = some (toy.frozenIds (104 :: ·) history) := by decide
  obtain ⟨fuel, memory, loaded, ran, result, alike⟩ := restart_iff stores named (by decide) parsed
  refine ⟨fuel, memory, loaded, ran, result, (alike.mpr fun raw _ lost => ?_).1⟩
  have held : toy.held [.freeze [80, 1, 80, 2]] = [[2], [1]] := by decide
  have both : (raw = [2] ∨ raw = [1]) ∧ raw = [3] := by
    simpa [history, LeftBehind, held, byHash, hashes] using lost.2
  simp [both.2] at both

/-- Under MAXBFT the handler of a freeze event with a consensus certificate never returns. -/
theorem maxbft_freeze_stuck : ¬ ∃ fuel final,
    { toy with consensus := .maxbft }.onMessage fuel (.freeze [80, 1, 44, 80, 2]) [] = some final := by
  rintro ⟨fuel, final, returned⟩
  have stuck : { toy with consensus := .maxbft }.onMessage fuel (.freeze [80, 1, 44, 80, 2]) [] = none :=
    certLoop_deferred (by decide) _ fuel []
  rw [stuck] at returned
  cases returned

/-- A certificate that was unfrozen by its hash stays frozen until the node is restarted. -/
theorem unfrozen_by_hash_stays_frozen :
    let history := [.unfreeze [] [104, 1], .freeze [80, 1]]
    toy.run 5 history = some [[1]] ∧ toy.frozenIds (104 :: ·) history = [] ∧
      toy.loadCertFrozenList (some (some [])) = .ok [] := by
  decide

end Toy

end FrozenCerts

end Pdcc.AccessControl
