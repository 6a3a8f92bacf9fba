import RustPbx.Call.SessionRegistry

/-!
Operations on a session that another node of the cluster hosts.

The operation is sent to the node that the registry has for the session. If no answer comes back, or
a 404, it is sent to every peer once, the owner among them. A request whose answer is lost has been
applied all the same, and is applied again in the second round (`applied_twice`).
-/

namespace RustPbx.Proxy

open Call List

structure ClusterPeer where
  addr : String
  sipPort : UInt16
  amiPort : UInt16
  deriving DecidableEq

def peerAmiBase (peer : ClusterPeer) (amiPath : String) : String :=
  s!"http://{peer.addr}:{peer.amiPort}{amiPath}"

def peerForNodeId (peers : List ClusterPeer) (nodeId : String) : Option ClusterPeer :=
  peers.find? fun p => nodeId == s!"{p.addr}:{p.sipPort}" || nodeId == p.addr

inductive OwnerLocation where
  | unknown
  | unavailable (error : String)
  | found (nodeId : String)

def locateOwner (registry : SessionRegistry) (callId : String) : OwnerLocation :=
  match registry.lookupOwnerChecked callId with
  | .ok (some node) => .found node
  | .ok none => .unknown
  | .error e => .unavailable e

inductive OwnerOpOutcome (β : Type) where
  | applyLocally
  | applied (status : Nat) (body : β)
  | unknownCall
  | registryUnavailable (error : String)
  | ownerUnreachable

inductive HttpMethod where
  | get
  | post
  | other (name : String)
  deriving DecidableEq

structure OwnerRoutedOp (β : Type) where
  relativePath : String → String
  method : HttpMethod := .post
  body : String → β

structure HttpRequest (β : Type) where
  url : String
  method : HttpMethod
  body : Option β

/-- The nodes that the entries of the peer list lead to, and the one that hosts the session. -/
structure Cluster (ν : Type) where
  nodeOf : ClusterPeer → ν
  host : Option ν

/-- The fate of a request: whether it arrives, and the reply if it comes back in time. -/
inductive Delivery (β : Type) where
  | lost
  | received (reply : Option (Nat × Option β))

def Delivery.arrives : Delivery β → Bool
  | .lost => false
  | .received _ => true

def Delivery.response : Delivery β → Option (Nat × β)
  | .received (some (status, some body)) => some (status, body)
  | _ => none

/-- The fates of the requests to the owner, and to the peers in the order of their list. -/
structure PeerNetwork (β : Type) where
  targeted : Delivery β
  fanOut : Nat → Delivery β

structure Sent (β : Type) where
  peer : ClusterPeer
  request : HttpRequest β
  delivery : Delivery β

def notFound : Nat := 404

def requestTo (peer : ClusterPeer) (amiPath sessionId : String) (op : OwnerRoutedOp β) :
    HttpRequest β where
  url := s!"{peerAmiBase peer amiPath}/{op.relativePath sessionId}"
  method := op.method
  body := if op.method = .get then none else some (op.body sessionId)

def Delivery.found (d : Delivery β) : Option (Nat × β) :=
  d.response.filter fun answer => answer.1 != notFound

def fanOutToPeers (net : PeerNetwork β) (peers : List ClusterPeer) (amiPath sessionId : String)
    (op : OwnerRoutedOp β) : Option (Nat × β) × List (Sent β) :=
  let sent := peers.zipIdx.map fun (peer, i) =>
    ⟨peer, requestTo peer amiPath sessionId op, net.fanOut i⟩
  (sent.findSome? (·.delivery.found), sent)

def fallBack (net : PeerNetwork β) (peers : List ClusterPeer) (amiPath sessionId : String)
    (op : OwnerRoutedOp β) (missing : OwnerOpOutcome β) (before : List (Sent β)) :
    OwnerOpOutcome β × List (Sent β) :=
  match fanOutToPeers net peers amiPath sessionId op with
  | (some (status, body), sent) => (.applied status body, before ++ sent)
  | (none, sent) => (missing, before ++ sent)

def routedOpOnOwner (registry : SessionRegistry) (net : PeerNetwork β) (peers : List ClusterPeer)
    (selfNodeId : Option String) (amiPath sessionId : String) (op : OwnerRoutedOp β) :
    OwnerOpOutcome β × List (Sent β) :=
  if peers.isEmpty then (.unknownCall, [])
  else
    let forwardId := ((resolveOwnerAndSession registry sessionId).map (·.2)).getD sessionId
    let fallBack := fallBack net peers amiPath forwardId op
    match locateOwner registry sessionId with
    | .unknown => fallBack .unknownCall []
    | .unavailable e => (.registryUnavailable e, [])
    | .found owner =>
      if selfNodeId = some owner then (.applyLocally, [])
      else
        match peerForNodeId peers owner with
        | none => fallBack .ownerUnreachable []
        | some peer =>
          let targeted := ⟨peer, requestTo peer amiPath forwardId op, net.targeted⟩
          match net.targeted.found with
          | some (status, body) => (.applied status body, [targeted])
          | none => fallBack .ownerUnreachable [targeted]

/-! ## How often the operation is applied -/

section

variable [DecidableEq ν] (cluster : Cluster ν) (net : PeerNetwork β)

/-- How often the node that hosts the session receives one of the requests. -/
def applications (sent : List (Sent β)) : Nat :=
  sent.countP fun r => cluster.host = some (cluster.nodeOf r.peer) && r.delivery.arrives

/-- An entry of the peer list leads to the host, and the request to it in the second round arrives.
-/
def Reaches (entry : ClusterPeer × Nat) : Prop :=
  cluster.host = some (cluster.nodeOf entry.1) ∧ (net.fanOut entry.2).arrives = true

variable (peers : List ClusterPeer) (selfNodeId : Option String)

/-- There is a second round: no owner is known, or it is no peer, or it has not answered, or not
found the session. -/
def FansOut : OwnerLocation → Prop
  | .unknown => True
  | .unavailable _ => False
  | .found owner => selfNodeId ≠ some owner ∧
    (peerForNodeId peers owner = none ∨ net.targeted.found = none)

/-- The entry of the owner leads to the host, and the request to it arrives. -/
def OwnerApplies : OwnerLocation → Prop
  | .found owner => ∃ peer, peerForNodeId peers owner = some peer ∧
    cluster.host = some (cluster.nodeOf peer) ∧ net.targeted.arrives = true
  | _ => False

variable {cluster net peers}

private theorem countP_le_one_iff {p : α → Bool} {l : List α} :
    l.countP p ≤ 1 ↔ l.Pairwise fun a b => ¬ (p a = true ∧ p b = true) := by
  induction l with
  | nil => simp
  | cons a l ih =>
    rw [countP_cons, pairwise_cons, ← ih]
    cases ha : p a with
    | false => simp
    | true =>
      have hnone : (∀ b ∈ l, ¬ p b = true) ↔ l.countP p = 0 := countP_eq_zero.symm
      simp only [true_and, hnone, if_true]
      omega

theorem applications_fallBack_le_one_iff {applied : Prop}
    (hbefore : applications cluster before ≤ 1)
    (happlied : applications cluster before ≠ 0 ↔ applied) :
    applications cluster (fallBack net peers amiPath sessionId op missing before).2 ≤ 1 ↔
      (peers.zipIdx.Pairwise fun a b => ¬ (Reaches cluster net a ∧ Reaches cluster net b)) ∧
        (applied → ∀ entry ∈ peers.zipIdx, ¬ Reaches cluster net entry) := by
  have hsent : (fallBack net peers amiPath sessionId op missing before).2 =
      before ++ (fanOutToPeers net peers amiPath sessionId op).2 := by
    rw [fallBack]
    split <;> simp [*]
  let reaches := fun entry : ClusterPeer × Nat =>
    cluster.host = some (cluster.nodeOf entry.1) && (net.fanOut entry.2).arrives
  have hround : applications cluster (fanOutToPeers net peers amiPath sessionId op).2 =
      peers.zipIdx.countP reaches := countP_map
  have hiff (entry : ClusterPeer × Nat) : reaches entry = true ↔ Reaches cluster net entry := by
    simp [reaches, Reaches]
  simp only [← hiff, ← countP_le_one_iff, ← countP_eq_zero, ← happlied]
  rw [hsent, applications, countP_append, ← applications, ← applications, hround]
  omega

end

/-- **At most once**, if and only if in a second round no two entries lead to the host with requests
that arrive, and none does if the owner has applied the operation already. -/
theorem applications_le_one_iff [DecidableEq ν] (cluster : Cluster ν) (registry : SessionRegistry)
    (net : PeerNetwork β) (peers : List ClusterPeer) (selfNodeId : Option String)
    (amiPath sessionId : String) (op : OwnerRoutedOp β) :
    applications cluster
        (routedOpOnOwner registry net peers selfNodeId amiPath sessionId op).2 ≤ 1 ↔
      (FansOut net peers selfNodeId (locateOwner registry sessionId) →
        (peers.zipIdx.Pairwise fun a b => ¬ (Reaches cluster net a ∧ Reaches cluster net b)) ∧
          (OwnerApplies cluster net peers (locateOwner registry sessionId) →
            ∀ entry ∈ peers.zipIdx, ¬ Reaches cluster net entry)) := by
  rw [routedOpOnOwner]
  split
  next hempty =>
    obtain rfl : peers = [] := isEmpty_iff.mp hempty
    exact iff_of_true (Nat.zero_le _) fun _ => ⟨.nil, fun _ _ hentry => nomatch hentry⟩
  · cases locateOwner registry sessionId with
    | unknown =>
      rw [FansOut, true_imp_iff]
      exact applications_fallBack_le_one_iff (Nat.zero_le _) (iff_of_false (absurd rfl) id)
    | unavailable e => exact iff_of_true (Nat.zero_le _) False.elim
    | found owner =>
      simp only [FansOut, OwnerApplies]
      split
      next hself => exact iff_of_true (Nat.zero_le _) fun h => absurd hself h.1
      next hother =>
        cases peerForNodeId peers owner with
        | none =>
          rw [imp_iff_right ⟨hother, .inl rfl⟩]
          refine applications_fallBack_le_one_iff (Nat.zero_le _) (iff_of_false (absurd rfl) ?_)
          exact fun ⟨_, hpeer, _⟩ => nomatch hpeer
        | some peer =>
          cases hfound : net.targeted.found with
          | some answer =>
            refine iff_of_true countP_le_length fun h => ?_
            exact h.2.elim nofun nofun
          | none =>
            rw [imp_iff_right ⟨hother, .inr rfl⟩]
            refine applications_fallBack_le_one_iff countP_le_length ?_
            simp [applications, countP_singleton]

/-- **An operation applied twice.** The answer of the owner is lost; in the second round it receives
the operation again. -/
theorem applied_twice : let owner : ClusterPeer := ⟨"10.0.0.2", 5060, 8080⟩
    let registry : SessionRegistry := ⟨fun _ => none, fun _ => .ok (some "10.0.0.2:5060")⟩
    let net : PeerNetwork Unit := ⟨.received none, fun _ => .received (some (200, some ()))⟩
    applications ⟨id, some owner⟩ (routedOpOnOwner registry net [owner] (some "10.0.0.1:5060")
      "/ami" "session" ⟨fun _ => "cluster/session_op", .post, fun _ => ()⟩).2 = 2 := by
  decide

end RustPbx.Proxy
