import RustPbx.Lib.IpAddr
import RustPbx.Sipflow.JumpHash

/-!
The write path and the read path of the remote sipflow backend.

The dispatcher routes each packet to the channel of one node by the jump hash of the packet's call
id. Queries pick their node by the jump hash of the call id asked for (`selectIndex`). The last
section compares the two paths.
-/

namespace RustPbx.Sipflow

inductive SipFlowMsgType where
  | sip
  | rtp
  deriving DecidableEq

structure SipFlowItem where
  timestamp : UInt64
  seq : UInt64
  leg : Option Int32
  msgType : SipFlowMsgType
  srcAddr : String
  dstAddr : String
  payload : List UInt8

inductive MsgType where
  | sip
  | rtp
  deriving DecidableEq

structure Packet where
  msgType : MsgType
  src : IpAddr × UInt16
  dst : IpAddr × UInt16
  timestamp : UInt64
  callId : Option String
  leg : Option Int32
  payload : List UInt8
  clientId : UInt32
  deriving DecidableEq

def SipFlowMsgType.defaultPort : SipFlowMsgType → UInt16
  | .sip => 5060
  | .rtp => 0

/-- Read `ip:port` or a bare `ip`; what cannot be read falls back to the local host and the
default port. -/
def parseAddr (defaultPort : UInt16) (s : String) : IpAddr × UInt16 :=
  match Str.splitOnce ':' s.toList with
  | some (ip, port) =>
    ((IpAddr.parse ip).getD (.v4 127 0 0 1),
      ((Str.parseUnsigned 65536 port).map UInt16.ofNat).getD defaultPort)
  | none => ((IpAddr.parse s.toList).getD (.v4 127 0 0 1), defaultPort)

def isSynth (s : String) : Bool :=
  s == "" || s == "synth"

def packetAddr (defaultPort : UInt16) (s : String) : IpAddr × UInt16 :=
  if isSynth s then (.v4 0 0 0 0, defaultPort) else parseAddr defaultPort s

def buildPacket (callId : String) (item : SipFlowItem) (clientId : UInt32) : Packet where
  msgType := match item.msgType with
    | .sip => .sip
    | .rtp => .rtp
  src := packetAddr item.msgType.defaultPort item.srcAddr
  dst := packetAddr item.msgType.defaultPort item.dstAddr
  timestamp := item.timestamp
  callId := match item.msgType with
    | .sip => none
    | .rtp => some callId
  leg := match item.msgType with
    | .sip => none
    | .rtp => item.leg
  payload := item.payload
  clientId := clientId

def packetIndex (packet : Packet) (nodeCount : Nat) : Option Nat :=
  jumpConsistentHash floatStep (packet.callId.getD "") nodeCount

def dispatchIndex (callId : String) (item : SipFlowItem) (clientId : UInt32) (nodeCount : Nat) :
    Option Nat :=
  packetIndex (buildPacket callId item clientId) nodeCount

def selectIndex (callId : String) (nodeCount : Nat) : Option Nat :=
  jumpConsistentHash floatStep callId nodeCount

theorem dispatchIndex_rtp (h : item.msgType = .rtp) :
    dispatchIndex callId item clientId n = selectIndex callId n := by
  simp [dispatchIndex, packetIndex, buildPacket, h, selectIndex]

theorem dispatchIndex_sip (h : item.msgType = .sip) :
    dispatchIndex callId item clientId n = selectIndex "" n := by
  simp [dispatchIndex, packetIndex, buildPacket, h, selectIndex]

structure Channel (α : Type) where
  capacity : Nat
  queue : List α
  receiverAlive : Bool
  bounded : queue.length ≤ capacity

def Channel.trySend (c : Channel α) (a : α) : Option (Channel α) :=
  if h : c.queue.length < c.capacity then
    if c.receiverAlive then
      some { c with queue := c.queue ++ [a], bounded := by simpa using h }
    else none
  else none

def Channel.recv (c : Channel α) : Option (α × Channel α) :=
  match h : c.queue with
  | [] => none
  | a :: rest =>
    some (a, { c with queue := rest, bounded := by have := c.bounded; simp [h] at this; omega })

theorem Channel.trySend_queue {c : Channel α} (h : c.trySend a = some c') :
    c'.queue = c.queue ++ [a] := by
  unfold Channel.trySend at h
  split at h
  · split at h
    · cases h
      rfl
    · cases h
  · cases h

theorem Channel.recv_queue {c : Channel α} (h : c.recv = some (a, c')) :
    c.queue = a :: c'.queue := by
  unfold Channel.recv at h
  split at h
  · cases h
  · next hq =>
    cases h
    exact hq

inductive Command where
  | recordItem (callId : String) (item : SipFlowItem)
  | flushBarrier (token : Nat)

inductive NodeCommand where
  | packet (packet : Packet)
  | flushBarrier (token : Nat)

/-- The empty key, which SIP packets are routed by, jumps from 0 to `2 ^ 31` at once. -/
theorem position_empty_key : position floatStep (hashKey "") 1 = 2 ^ 31 := by
  decide +kernel

theorem selectIndex_lt (hn : 1 ≤ n) (hexact : n < 2 ^ 53) :
    ∃ i < n, selectIndex key n = some i :=
  (floatStep_advances hexact).jumpConsistentHash_lt hn (by omega)

theorem landsOn_empty_key_iff (hn : 1 ≤ n) (hle : n ≤ 2 ^ 31) :
    (∀ r, LandsOn floatStep n (hashKey "") r ↔ LandsOn floatStep n (hashKey key) r) ↔
      n ≤ position floatStep (hashKey key) 1 := by
  have hadv : Advances floatStep n := floatStep_advances (by omega)
  have hempty : LandsOn floatStep n (hashKey "") 0 := by
    rw [hadv.landsOn_zero_iff hn, position_empty_key]
    omega
  rw [← hadv.landsOn_zero_iff hn]
  constructor
  · intro h
    exact (h 0).mp hempty
  · intro hkey r
    constructor
    · intro hr
      rwa [hr.unique hn hempty]
    · intro hr
      rwa [hr.unique hn hkey]

/-- **Where recorded items are looked up.** RTP items carry their call id to the dispatcher. SIP
items are routed by the empty key, to node 0 of up to `2 ^ 31` nodes, and are found only if the walk
of the call id leaves the cluster at its first jump; past that size both walks must land on the same
node. -/
theorem dispatchIndex_eq_selectIndex_iff (callId : String) (item : SipFlowItem)
    (clientId : UInt32) {n : Nat} (hn : 1 ≤ n) (hsize : n < 2 ^ 64) :
    (n < 2 ^ 53 → (∃ i < n, dispatchIndex callId item clientId n = some i) ∧
      ∃ i < n, selectIndex callId n = some i) ∧
    (dispatchIndex callId item clientId n = selectIndex callId n ↔ item.msgType = .rtp ∨
      (n ≤ 2 ^ 31 ∧ n ≤ position floatStep (hashKey callId) 1) ∨ (2 ^ 31 < n ∧
        ∀ r, LandsOn floatStep n (hashKey "") r ↔ LandsOn floatStep n (hashKey callId) r)) := by
  cases htype : item.msgType with
  | rtp =>
    rw [dispatchIndex_rtp htype]
    exact ⟨fun hexact => ⟨selectIndex_lt hn hexact, selectIndex_lt hn hexact⟩, by simp⟩
  | sip =>
    rw [dispatchIndex_sip htype]
    refine ⟨fun hexact => ⟨selectIndex_lt hn hexact, selectIndex_lt hn hexact⟩, ?_⟩
    simp only [reduceCtorEq, false_or]
    rcases Nat.eq_or_lt_of_le hn with rfl | hn'
    · -- a single node is chosen without hashing
      have hsame : selectIndex "" 1 = selectIndex callId 1 := by
        simp [selectIndex, jumpConsistentHash]
      have hjump := (floatStep_advances (n := 1) (by norm_num)).le_position (hashKey callId)
        (k := 1) fun m hm => by simp [Nat.lt_one_iff.mp hm]
      exact iff_of_true hsame (.inl ⟨by norm_num, hjump⟩)
    · rw [selectIndex, selectIndex, jumpConsistentHash_eq_iff hn' hsize]
      rcases Nat.lt_or_ge (2 ^ 31) n with hbig | hle
      · simp only [hbig, Nat.not_le.mpr hbig, false_and, false_or, true_and]
      · rw [landsOn_empty_key_iff hn hle]
        simp only [hle, Nat.not_lt.mpr hle, false_and, or_false, true_and]

/-- An RTP item is found in a cluster of two. -/
theorem dispatchIndex_eq_selectIndex_iff_two :
    dispatchIndex "d" ⟨0, 0, some 0, .rtp, "10.0.0.1:5060", "10.0.0.2:5060", []⟩ 7 2
      = selectIndex "d" 2 :=
  (dispatchIndex_eq_selectIndex_iff "d" _ 7 (by decide) (by decide)).2.mpr (.inl rfl)

/-- The SIP message of a call goes to node 0 while the call is looked up on node 1. -/
theorem dispatchIndex_ne_selectIndex :
    dispatchIndex "d" ⟨0, 0, none, .sip, "10.0.0.1:5060", "10.0.0.2:5060", []⟩ 7 2 = some 0 ∧
      selectIndex "d" 2 = some 1 := by
  decide +kernel

end RustPbx.Sipflow
