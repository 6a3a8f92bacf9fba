import RustPbx.Sipflow.Batch

/-!
The flush barrier of the remote sipflow backend.

The dispatcher takes items and barriers out of the ingress channel: it routes an item to the channel
of one node, and forwards a barrier to the channels of all. The sender of a node sends what it has
collected before it acknowledges a barrier. A barrier that a channel refuses is acknowledged by the
dispatcher, in one step. A command is known by its place in the order in which the commands entered.
Every access to a channel or to a countdown is a step of its own.
-/

namespace RustPbx.Sipflow

inductive DispatcherPhase where
  | idle
  | forwards (token next : Nat)
  | ended
  deriving DecidableEq

inductive SenderPhase where
  /-- The socket is not bound yet. -/
  | starting
  | waiting
  /-- The batch is sent, and the barrier not yet acknowledged. -/
  | acknowledges (token : Nat)
  | ended
  deriving DecidableEq

/-- A node with its channel and its sender. `taken` and `sent` are what went through them. -/
structure SenderNode where
  channel : Channel (Nat × NodeCommand)
  taken : List (Nat × NodeCommand) := []
  phase : SenderPhase := .starting
  batch : List Numbered := []
  sent : List Datagram := []

/-- The history is in `passed`, the commands that the dispatcher took; `acks`, how often each
countdown was decremented for each node; `completions`, how often its waiters were notified; and
`refused`, which commands were refused by which node. -/
structure RemoteBackend where
  mtu : Nat
  clientId : UInt32
  nodeCount : Nat
  cancelled : Bool := false
  ingress : Channel Command
  passed : List Command := []
  dispatcher : DispatcherPhase := .idle
  nodes : Nat → SenderNode
  remaining : Nat → Int := fun _ => 0
  acks : Nat → Nat → Nat := fun _ _ => 0
  completions : Nat → Nat := fun _ => 0
  refused : List (Nat × Nat) := []

inductive SenderInput where
  | bind (ok : Bool)
  | receive
  | timeout
  | acknowledge
  | finish

inductive BackendInput where
  | record (callId : String) (item : SipFlowItem)
  | flush
  | cancel
  | receive
  | forward
  | finish
  | sender (i : Nat) (input : SenderInput)

namespace SenderNode

def accepted (node : SenderNode) : List (Nat × NodeCommand) :=
  node.taken ++ node.channel.queue

def sendBatch (mtu : Nat) (node : SenderNode) : SenderNode :=
  { node with batch := [], sent := node.sent ++ flushBatch mtu node.batch }

def push (mtu stamp : Nat) (packet : Packet) (node : SenderNode) : SenderNode :=
  let node := if 0 < mtu ∧ node.batch ≠ [] ∧ wouldExceedMtu node.batch packet mtu
    then node.sendBatch mtu else node
  { node with batch := node.batch ++ [(stamp, packet)] }

def handle (mtu : Nat) (node : SenderNode) : Nat × NodeCommand → SenderNode
  | (stamp, .packet packet) => node.push mtu stamp packet
  | (stamp, .flushBarrier _) => { node.sendBatch mtu with phase := .acknowledges stamp }

def receive (mtu : Nat) (node : SenderNode) : Option SenderNode :=
  match node.channel.recv with
  | some (cmd, channel) => some (handle mtu { node with channel, taken := node.taken ++ [cmd] } cmd)
  | none => none

def drop (node : SenderNode) : SenderNode :=
  { node with phase := .ended, channel := { node.channel with receiverAlive := false } }

end SenderNode

/-! ## The backend -/

namespace RemoteBackend

variable (b : RemoteBackend)

def entered : List Command :=
  b.passed ++ b.ingress.queue

def setNode (i : Nat) (node : SenderNode) (b : RemoteBackend) : RemoteBackend :=
  { b with nodes := Function.update b.nodes i node }

def record (callId : String) (item : SipFlowItem) (b : RemoteBackend) : RemoteBackend :=
  match b.ingress.trySend (.recordItem callId item) with
  | some ingress => { b with ingress }
  | none => b

def flush : RemoteBackend :=
  let token := b.entered.length
  match b.ingress.trySend (.flushBarrier token) with
  | some ingress =>
    { b with ingress, remaining := Function.update b.remaining token b.nodeCount }
  | none => b

def completeOne (token i : Nat) (b : RemoteBackend) : RemoteBackend :=
  { b with
    remaining := Function.update b.remaining token (b.remaining token - 1)
    acks := Function.update b.acks token (Function.update (b.acks token) i (b.acks token i + 1))
    completions := if b.remaining token = 1
      then Function.update b.completions token (b.completions token + 1) else b.completions }

def trySend (i stamp : Nat) (cmd : NodeCommand) (b : RemoteBackend) : Bool × RemoteBackend :=
  match (b.nodes i).channel.trySend (stamp, cmd) with
  | some channel => (true, b.setNode i { b.nodes i with channel })
  | none => (false, { b with refused := (stamp, i) :: b.refused })

def endDispatcher : RemoteBackend :=
  { b with dispatcher := .ended, ingress := { b.ingress with receiverAlive := false } }

def indexOf (callId : String) (item : SipFlowItem) : Option Nat :=
  (packetIndex (buildPacket callId item b.clientId) b.nodeCount).filter (· < b.nodeCount)

/-- An item that has no node makes the dispatcher panic. -/
def dispatch (stamp : Nat) (b : RemoteBackend) : Command → RemoteBackend
  | .recordItem callId item =>
    match b.indexOf callId item with
    | some i => (b.trySend i stamp (.packet (buildPacket callId item b.clientId))).2
    | none => b.endDispatcher
  | .flushBarrier _ => { b with dispatcher := .forwards stamp 0 }

def pass (cmd : Command) (ingress : Channel Command) (b : RemoteBackend) : RemoteBackend :=
  { b with ingress, passed := b.passed ++ [cmd] }

def receive : Option RemoteBackend :=
  match b.dispatcher, b.ingress.recv with
  | .idle, some (cmd, ingress) => some (dispatch b.passed.length (b.pass cmd ingress) cmd)
  | _, _ => none

def forwardTo (token i : Nat) (b : RemoteBackend) : RemoteBackend :=
  match b.trySend i token (.flushBarrier token) with
  | (true, b) => b
  | (false, b) => b.completeOne token i

def forward : Option RemoteBackend :=
  match b.dispatcher with
  | .forwards token next =>
    if next < b.nodeCount then
      some { b.forwardTo token next with dispatcher := .forwards token (next + 1) }
    else some { b with dispatcher := .idle }
  | _ => none

def finish : Option RemoteBackend :=
  if b.dispatcher = .idle ∧ b.cancelled then some b.endDispatcher else none

def senderStep (i : Nat) (b : RemoteBackend) (input : SenderInput) : Option RemoteBackend :=
  let node := b.nodes i
  match node.phase, input with
  | .starting, .bind true => some (b.setNode i { node with phase := .waiting })
  | .starting, .bind false => some (b.setNode i node.drop)
  | .waiting, .receive => (node.receive b.mtu).map (b.setNode i ·)
  | .waiting, .timeout =>
    if node.channel.queue = [] then some (b.setNode i (node.sendBatch b.mtu)) else none
  | .acknowledges token, .acknowledge =>
    some ((b.setNode i { node with phase := .waiting }).completeOne token i)
  | .waiting, .finish =>
    if b.cancelled ∨ b.dispatcher = .ended ∧ node.channel.queue = [] then
      some (b.setNode i (node.sendBatch b.mtu).drop)
    else none
  | _, _ => none

def step : BackendInput → Option RemoteBackend
  | .record callId item => some (b.record callId item)
  | .flush => some b.flush
  | .cancel => some { b with cancelled := true }
  | .receive => b.receive
  | .forward => b.forward
  | .finish => b.finish
  | .sender i input => if i < b.nodeCount then b.senderStep i input else none

def Runs (C : RemoteBackend → BackendInput → Prop) : RemoteBackend → RemoteBackend → Prop :=
  Relation.ReflTransGen fun b b' => ∃ input, C b input ∧ b.step input = some b'

end RemoteBackend

end RustPbx.Sipflow
