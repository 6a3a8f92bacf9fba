import RustPbx.Lib.Machine
import RustPbx.Sipflow.Delivery

/-!
When a flush barrier completes.

A thread that ends takes along the barriers that are still in its channel, and nobody counts them
down. As long as that does not happen, every barrier can complete, and has completed once there is
no work left to do on it.
-/

namespace RustPbx.Sipflow

open Channel SenderNode Finset DispatcherPhase

theorem Channel.trySend_alive {c : Channel α} (h : c.trySend a = some c') :
    c.receiverAlive = true ∧ c'.receiverAlive = true := by
  unfold trySend at h
  split at h
  · split at h
    · next halive =>
      cases h
      exact ⟨halive, halive⟩
    · cases h
  · cases h

theorem Channel.exists_recv {c : Channel α} (h : c.queue ≠ []) : ∃ a c', c.recv = some (a, c') := by
  unfold recv
  split
  · next hnil => exact absurd hnil h
  · exact ⟨_, _, rfl⟩

/-! ## No barrier is lost -/

def Command.isBarrier : Command → Bool
  | .flushBarrier _ => true
  | .recordItem _ _ => false

namespace SenderNode

def NoBarrier (node : SenderNode) : Prop :=
  ∀ token, node.channel.queue.countP (isBarrier token) = 0

/-- A sender that has ended has no barrier in its channel, and gets none. -/
def Lossless (node : SenderNode) : Prop :=
  node.phase = .ended → node.channel.receiverAlive = false ∧ node.NoBarrier

end SenderNode

namespace RemoteBackend

variable {b : RemoteBackend}

def NoBarrier (b : RemoteBackend) : Prop :=
  ∀ cmd ∈ b.ingress.queue, cmd.isBarrier = false

/-- Every recorded item has a node, and no thread ends with a barrier in its channel. -/
def Orderly (b : RemoteBackend) : BackendInput → Prop
  | .record callId item => (b.indexOf callId item).isSome
  | .finish => b.NoBarrier
  | .sender i (.bind false) | .sender i .finish => (b.nodes i).NoBarrier
  | _ => True

/-- A thread that has ended has no barrier in its channel, and gets none. -/
structure Lossless (b : RemoteBackend) : Prop where
  dispatcher : b.dispatcher = .ended → b.ingress.receiverAlive = false ∧ b.NoBarrier
  nodes : ∀ i, (b.nodes i).Lossless

theorem indexOf_isSome (hpos : 1 ≤ b.nodeCount) (hlt : b.nodeCount < 2 ^ 53) :
    (b.indexOf callId item).isSome := by
  obtain ⟨i, hi, hindex⟩ := selectIndex_lt hpos hlt
  have hpacket : packetIndex (buildPacket callId item b.clientId) b.nodeCount = some i := hindex
  simp [indexOf, hpacket, hi]

theorem trySend_phase : ((b.trySend i stamp cmd).2.nodes j).phase = (b.nodes j).phase := by
  unfold trySend
  split
  · rcases eq_or_ne j i with rfl | hj
    · simp [setNode]
    · simp [setNode, hj]
  · rfl

theorem trySend_of_dead (hdead : (b.nodes j).channel.receiverAlive = false) :
    (b.trySend i stamp cmd).2.nodes j = b.nodes j := by
  unfold trySend
  split
  · next channel hsend =>
    have hj : j ≠ i := by
      rintro rfl
      rw [(trySend_alive hsend).1] at hdead
      cases hdead
    simp [setNode, hj]
  · rfl

theorem trySend_lossless (h : ∀ j, (b.nodes j).Lossless) (i stamp : Nat) (cmd : NodeCommand)
    (j : Nat) : ((b.trySend i stamp cmd).2.nodes j).Lossless := by
  intro hended
  rw [trySend_phase] at hended
  rw [trySend_of_dead (h j hended).1]
  exact h j hended

theorem Lossless.setNode (h : b.Lossless) (hnode : node.Lossless) :
    (b.setNode i node).Lossless := by
  refine ⟨h.dispatcher, fun j => ?_⟩
  rcases eq_or_ne j i with rfl | hj
  · simpa [RemoteBackend.setNode] using hnode
  · simpa [RemoteBackend.setNode, hj] using h.nodes j

theorem Lossless.enter {ingress : Channel Command} {remaining : Nat → Int}
    (h : b.Lossless) (hsend : b.ingress.trySend cmd = some ingress) :
    Lossless { b with ingress, remaining } := by
  refine ⟨fun hended => ?_, h.nodes⟩
  have hdead := (h.dispatcher hended).1
  rw [(trySend_alive hsend).1] at hdead
  cases hdead

theorem Lossless.pass {ingress : Channel Command} (h : b.Lossless) (hrouted : b.Routed)
    (hidle : b.dispatcher = .idle) (hqueue : b.ingress.queue = cmd :: ingress.queue) :
    (dispatch b.passed.length (b.pass cmd ingress) cmd).Lossless := by
  cases cmd with
  | flushBarrier t => exact ⟨nofun, h.nodes⟩
  | recordItem callId item =>
    obtain ⟨i, hi⟩ := Option.isSome_iff_exists.mp (hrouted.waiting callId item (hqueue ▸ .head _))
    have hi' : (b.pass (.recordItem callId item) ingress).indexOf callId item = some i := hi
    have hnodes (j : Nat) : ((b.pass (.recordItem callId item) ingress).nodes j).Lossless :=
      h.nodes j
    simp only [dispatch, hi']
    refine ⟨fun hended => ?_, trySend_lossless hnodes _ _ _⟩
    rw [dispatcher_trySend] at hended
    cases hidle.symm.trans hended

theorem Lossless.move (h : b.Lossless) (hC : b.Orderly (.sender i input))
    (hmove : (b.nodes i).Move b.mtu input node) :
    (b.setNode i node).Lossless := by
  refine h.setNode fun hended => ?_
  cases hmove with
  | bind => cases hended
  | bindFails | finish => exact ⟨rfl, hC⟩
  | timeout hphase => cases hphase.symm.trans hended
  | receive hphase hreceive =>
    obtain ⟨⟨stamp, cmd⟩, channel, -, rfl⟩ := receive_eq hreceive
    cases cmd with
    | packet packet =>
      rw [handle_packet_phase, hphase] at hended
      cases hended
    | flushBarrier t => cases hended

theorem Lossless.step (h : b.Lossless) (hrouted : b.Routed) (hC : b.Orderly input)
    (heffect : b.Effect input b') : b'.Lossless := by
  cases heffect with
  | refused => exact h
  | enters hsend => exact h.enter hsend
  | cancels => exact ⟨h.dispatcher, h.nodes⟩
  | passes hidle hqueue => exact h.pass hrouted hidle hqueue
  | forwards =>
    refine ⟨nofun, fun j => ?_⟩
    rw [nodes_forwardTo]
    exact trySend_lossless h.nodes _ _ _ j
  | forwarded => exact ⟨nofun, h.nodes⟩
  | finishes => exact ⟨fun _ => ⟨rfl, hC⟩, h.nodes⟩
  | moves _ hmove => exact h.move hC hmove
  | @acknowledges i =>
    have hset : (b.setNode i { b.nodes i with phase := .waiting }).Lossless := h.setNode nofun
    exact ⟨hset.dispatcher, hset.nodes⟩

/-- What holds in all runs. -/
structure Counted (b : RemoteBackend) : Prop where
  pos : 0 < b.nodeCount
  accounts : b.Accounts
  tally : b.Tally

/-- What holds in the runs that lose no barrier. -/
structure Inv (b : RemoteBackend) : Prop extends Counted b where
  ordered : b.Ordered
  cleared : b.Cleared
  routed : b.Routed
  lossless : b.Lossless

theorem Routed.step (h : b.Routed) (hordered : b.Ordered) (hC : b.Orderly input)
    (heffect : b.Effect input b') : b'.Routed := by
  have hkeeps := hordered.keeps heffect
  cases heffect with
  | refused => exact h
  | enters hsend hitem =>
    refine h.of_keeps hkeeps rfl fun callId item hmem => ?_
    rw [trySend_queue hsend] at hmem
    rcases List.mem_append.mp hmem with hmem | hmem
    · exact .inl hmem
    · cases hitem callId item (List.mem_singleton.mp hmem).symm
      exact .inr hC
  | passes _ hqueue => exact h.pass hqueue
  | @forwards t next =>
    obtain ⟨hpassed, hingress, -⟩ := forwardTo_same t next b
    refine h.of_keeps hkeeps hpassed fun callId item hmem => .inl ?_
    rwa [← hingress]
  | cancels | forwarded | finishes | moves | acknowledges =>
    exact h.of_keeps hkeeps rfl fun _ _ => .inl

theorem Effect.entered (heffect : b.Effect input b') :
    (b'.entered = b.entered ∨ ∃ cmd, b'.entered = b.entered ++ [cmd]) ∧
      b'.nodeCount = b.nodeCount := by
  cases heffect with
  | enters hsend => exact ⟨.inr ⟨_, entered_append rfl (trySend_queue hsend)⟩, rfl⟩
  | @passes cmd ingress _ hqueue =>
    have hrelays := dispatch_relays b.passed.length cmd (b.pass cmd ingress)
    exact ⟨.inl (hrelays.entered.trans (entered_pass hqueue)), hrelays.nodeCount⟩
  | @forwards t next =>
    obtain ⟨hpassed, hingress, hcount⟩ := forwardTo_same t next b
    exact ⟨.inl (by simp only [RemoteBackend.entered, hpassed, hingress]), hcount⟩
  | refused | cancels | forwarded | finishes | moves | acknowledges => exact ⟨.inl rfl, rfl⟩

theorem Barrier.step (h : b.Barrier token) (heffect : b.Effect input b') : b'.Barrier token := by
  have hlt := (List.getElem?_eq_some_iff.mp h).1
  obtain ⟨hentered | ⟨cmd, hentered⟩, -⟩ := heffect.entered
  · rwa [Barrier, hentered]
  · rwa [Barrier, hentered, List.getElem?_append_left hlt]

theorem Counted.step (h : b.Counted) (heffect : b.Effect input b') : b'.Counted where
  pos := heffect.entered.2 ▸ h.pos
  accounts := h.accounts.step heffect
  tally := h.tally.step h.accounts h.pos heffect

theorem Inv.step (h : b.Inv) (hC : b.Orderly input) (heffect : b.Effect input b') : b'.Inv where
  toCounted := h.toCounted.step heffect
  ordered := h.ordered.step heffect
  cleared := h.cleared.step h.accounts h.ordered heffect
  routed := h.routed.step h.ordered hC heffect
  lossless := h.lossless.step h.routed hC heffect

end RemoteBackend

/-! ## The work that is left -/

def SenderPhase.work : SenderPhase → Nat
  | .starting | .acknowledges _ => 1
  | .waiting | .ended => 0

def SenderNode.work (node : SenderNode) : Nat :=
  2 * node.channel.queue.length + node.phase.work

theorem SenderNode.exists_receive {node : SenderNode} (mtu : Nat) (h : node.channel.queue ≠ []) :
    ∃ node', node.receive mtu = some node' := by
  obtain ⟨cmd, channel, hrecv⟩ := exists_recv h
  exact ⟨_, by simp only [receive, hrecv]; rfl⟩

theorem SenderNode.work_receive {node : SenderNode} (h : node.receive mtu = some node') :
    node'.work < node.work := by
  obtain ⟨⟨stamp, cmd⟩, channel, hqueue, rfl⟩ := receive_eq h
  simp only [work, handle_channel, hqueue, List.length_cons]
  cases cmd with
  | packet packet =>
    rw [handle_packet_phase]
    simp only
    omega
  | flushBarrier t =>
    simp only [handle, SenderPhase.work]
    omega

def DispatcherPhase.work (nodeCount : Nat) : DispatcherPhase → Nat
  | .forwards _ next => 3 * (nodeCount - next) + 1
  | _ => 0

def nodesWork (nodeCount : Nat) (nodes : Nat → SenderNode) : Nat :=
  ∑ i ∈ Finset.range nodeCount, (nodes i).work

theorem nodesWork_update (hi : i < nodeCount) (nodes : Nat → SenderNode) (node : SenderNode) :
    nodesWork nodeCount (Function.update nodes i node) + (nodes i).work =
      nodesWork nodeCount nodes + node.work := by
  have hmem := mem_range.mpr hi
  have hupdate (j : Nat) : (Function.update nodes i node j).work =
      Function.update (fun j => (nodes j).work) i node.work j :=
    Function.apply_update (fun _ => SenderNode.work) nodes i node j
  simp only [nodesWork, hupdate]
  rw [sum_update_of_mem hmem, sdiff_singleton_eq_erase,
    ← add_sum_erase _ _ hmem]
  omega

namespace RemoteBackend

variable {b b' : RemoteBackend}

/-- A bound on the steps that the dispatcher and the senders can take by themselves. -/
def work (b : RemoteBackend) : Nat :=
  (3 * b.nodeCount + 4) * b.ingress.queue.length + b.dispatcher.work b.nodeCount +
    nodesWork b.nodeCount b.nodes

variable {i : Nat}

theorem nodesWork_trySend (hi : i < b.nodeCount) (stamp : Nat) (cmd : NodeCommand) :
    nodesWork b.nodeCount (b.trySend i stamp cmd).2.nodes ≤ nodesWork b.nodeCount b.nodes + 2 := by
  obtain ⟨channel, hqueue, hsend⟩ | hsend := trySend_cases i stamp cmd b
  · rw [hsend]
    have hwork := nodesWork_update hi b.nodes { b.nodes i with channel }
    simp only [SenderNode.work, hqueue, List.length_append, List.length_singleton] at hwork
    simp only [setNode]
    omega
  · rw [hsend]
    exact Nat.le_add_right _ _

theorem forward_progress (h : b.dispatcher = .forwards t next) :
    ∃ b', b.step .forward = some b' ∧ b'.work < b.work := by
  simp only [step, forward, h]
  split_ifs with hnext
  · obtain ⟨-, hingress, hcount⟩ := forwardTo_same t next b
    have hnodes := nodesWork_trySend hnext t (.flushBarrier t)
    refine ⟨_, rfl, ?_⟩
    simp only [work, hingress, hcount, h, DispatcherPhase.work, nodes_forwardTo]
    omega
  · refine ⟨_, rfl, ?_⟩
    simp only [work, h, DispatcherPhase.work]
    omega

theorem receive_progress (hrouted : b.Routed) (hidle : b.dispatcher = .idle)
    (hqueue : b.ingress.queue ≠ []) : ∃ b', b.step .receive = some b' ∧ b'.work < b.work := by
  obtain ⟨cmd, ingress, hrecv⟩ := exists_recv hqueue
  have hqueue' := recv_queue hrecv
  have hstep : b.step .receive = some (dispatch b.passed.length (b.pass cmd ingress) cmd) := by
    simp only [step, receive, hidle, hrecv]
  refine ⟨_, hstep, ?_⟩
  have hrelays := dispatch_relays b.passed.length cmd (b.pass cmd ingress)
  simp only [work, hrelays.queue, hrelays.nodeCount, hqueue', List.length_cons, mul_add]
  cases cmd with
  | flushBarrier t =>
    simp only [dispatch, pass, DispatcherPhase.work]
    omega
  | recordItem callId item =>
    obtain ⟨i, hi⟩ := Option.isSome_iff_exists.mp (hrouted.waiting callId item (hqueue' ▸ .head _))
    have hi' : (b.pass (.recordItem callId item) ingress).indexOf callId item = some i := hi
    have hlt : i < b.nodeCount := by
      simpa using (Option.filter_eq_some_iff.mp hi).2
    simp only [dispatch, hi', dispatcher_trySend]
    have hnodes := nodesWork_trySend (b := b.pass (.recordItem callId item) ingress) hlt
      b.passed.length (.packet (buildPacket callId item b.clientId))
    simp only [pass] at hnodes ⊢
    omega

theorem setNode_progress (hi : i < b.nodeCount)
    (hwork : node.work < (b.nodes i).work) : (b.setNode i node).work < b.work := by
  have hnodes := nodesWork_update hi b.nodes node
  simp only [work, setNode]
  omega

theorem sender_progress (h : b.Lossless) (hi : i < b.nodeCount)
    (howes : 0 < (b.nodes i).owes token) :
    ∃ input b', b.Orderly (.sender i input) ∧ b.step (.sender i input) = some b' ∧
      b'.work < b.work := by
  simp only [step, hi, if_true]
  cases hphase : (b.nodes i).phase with
  | starting =>
    refine ⟨.bind true, b.setNode i { b.nodes i with phase := .waiting }, trivial,
      by simp only [senderStep, hphase], setNode_progress hi ?_⟩
    simp [SenderNode.work, SenderPhase.work, hphase]
  | waiting =>
    have hqueue : (b.nodes i).channel.queue ≠ [] := by
      intro hnil
      simp [SenderNode.owes, hnil, hphase] at howes
    obtain ⟨node, hreceive⟩ := exists_receive b.mtu hqueue
    exact ⟨.receive, b.setNode i node, trivial,
      by simp only [senderStep, hphase, hreceive, Option.map_some],
      setNode_progress hi (work_receive hreceive)⟩
  | acknowledges t =>
    have hset : (b.setNode i { b.nodes i with phase := .waiting }).work < b.work :=
      setNode_progress hi (by simp [SenderNode.work, SenderPhase.work, hphase])
    exact ⟨.acknowledge, (b.setNode i { b.nodes i with phase := .waiting }).completeOne t i,
      trivial, by simp only [senderStep, hphase], hset⟩
  | ended =>
    have hnone := (h.nodes i hphase).2 token
    simp [SenderNode.owes, hphase, hnone] at howes

theorem Inv.progress (h : b.Inv) (hbarrier : b.Barrier token) (hi : i < b.nodeCount)
    (howed : 0 < b.owed token i) :
    ∃ input b', b.Orderly input ∧ b.step input = some b' ∧ b'.work < b.work := by
  have hnode (hpassed : token < b.passed.length) (howes : b.dispatcher.owes token i = 0) :
      0 < (b.nodes i).owes token := by
    simp only [owed, ahead, not_le.mpr hpassed, if_false] at howed
    omega
  have hentered : token < b.passed.length + b.ingress.queue.length := by
    simpa [entered] using (List.getElem?_eq_some_iff.mp hbarrier).1
  cases hdispatcher : b.dispatcher with
  | forwards t next =>
    obtain ⟨b', hstep, hwork⟩ := forward_progress hdispatcher
    exact ⟨.forward, b', trivial, hstep, hwork⟩
  | idle =>
    rcases eq_or_ne b.ingress.queue [] with hnil | hqueue
    · obtain ⟨input, b', hprogress⟩ := sender_progress h.lossless hi
        (hnode (by simpa [hnil] using hentered) (by rw [hdispatcher]; rfl))
      exact ⟨_, b', hprogress⟩
    · obtain ⟨b', hstep, hwork⟩ := receive_progress h.routed hdispatcher hqueue
      exact ⟨.receive, b', trivial, hstep, hwork⟩
  | ended =>
    have hpassed : token < b.passed.length := by
      by_contra! hle
      rw [Barrier, entered, List.getElem?_append_right hle] at hbarrier
      have hnone := (h.lossless.dispatcher hdispatcher).2 _ (List.mem_of_getElem? hbarrier)
      cases hnone
    obtain ⟨input, b', hprogress⟩ := sender_progress h.lossless hi
      (hnode hpassed (by rw [hdispatcher]; rfl))
    exact ⟨_, b', hprogress⟩

theorem Counted.completions_eq_one_iff (h : b.Counted) (hbarrier : b.Barrier token) :
    b.completions token = 1 ↔ ∀ i < b.nodeCount, b.acks token i = 1 := by
  have hle (i) (hi : i ∈ range b.nodeCount) : b.acks token i ≤ 1 := by
    have := h.accounts token (.inr hbarrier) i (mem_range.mp hi)
    omega
  rw [h.tally.completions token hbarrier]
  constructor
  · intro hone i hi
    have htotal : b.nodeCount ≤ b.total token := by
      by_contra hlt
      simp [hlt] at hone
    by_contra hne
    have hmem := mem_range.mpr hi
    have hlt : b.total token < ∑ _i ∈ range b.nodeCount, 1 :=
      sum_lt_sum hle ⟨i, hmem, lt_of_le_of_ne (hle i hmem) hne⟩
    simp at hlt
    omega
  · intro hall
    have htotal : b.total token = b.nodeCount := by
      rw [total, sum_congr rfl fun i hi => hall i (mem_range.mp hi)]
      simp
    simp [htotal]

theorem Inv.runs (h : b.Inv) (hruns : Runs Orderly b b') : b'.Inv := by
  induction hruns with
  | refl => exact h
  | tail _ hstep ih =>
    obtain ⟨input, hC, hstep⟩ := hstep
    exact ih.step hC (effect_of_step hstep)

theorem Inv.exists_completion (h : b.Inv) (hbarrier : b.Barrier token) :
    ∃ b', Runs Orderly b b' ∧ b'.completions token = 1 := by
  -- Each step that is still owed to some node lowers the work.
  induction hwork : b.work using Nat.strong_induction_on generalizing b with
  | _ work ih =>
    by_cases howed : ∃ i < b.nodeCount, 0 < b.owed token i
    · obtain ⟨i, hi, howed⟩ := howed
      obtain ⟨input, b₁, hC, hstep, hlt⟩ := h.progress hbarrier hi howed
      have heffect := effect_of_step hstep
      obtain ⟨b', hruns, hdone⟩ :=
        ih b₁.work (hwork ▸ hlt) (h.step hC heffect) (hbarrier.step heffect) rfl
      exact ⟨b', .head ⟨input, hC, hstep⟩ hruns, hdone⟩
    · refine ⟨b, .refl, (h.completions_eq_one_iff hbarrier).mpr fun i hi => ?_⟩
      have hzero : ¬ 0 < b.owed token i := fun hpos => howed ⟨i, hi, hpos⟩
      have := h.accounts token (.inr hbarrier) i hi
      omega

/-- What was enqueued before a barrier that has completed was sent, or a channel was full or
closed. -/
theorem Inv.handed (h : b.Inv) (hbarrier : b.Barrier token) (hdone : b.completions token = 1)
    (hlt : stamp < token) (hitem : b.entered[stamp]? = some (.recordItem callId item)) :
    ∃ i, b.indexOf callId item = some i ∧
      ((b.nodes i).Handed stamp (buildPacket callId item b.clientId) ∨
        (stamp, i) ∈ b.refused ∨ (token, i) ∈ b.refused) := by
  have hacks := (h.completions_eq_one_iff hbarrier).mp hdone
  have htoken := h.accounts.lt_of_acks h.pos (by rw [hacks 0 h.pos]; exact one_pos)
  rw [entered, List.getElem?_append_left (hlt.trans htoken)] at hitem
  obtain ⟨i, hi, hrouted⟩ := h.routed.passed stamp callId item hitem
  have hin : i < b.nodeCount := by simpa using (Option.filter_eq_some_iff.mp hi).2
  refine ⟨i, hi, ?_⟩
  rcases hrouted with haccepted | hrefused
  · rcases h.cleared token i hin (by rw [hacks i hin]; exact one_pos) with hrefused | hcleared
    · exact .inr (.inr hrefused)
    · exact .inl (hcleared stamp _ haccepted hlt)
  · exact .inr (.inl hrefused)

structure Start (b : RemoteBackend) : Prop where
  pos : 0 < b.nodeCount
  queue : b.ingress.queue = []
  passed : b.passed = []
  dispatcher : b.dispatcher = .idle
  accepted : ∀ i, (b.nodes i).accepted = []
  phase : ∀ i, (b.nodes i).phase = .starting
  acks : ∀ token i, b.acks token i = 0
  completions : ∀ token, b.completions token = 0

theorem Start.accounts (h : b.Start) : b.Accounts := by
  intro token _ i _
  have hqueue := (List.append_eq_nil_iff.mp (h.accepted i)).2
  simp [owed, ahead, h.passed, h.dispatcher, DispatcherPhase.owes, SenderNode.owes, hqueue, h.phase,
    h.acks]

theorem Start.tally (h : b.Start) : b.Tally := by
  have hnone (token : Nat) : ¬ b.Barrier token := by simp [Barrier, entered, h.passed, h.queue]
  exact ⟨fun token hbarrier => absurd hbarrier (hnone token),
    fun token hbarrier => absurd hbarrier (hnone token), fun token _ => h.completions token⟩

theorem Start.counted (h : b.Start) : b.Counted :=
  ⟨h.pos, h.accounts, h.tally⟩

theorem Start.inv (h : b.Start) : b.Inv where
  toCounted := h.counted
  ordered := by
    refine ⟨fun i => ⟨by simp [h.accepted], fun stamp packet hmem => ?_, fun token hphase => ?_⟩,
      fun i c hc => ?_, fun token next hforwards => ?_⟩
    · have htaken := (List.append_eq_nil_iff.mp (h.accepted i)).1
      simp [htaken] at hmem
    · cases (h.phase i).symm.trans hphase
    · simp [h.accepted] at hc
    · cases h.dispatcher.symm.trans hforwards
  cleared token i _ hpos := by simp [h.acks] at hpos
  routed := ⟨fun stamp callId item hget => by simp [h.passed] at hget,
    fun callId item hmem => by simp [h.queue] at hmem⟩
  lossless := ⟨fun hended => (by cases h.dispatcher.symm.trans hended),
    fun i hended => (by cases (h.phase i).symm.trans hended)⟩

/-- What is guaranteed of a barrier. -/
structure Completes (b : RemoteBackend) (token : Nat) : Prop where
  once : ∀ i < b.nodeCount, b.owed token i + b.acks token i = 1
  countdown : b.remaining token = b.nodeCount - ∑ i ∈ Finset.range b.nodeCount, b.acks token i
  notified : b.completions token ≤ 1
  last : b.completions token = 1 ↔ ∀ i < b.nodeCount, b.acks token i = 1
  /-- What was enqueued before it is sent then, or was refused by its node, or the barrier was. -/
  handed : b.completions token = 1 → ∀ stamp < token, ∀ callId item,
    b.entered[stamp]? = some (.recordItem callId item) → ∃ i, b.indexOf callId item = some i ∧
      ((b.nodes i).Handed stamp (buildPacket callId item b.clientId) ∨
        (stamp, i) ∈ b.refused ∨ (token, i) ∈ b.refused)
  completion : ∃ b', Runs Orderly b b' ∧ b'.completions token = 1

/-- **Every barrier is counted down once for each node and completes once**, and what was enqueued
before it is sent by then, in every run in which no thread ends with a barrier in its channel. -/
theorem barrier_completes (b b' : RemoteBackend) (hstart : b.Start) (hruns : Runs Orderly b b')
    (token : Nat) (hbarrier : b'.Barrier token) : b'.Completes token := by
  have hinv := hstart.inv.runs hruns
  refine ⟨hinv.accounts token (.inr hbarrier), hinv.tally.remaining token hbarrier, ?_,
    hinv.completions_eq_one_iff hbarrier, fun hdone stamp hlt callId item hitem =>
    hinv.handed hbarrier hdone hlt hitem, hinv.exists_completion hbarrier⟩
  rw [hinv.tally.completions token hbarrier]
  split_ifs <;> omega

/-- The barrier is in the channel of a sender that has ended. -/
structure Lost (b : RemoteBackend) (token i : Nat) : Prop where
  phase : (b.nodes i).phase = .ended
  dead : (b.nodes i).channel.receiverAlive = false
  queued : 0 < (b.nodes i).channel.queue.countP (isBarrier token)

theorem Effect.ended (hphase : (b.nodes i).phase = .ended)
    (hdead : (b.nodes i).channel.receiverAlive = false) (heffect : b.Effect input b') :
    b'.nodes i = b.nodes i := by
  cases heffect with
  | refused | enters | cancels | forwarded | finishes => rfl
  | @passes cmd ingress =>
    cases cmd with
    | flushBarrier t => rfl
    | recordItem callId item =>
      simp only [dispatch]
      split
      · exact trySend_of_dead (b := b.pass (.recordItem callId item) ingress) hdead
      · rfl
  | forwards =>
    simp only [nodes_forwardTo]
    exact trySend_of_dead hdead
  | @moves j _ _ _ hmove =>
    have hj : i ≠ j := by
      rintro rfl
      cases hmove <;> rename_i hphase' <;> cases hphase.symm.trans ‹(b.nodes i).phase = _›
    simp [setNode, hj]
  | @acknowledges j _ _ _ hphase' =>
    have hj : i ≠ j := by
      rintro rfl
      cases hphase.symm.trans hphase'
    simp [setNode, completeOne, hj]

/-- **A barrier in the channel of a sender that has ended never completes.** -/
theorem Lost.completions_eq_zero (h : b.Lost token i) (hi : i < b.nodeCount)
    (hbarrier : b.Barrier token) (hcounted : b.Counted) (hruns : Runs (fun _ _ => True) b b') :
    b'.completions token = 0 := by
  have hlost : b'.Lost token i ∧ i < b'.nodeCount ∧ b'.Barrier token ∧ b'.Counted := by
    induction hruns with
    | refl => exact ⟨h, hi, hbarrier, hcounted⟩
    | tail _ hstep ih =>
      obtain ⟨input, -, hstep⟩ := hstep
      obtain ⟨hlost, hi, hbarrier, hcounted⟩ := ih
      have heffect := effect_of_step hstep
      have hnode := heffect.ended hlost.phase hlost.dead
      exact ⟨⟨hnode ▸ hlost.phase, hnode ▸ hlost.dead, hnode ▸ hlost.queued⟩,
        heffect.entered.2 ▸ hi, hbarrier.step heffect, hcounted.step heffect⟩
  obtain ⟨hlost, hi, hbarrier, hcounted⟩ := hlost
  have hone := hcounted.accounts token (.inr hbarrier) i hi
  have hqueued := hlost.queued
  have hzero : b'.acks token i = 0 := by
    simp only [owed, SenderNode.owes] at hone
    omega
  have hne : b'.completions token ≠ 1 := fun hdone => by
    rw [(hcounted.completions_eq_one_iff hbarrier).mp hdone i hi] at hzero
    cases hzero
  rw [hcounted.tally.completions token hbarrier] at hne ⊢
  split_ifs at hne ⊢ with hle
  · exact absurd rfl hne
  · rfl

def play (inputs : List BackendInput) (b : RemoteBackend) : Option RemoteBackend :=
  inputs.foldlM step b

theorem runs_play (inputs : List BackendInput)
    (h : b.play inputs = some b') (hC : ∀ b, ∀ input ∈ inputs, C b input) : Runs C b b' :=
  Machine.Runs.steps .refl h fun input hinput b => hC b input hinput

def emptyChannel (α : Type) (capacity : Nat) : Channel α :=
  ⟨capacity, [], true, Nat.zero_le _⟩

def single : RemoteBackend where
  mtu := 1400
  clientId := 7
  nodeCount := 1
  ingress := emptyChannel Command 8192
  nodes _ := { channel := emptyChannel _ 8192 }

theorem start_single : single.Start :=
  ⟨by decide, rfl, rfl, rfl, fun _ => rfl, fun _ => rfl, fun _ _ => rfl, fun _ => rfl⟩

def recorded : BackendInput := .record "call" ⟨0, 0, none, .rtp, "", "", [1]⟩

/-- The packet goes out when the sender comes to the barrier, which it then acknowledges. -/
def flushed : List BackendInput :=
  [.flush, .receive, .receive, .forward, .forward, .sender 0 (.bind true), .sender 0 .receive,
    .sender 0 .receive, .sender 0 .acknowledge]

theorem barrier_completes_single : ∃ b, Runs Orderly single b ∧ b.completions 1 = 1 ∧
    b.Completes 1 := by
  have hruns : Runs Orderly single _ :=
    .head ⟨recorded, indexOf_isSome (by decide) (by decide), rfl⟩
      (runs_play flushed rfl (by simp [flushed, Orderly]))
  exact ⟨_, hruns, rfl, barrier_completes _ _ start_single hruns 1 rfl⟩

theorem Counted.runs (h : b.Counted) (hruns : Runs (fun _ _ => True) b b') : b'.Counted :=
  Machine.Runs.invariant hruns Counted h fun _ _ _ h _ hstep => h.step (effect_of_step hstep)

/-- **No barrier completes twice, or before each node was acknowledged for it**, whichever threads
end. -/
theorem completes_at_most_once (hstart : b.Start) (hruns : Runs (fun _ _ => True) b b')
    (token : Nat) (hbarrier : b'.Barrier token) : b'.completions token ≤ 1 ∧
      (b'.completions token = 1 ↔ ∀ i < b'.nodeCount, b'.acks token i = 1) := by
  have hcounted := hstart.counted.runs hruns
  refine ⟨?_, hcounted.completions_eq_one_iff hbarrier⟩
  rw [hcounted.tally.completions token hbarrier]
  split_ifs <;> omega

theorem completes_at_most_once_single : ∃ b, single.play (recorded :: flushed) = some b ∧
    b.acks 1 0 = 1 ∧ b.completions 1 ≤ 1 ∧
      (b.completions 1 = 1 ↔ ∀ i < b.nodeCount, b.acks 1 i = 1) :=
  ⟨_, rfl, rfl, completes_at_most_once start_single
    (runs_play (recorded :: flushed) rfl fun _ _ _ => trivial) 1 rfl⟩

/-- **No sender drops what it has taken, or gets commands out of order**, in any run. -/
theorem senders_ok (hstart : b.Start) (hruns : Runs (fun _ _ => True) b b') (i : Nat) :
    (b'.nodes i).Ok :=
  (Machine.Runs.invariant hruns Ordered hstart.inv.ordered fun _ _ _ h _ hstep =>
    h.step (effect_of_step hstep)).nodes i

theorem senders_ok_single : ∃ b, single.play (recorded :: flushed) = some b ∧
    (b.nodes 0).taken.length = 2 ∧ (b.nodes 0).Ok :=
  ⟨_, rfl, rfl, senders_ok start_single
    (runs_play (recorded :: flushed) rfl fun _ _ _ => trivial) 0⟩

/-- The sender ends after the barrier has come into its channel and before it has looked there
again. -/
theorem barrier_lost : ∃ b, Runs (fun _ _ => True) single b ∧ b.Barrier 0 ∧
    ∀ b', Runs (fun _ _ => True) b b' → b'.completions 0 = 0 := by
  have hruns : Runs (fun _ _ => True) single _ :=
    runs_play [.sender 0 (.bind true), .flush, .receive, .forward, .forward, .cancel,
      .sender 0 .finish] rfl fun _ _ _ => trivial
  refine ⟨_, hruns, rfl, fun b' hruns' => ?_⟩
  refine Lost.completions_eq_zero (i := 0) ?_ ?_ ?_ (start_single.counted.runs hruns) hruns'
  · exact ⟨rfl, rfl, by decide⟩
  · decide
  · rfl

end RemoteBackend

end RustPbx.Sipflow
