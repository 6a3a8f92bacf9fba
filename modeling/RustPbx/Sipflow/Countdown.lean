import RustPbx.Sipflow.Barrier

/-!
The countdown of a flush barrier.

A barrier is somewhere for each node until the node is acknowledged for it. `RemoteBackend.Accounts`
says that these places and the acknowledgements of a node add up to one, and `RemoteBackend.Tally`
what the countdown and the notifications are then.
-/

namespace RustPbx.Sipflow

/-! ## Where a barrier is -/

def isBarrier (token : Nat) : Nat × NodeCommand → Bool
  | (stamp, .flushBarrier _) => stamp == token
  | (_, .packet _) => false

/-- Whether the dispatcher has still to come to the command with the given number, after the first
`passed` ones. -/
def ahead (passed token : Nat) : Nat :=
  if passed ≤ token then 1 else 0

/-- Whether the dispatcher still has to forward the barrier to node `i`. -/
def DispatcherPhase.owes (token i : Nat) : DispatcherPhase → Nat
  | .forwards t next => if t = token ∧ next ≤ i then 1 else 0
  | _ => 0

/-- How often the barrier is in the channel or in the hands of the sender. -/
def SenderNode.owes (token : Nat) (node : SenderNode) : Nat :=
  node.channel.queue.countP (isBarrier token) +
    if node.phase = .acknowledges token then 1 else 0

namespace SenderNode

variable {node : SenderNode}

theorem handle_channel : (node.handle mtu cmd).channel = node.channel := by
  rcases cmd with ⟨stamp, packet | token⟩
  · simp only [handle, push]
    split <;> rfl
  · rfl

theorem handle_taken : (node.handle mtu cmd).taken = node.taken := by
  rcases cmd with ⟨stamp, packet | token⟩
  · simp only [handle, push]
    split <;> rfl
  · rfl

theorem handle_packet_phase : (node.handle mtu (stamp, .packet packet)).phase = node.phase := by
  simp only [handle, push]
  split <;> rfl

theorem receive_eq (h : node.receive mtu = some node') : ∃ cmd channel,
    node.channel.queue = cmd :: channel.queue ∧
      node' = handle mtu { node with channel, taken := node.taken ++ [cmd] } cmd := by
  unfold receive at h
  split at h
  · next cmd channel hrecv =>
    cases h
    exact ⟨cmd, channel, Channel.recv_queue hrecv, rfl⟩
  · cases h

theorem owes_receive (hphase : node.phase = .waiting) (h : node.receive mtu = some node') :
    node'.owes token = node.owes token := by
  obtain ⟨⟨stamp, cmd⟩, channel, hqueue, rfl⟩ := receive_eq h
  simp only [owes, handle_channel, hqueue, List.countP_cons]
  cases cmd with
  | packet packet => simp [handle_packet_phase, isBarrier]
  | flushBarrier t => simp [handle, hphase, isBarrier]

/-- The steps of a sender that do not acknowledge anything. -/
inductive Move (mtu : Nat) (node : SenderNode) : SenderInput → SenderNode → Prop where
  | bind : node.phase = .starting → Move mtu node (.bind true) { node with phase := .waiting }
  | bindFails : node.phase = .starting → Move mtu node (.bind false) node.drop
  | receive : node.phase = .waiting → node.receive mtu = some node' →
    Move mtu node .receive node'
  | timeout : node.phase = .waiting → Move mtu node .timeout (node.sendBatch mtu)
  | finish : node.phase = .waiting → Move mtu node .finish (node.sendBatch mtu).drop

theorem Move.owes (h : node.Move mtu input node') : node'.owes token = node.owes token := by
  cases h with
  | receive hphase hreceive => exact owes_receive hphase hreceive
  | bind hphase | bindFails hphase | timeout hphase | finish hphase =>
    simp [SenderNode.owes, sendBatch, drop, hphase]

end SenderNode

namespace RemoteBackend

variable {b b' : RemoteBackend} {token : Nat}

/-- How often node `i` still has to be acknowledged for the barrier. -/
def owed (b : RemoteBackend) (token i : Nat) : Nat :=
  ahead b.passed.length token + b.dispatcher.owes token i + (b.nodes i).owes token

def Barrier (b : RemoteBackend) (token : Nat) : Prop :=
  b.entered[token]? = some (.flushBarrier token)

/-- Each node is acknowledged once for a barrier, or will be. A number that the dispatcher has not
come to counts as one. -/
def Accounts (b : RemoteBackend) : Prop :=
  ∀ token, b.passed.length ≤ token ∨ b.Barrier token → ∀ i < b.nodeCount,
    b.owed token i + b.acks token i = 1

/-- What a step does. -/
inductive Effect (b : RemoteBackend) : BackendInput → RemoteBackend → Prop where
  /-- The ingress does not take the command. -/
  | refused : Effect b input b
  | enters {ingress : Channel Command}
    {remaining : Nat → Int} (hsend : b.ingress.trySend cmd = some ingress)
    (hitem : ∀ callId item, cmd = .recordItem callId item → input = .record callId item)
    (hnew : ∀ token, cmd = .flushBarrier token → remaining token = b.nodeCount)
    (hold : ∀ token < b.entered.length, remaining token = b.remaining token) :
    Effect b input { b with ingress, remaining }
  | cancels : Effect b .cancel { b with cancelled := true }
  | passes {cmd : Command} {ingress : Channel Command} (hidle : b.dispatcher = .idle)
    (hqueue : b.ingress.queue = cmd :: ingress.queue) :
    Effect b .receive (dispatch b.passed.length (b.pass cmd ingress) cmd)
  | forwards {t next : Nat} (hforwards : b.dispatcher = .forwards t next)
    (hnext : next < b.nodeCount) :
    Effect b .forward { b.forwardTo t next with dispatcher := .forwards t (next + 1) }
  /-- The barrier is forwarded to all nodes. -/
  | forwarded {t next : Nat} (hforwards : b.dispatcher = .forwards t next)
    (hnext : b.nodeCount ≤ next) : Effect b .forward { b with dispatcher := .idle }
  | finishes (hidle : b.dispatcher = .idle) : Effect b .finish b.endDispatcher
  | moves {i : Nat} {input : SenderInput} {node : SenderNode} (hi : i < b.nodeCount)
    (hmove : (b.nodes i).Move b.mtu input node) : Effect b (.sender i input) (b.setNode i node)
  | acknowledges {i t : Nat} {input : SenderInput} (hi : i < b.nodeCount)
    (hphase : (b.nodes i).phase = .acknowledges t) : Effect b (.sender i input)
      ((b.setNode i { b.nodes i with phase := .waiting }).completeOne t i)

theorem effect_of_senderStep (hi : i < b.nodeCount)
    (hstep : b.senderStep i input = some b') : b.Effect (.sender i input) b' := by
  unfold senderStep at hstep
  dsimp only at hstep
  split at hstep <;> rename_i hphase
  case h_7 => cases hstep
  case h_1 =>
    cases hstep
    exact .moves hi (.bind hphase)
  case h_2 =>
    cases hstep
    exact .moves hi (.bindFails hphase)
  case h_3 =>
    obtain ⟨node, hreceive, rfl⟩ := Option.map_eq_some_iff.mp hstep
    exact .moves hi (.receive hphase hreceive)
  case h_4 =>
    split_ifs at hstep
    cases hstep
    exact .moves hi (.timeout hphase)
  case h_5 token =>
    cases hstep
    exact .acknowledges hi hphase
  case h_6 =>
    split_ifs at hstep
    cases hstep
    exact .moves hi (.finish hphase)

theorem effect_of_step (hstep : b.step input = some b') : b.Effect input b' := by
  cases input with
  | record callId item =>
    cases hstep
    unfold record
    split
    · next hsend =>
      exact .enters hsend (fun _ _ hcmd => by cases hcmd; rfl) nofun fun _ _ => rfl
    · exact .refused
  | flush =>
    cases hstep
    simp only [flush]
    split
    · next hsend =>
      refine .enters hsend nofun (fun token hcmd => ?_) fun token hlt => ?_
      · cases hcmd
        simp
      · simp [hlt.ne]
    · exact .refused
  | cancel =>
    cases hstep
    exact .cancels
  | receive =>
    simp only [step, receive] at hstep
    split at hstep
    · next hidle hrecv =>
      cases hstep
      exact .passes hidle (Channel.recv_queue hrecv)
    · cases hstep
  | forward =>
    simp only [step, forward] at hstep
    split at hstep
    · next hforwards =>
      split_ifs at hstep with hnext <;> cases hstep
      · exact .forwards hforwards hnext
      · exact .forwarded hforwards (not_lt.mp hnext)
    · cases hstep
  | finish =>
    simp only [step, finish] at hstep
    split_ifs at hstep with hidle
    cases hstep
    exact .finishes hidle.1
  | sender i input =>
    simp only [step] at hstep
    split_ifs at hstep with hi
    exact effect_of_senderStep hi hstep

theorem trySend_cases (i stamp : Nat) (cmd : NodeCommand) (b : RemoteBackend) :
    (∃ channel : Channel (Nat × NodeCommand),
      channel.queue = (b.nodes i).channel.queue ++ [(stamp, cmd)] ∧
        b.trySend i stamp cmd = (true, b.setNode i { b.nodes i with channel })) ∨
    b.trySend i stamp cmd = (false, { b with refused := (stamp, i) :: b.refused }) := by
  unfold trySend
  split
  · next channel hsend => exact .inl ⟨channel, Channel.trySend_queue hsend, rfl⟩
  · exact .inr rfl

theorem acks_completeOne (i t j : Nat) : (b.completeOne token i).acks t j =
    b.acks t j + if t = token ∧ j = i then 1 else 0 := by
  rcases eq_or_ne t token with rfl | ht
  · rcases eq_or_ne j i with rfl | hj
    · simp [completeOne]
    · simp [completeOne, hj]
  · simp [completeOne, ht]

theorem Accounts.lt_passed (h : b.Accounts) (hi : i < b.nodeCount)
    (howes : 0 < b.dispatcher.owes token i + (b.nodes i).owes token) : token < b.passed.length := by
  by_contra! hle
  have := h token (.inl hle) i hi
  simp only [owed, ahead, hle, if_true] at this
  omega

theorem Accounts.of_same (h : b.Accounts) (hpassed : b'.passed = b.passed)
    (hbarrier : ∀ token, b'.Barrier token → b.passed.length ≤ token ∨ b.Barrier token)
    (hcount : b'.nodeCount = b.nodeCount)
    (hsame : ∀ token, ∀ j < b.nodeCount, b'.owed token j + b'.acks token j =
      b.owed token j + b.acks token j) : b'.Accounts := by
  intro token htoken j hj
  rw [hcount] at hj
  rw [hsame token j hj]
  rw [hpassed] at htoken
  exact h token (htoken.elim .inl (hbarrier token)) j hj

/-- The countdowns and the ingress are as they were. -/
structure Relays (b b' : RemoteBackend) : Prop where
  nodeCount : b'.nodeCount = b.nodeCount
  clientId : b'.clientId = b.clientId
  passed : b'.passed = b.passed
  queue : b'.ingress.queue = b.ingress.queue
  remaining : b'.remaining = b.remaining
  acks : b'.acks = b.acks
  completions : b'.completions = b.completions

theorem trySend_relays (i stamp : Nat) (cmd : NodeCommand) (b : RemoteBackend) :
    b.Relays (b.trySend i stamp cmd).2 := by
  unfold trySend
  split <;> exact ⟨rfl, rfl, rfl, rfl, rfl, rfl, rfl⟩

theorem dispatch_relays (stamp : Nat) (cmd : Command) (b : RemoteBackend) :
    b.Relays (dispatch stamp b cmd) := by
  cases cmd with
  | recordItem callId item =>
    simp only [dispatch]
    split
    · exact trySend_relays ..
    · exact ⟨rfl, rfl, rfl, rfl, rfl, rfl, rfl⟩
  | flushBarrier t => exact ⟨rfl, rfl, rfl, rfl, rfl, rfl, rfl⟩

theorem Relays.entered (h : b.Relays b') : b'.entered = b.entered := by
  simp only [RemoteBackend.entered, h.passed, h.queue]

theorem entered_append (hpassed : b'.passed = b.passed)
    (hqueue : b'.ingress.queue = b.ingress.queue ++ [cmd]) : b'.entered = b.entered ++ [cmd] := by
  simp [entered, hpassed, hqueue]

theorem passed_le_entered (b : RemoteBackend) : b.passed.length ≤ b.entered.length := by
  simp [entered]

theorem Barrier.append_cases (hentered : b'.entered = b.entered ++ [cmd]) (h : b'.Barrier token) :
    b.Barrier token ∨ token = b.entered.length ∧ cmd = .flushBarrier token := by
  rcases lt_or_ge token b.entered.length with hlt | hge
  · rw [Barrier, hentered, List.getElem?_append_left hlt] at h
    exact .inl h
  · rw [Barrier, hentered, List.getElem?_append_right hge, List.getElem?_singleton] at h
    split_ifs at h with hzero
    exact .inr ⟨by omega, Option.some.inj h⟩

theorem Accounts.enter (h : b.Accounts) (hpassed : b'.passed = b.passed)
    (hqueue : b'.ingress.queue = b.ingress.queue ++ [cmd]) (hcount : b'.nodeCount = b.nodeCount)
    (hdispatcher : b'.dispatcher = b.dispatcher) (hnodes : b'.nodes = b.nodes)
    (hacks : b'.acks = b.acks) : b'.Accounts :=
  h.of_same hpassed
    (fun _ hbarrier => (hbarrier.append_cases (entered_append hpassed hqueue)).elim .inr
      fun ⟨hlast, _⟩ => .inl (hlast ▸ b.passed_le_entered))
    hcount fun token j _ => by simp only [owed, hpassed, hdispatcher, hnodes, hacks]

theorem owes_trySend_packet :
    ((b.trySend i stamp (.packet packet)).2.nodes j).owes token = (b.nodes j).owes token := by
  obtain ⟨channel, hqueue, hsend⟩ | hsend := trySend_cases i stamp (.packet packet) b
  · rw [hsend]
    rcases eq_or_ne j i with rfl | hj
    · simp [setNode, SenderNode.owes, hqueue, isBarrier]
    · simp [setNode, hj]
  · rw [hsend]

theorem dispatcher_trySend (i stamp : Nat) (cmd : NodeCommand) (b : RemoteBackend) :
    (b.trySend i stamp cmd).2.dispatcher = b.dispatcher := by
  unfold trySend
  split <;> rfl

theorem owes_dispatch_item (hidle : b.dispatcher = .idle) :
    (dispatch stamp b (.recordItem callId item)).dispatcher.owes token j = 0 ∧
      ((dispatch stamp b (.recordItem callId item)).nodes j).owes token =
        (b.nodes j).owes token := by
  simp only [dispatch]
  split
  · exact ⟨by rw [dispatcher_trySend, hidle]; rfl, owes_trySend_packet ..⟩
  · exact ⟨rfl, rfl⟩

theorem length_passed_pass (ingress : Channel Command) :
    (b.pass cmd ingress).passed.length = b.passed.length + 1 := by
  simp [pass]

theorem entered_pass {ingress : Channel Command} (hqueue : b.ingress.queue = cmd :: ingress.queue) :
    (b.pass cmd ingress).entered = b.entered := by
  simp [pass, entered, hqueue]

theorem Accounts.pass {ingress : Channel Command} (h : b.Accounts) (hidle : b.dispatcher = .idle)
    (hqueue : b.ingress.queue = cmd :: ingress.queue) :
    (dispatch b.passed.length (b.pass cmd ingress) cmd).Accounts := by
  have hrelays := dispatch_relays b.passed.length cmd (b.pass cmd ingress)
  intro token htoken i hi
  rw [hrelays.passed, Barrier, hrelays.entered, entered_pass hqueue, length_passed_pass] at htoken
  rw [hrelays.nodeCount] at hi
  have hold := h token (htoken.imp_left (by omega)) i hi
  rw [owed, hidle] at hold
  rw [owed, hrelays.passed, hrelays.acks, length_passed_pass]
  change _ + b.acks token i = 1
  have hhead : b.entered[b.passed.length]? = some cmd := by simp [entered, hqueue]
  cases cmd with
  | recordItem callId item =>
    have hne : b.passed.length ≠ token := by
      rintro rfl
      simp [hhead] at htoken
    obtain ⟨hdispatcher, hnode⟩ :=
      owes_dispatch_item (b := b.pass (.recordItem callId item) ingress)
        hidle
    rw [hdispatcher, hnode]
    change _ + (b.nodes i).owes token + _ = 1
    simp only [ahead, DispatcherPhase.owes] at hold ⊢
    split_ifs at hold ⊢ <;> omega
  | flushBarrier t =>
    change _ + (b.nodes i).owes token + _ = 1
    simp only [dispatch, ahead, DispatcherPhase.owes] at hold ⊢
    split_ifs at hold ⊢ <;> omega

theorem owes_forwardTo (t i token j : Nat) (b : RemoteBackend) :
    ((b.forwardTo t i).nodes j).owes token + (b.forwardTo t i).acks token j =
      (b.nodes j).owes token + b.acks token j + if token = t ∧ j = i then 1 else 0 := by
  obtain ⟨channel, hqueue, hsend⟩ | hsend := trySend_cases i t (.flushBarrier t) b
  · simp only [forwardTo, hsend]
    rcases eq_or_ne j i with rfl | hj
    · simp only [setNode, Function.update_self, SenderNode.owes, hqueue, List.countP_append,
        List.countP_singleton, isBarrier, beq_iff_eq, eq_comm (a := t), and_true]
      omega
    · simp [setNode, hj]
  · simp only [forwardTo, hsend, acks_completeOne]
    exact (Nat.add_assoc ..).symm

theorem forwardTo_same (t i : Nat) (b : RemoteBackend) :
    (b.forwardTo t i).passed = b.passed ∧ (b.forwardTo t i).ingress = b.ingress ∧
      (b.forwardTo t i).nodeCount = b.nodeCount := by
  obtain ⟨channel, hqueue, hsend⟩ | hsend := trySend_cases i t (.flushBarrier t) b <;>
    simp only [forwardTo, hsend] <;> exact ⟨rfl, rfl, rfl⟩

theorem Accounts.forward (h : b.Accounts) (hforwards : b.dispatcher = .forwards t next) :
    Accounts { b.forwardTo t next with dispatcher := .forwards t (next + 1) } := by
  obtain ⟨hpassed, hingress, hcount⟩ := forwardTo_same t next b
  refine h.of_same hpassed (fun token hbarrier => .inr ?_) hcount fun token j _ => ?_
  · simpa only [Barrier, entered, hpassed, hingress] using hbarrier
  · have howes := owes_forwardTo t next token j b
    simp only [owed, hpassed, hforwards, DispatcherPhase.owes]
    split_ifs at howes ⊢ <;> omega

theorem Accounts.setNode (h : b.Accounts)
    (hnode : ∀ token, node.owes token = (b.nodes i).owes token) : (b.setNode i node).Accounts := by
  refine h.of_same rfl (fun _ => .inr) rfl fun token j _ => ?_
  rcases eq_or_ne j i with rfl | hj
  · simp [owed, RemoteBackend.setNode, hnode]
  · simp [owed, RemoteBackend.setNode, hj]

theorem Accounts.acknowledge (h : b.Accounts) (hphase : (b.nodes i).phase = .acknowledges t) :
    ((b.setNode i { b.nodes i with phase := .waiting }).completeOne t i).Accounts := by
  refine h.of_same rfl (fun _ => .inr) rfl fun token j _ => ?_
  rw [acks_completeOne]
  rcases eq_or_ne j i with rfl | hj
  · simp only [owed, completeOne, RemoteBackend.setNode, Function.update_self, SenderNode.owes,
      hphase, SenderPhase.acknowledges.injEq, reduceCtorEq, if_false, and_true,
      eq_comm]
    omega
  · simp [owed, completeOne, RemoteBackend.setNode, hj]

theorem Accounts.step (h : b.Accounts) (heffect : b.Effect input b') : b'.Accounts := by
  cases heffect with
  | refused | cancels => exact h
  | enters hsend => exact h.enter rfl (Channel.trySend_queue hsend) rfl rfl rfl rfl
  | passes hidle hqueue => exact h.pass hidle hqueue
  | forwards hforwards => exact h.forward hforwards
  | forwarded hforwards hnext =>
    refine h.of_same rfl (fun _ => .inr) rfl fun token j hj => ?_
    simp only [owed, hforwards, DispatcherPhase.owes]
    rw [if_neg (by omega)]
  | finishes hidle =>
    refine h.of_same rfl (fun _ => .inr) rfl fun token j _ => ?_
    simp only [owed, hidle]
    rfl
  | moves _ hmove => exact h.setNode fun _ => hmove.owes
  | acknowledges _ hphase => exact h.acknowledge hphase

/-! ## The countdown -/

def total (b : RemoteBackend) (token : Nat) : Nat :=
  ∑ i ∈ Finset.range b.nodeCount, b.acks token i

/-- The countdown is at the number of missing acknowledgements, and its waiters were notified once
if it is zero. -/
structure Tally (b : RemoteBackend) : Prop where
  remaining : ∀ token, b.Barrier token → b.remaining token = b.nodeCount - b.total token
  completions : ∀ token, b.Barrier token →
    b.completions token = if b.nodeCount ≤ b.total token then 1 else 0
  fresh : ∀ token, b.entered.length ≤ token → b.completions token = 0

theorem Tally.of_same (h : b.Tally) (hcount : b'.nodeCount = b.nodeCount)
    (hentered : b'.entered = b.entered) (hremaining : b'.remaining = b.remaining)
    (hacks : b'.acks = b.acks) (hcompletions : b'.completions = b.completions) : b'.Tally := by
  have htotal (token : Nat) : b'.total token = b.total token := by simp only [total, hcount, hacks]
  refine ⟨fun token hbarrier => ?_, fun token hbarrier => ?_, fun token hle => ?_⟩
  · rw [Barrier, hentered] at hbarrier
    rw [hremaining, hcount, htotal, h.remaining token hbarrier]
  · rw [Barrier, hentered] at hbarrier
    rw [hcompletions, hcount, htotal, h.completions token hbarrier]
  · rw [hentered] at hle
    rw [hcompletions, h.fresh token hle]

theorem Tally.relays (h : b.Tally) (hrelays : b.Relays b') : b'.Tally :=
  h.of_same hrelays.nodeCount hrelays.entered hrelays.remaining hrelays.acks hrelays.completions

theorem total_completeOne (hi : i < b.nodeCount) :
    (b.completeOne t i).total token = b.total token + if token = t then 1 else 0 := by
  have hnode : (b.completeOne t i).nodeCount = b.nodeCount := rfl
  simp only [total, hnode, acks_completeOne, Finset.sum_add_distrib]
  congr 1
  split_ifs with ht <;> simp [ht, hi]

theorem completions_completeOne : (b.completeOne t i).completions token =
    b.completions token + if token = t ∧ b.remaining t = 1 then 1 else 0 := by
  simp only [completeOne]
  split_ifs with hlast htoken htoken
  · simp [htoken.1]
  · have hne : token ≠ t := fun heq => htoken ⟨heq, hlast⟩
    simp [hne]
  · exact absurd htoken.2 hlast
  · rfl

theorem Tally.completeOne (h : b.Tally) (hi : i < b.nodeCount) (ht : t < b.entered.length) :
    (b.completeOne t i).Tally := by
  refine ⟨fun token hbarrier => ?_, fun token hbarrier => ?_, fun token hle => ?_⟩
  · have hremaining := h.remaining token hbarrier
    rw [total_completeOne hi]
    rcases eq_or_ne token t with rfl | hne
    · simp only [RemoteBackend.completeOne, Function.update_self, if_true]
      omega
    · simpa [RemoteBackend.completeOne, hne] using hremaining
  · have hremaining := h.remaining token hbarrier
    rw [total_completeOne hi, completions_completeOne, h.completions token hbarrier]
    have hcount : (b.completeOne t i).nodeCount = b.nodeCount := rfl
    rw [hcount]
    rcases eq_or_ne token t with rfl | hne
    · split_ifs <;> omega
    · simp [hne]
  · have hne : token ≠ t := by
      rintro rfl
      exact absurd ht (not_lt.mpr hle)
    rw [completions_completeOne, h.fresh token hle]
    simp [hne]

theorem Accounts.total_eq_zero (h : b.Accounts) (hle : b.passed.length ≤ token) :
    b.total token = 0 := by
  refine Finset.sum_eq_zero fun i hi => ?_
  have hone := h token (.inl hle) i (Finset.mem_range.mp hi)
  simp only [owed, ahead, hle, if_true] at hone
  omega

theorem Tally.enter (h : b.Tally) (haccounts : b.Accounts) (hpos : 0 < b.nodeCount)
    (hcount : b'.nodeCount = b.nodeCount) (hentered : b'.entered = b.entered ++ [cmd])
    (hnew : ∀ token, cmd = .flushBarrier token → b'.remaining token = b.nodeCount)
    (hold : ∀ token < b.entered.length, b'.remaining token = b.remaining token)
    (hacks : b'.acks = b.acks) (hcompletions : b'.completions = b.completions) : b'.Tally := by
  have htotal (token : Nat) : b'.total token = b.total token := by simp only [total, hcount, hacks]
  have hzero := haccounts.total_eq_zero b.passed_le_entered
  refine ⟨fun token hbarrier => ?_, fun token hbarrier => ?_, fun token hle => ?_⟩
  · rw [hcount, htotal]
    obtain hbarrier | ⟨rfl, hcmd⟩ := hbarrier.append_cases hentered
    · rw [hold token (List.getElem?_eq_some_iff.mp hbarrier).1, h.remaining token hbarrier]
    · simp [hnew _ hcmd, hzero]
  · rw [hcount, htotal, hcompletions]
    obtain hbarrier | ⟨rfl, hcmd⟩ := hbarrier.append_cases hentered
    · exact h.completions token hbarrier
    · rw [h.fresh _ le_rfl, if_neg (by omega)]
  · rw [hentered, List.length_append] at hle
    rw [hcompletions, h.fresh token (by omega)]

theorem Tally.forward (h : b.Tally) (haccounts : b.Accounts)
    (hforwards : b.dispatcher = .forwards t next) (hnext : next < b.nodeCount) :
    (b.forwardTo t next).Tally := by
  have ht : t < b.passed.length := haccounts.lt_passed hnext (by
    simp [hforwards, DispatcherPhase.owes])
  have hrelays := trySend_relays next t (.flushBarrier t) b
  unfold forwardTo
  split <;> rename_i hsend <;> rw [hsend] at hrelays
  · exact h.relays hrelays
  · refine (h.relays hrelays).completeOne (hrelays.nodeCount ▸ hnext) ?_
    rw [hrelays.entered]
    exact ht.trans_le b.passed_le_entered

theorem Tally.step (h : b.Tally) (haccounts : b.Accounts) (hpos : 0 < b.nodeCount)
    (heffect : b.Effect input b') : b'.Tally := by
  cases heffect with
  | refused => exact h
  | enters hsend _ hnew hold =>
    exact h.enter haccounts hpos rfl (entered_append rfl (Channel.trySend_queue hsend)) hnew hold
      rfl rfl
  | cancels | forwarded | finishes | moves => exact h.of_same rfl rfl rfl rfl rfl
  | @passes cmd ingress _ hqueue =>
    have hpass : (b.pass cmd ingress).Tally := h.of_same rfl (entered_pass hqueue) rfl rfl rfl
    exact hpass.relays (dispatch_relays ..)
  | forwards hforwards hnext =>
    exact (h.forward haccounts hforwards hnext).of_same rfl rfl rfl rfl rfl
  | @acknowledges i t _ hi hphase =>
    have ht : t < b.passed.length := haccounts.lt_passed hi (by simp [SenderNode.owes, hphase])
    exact Tally.completeOne (h.of_same rfl rfl rfl rfl rfl) hi (ht.trans_le b.passed_le_entered)

end RemoteBackend

end RustPbx.Sipflow
