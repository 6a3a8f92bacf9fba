import RustPbx.Sipflow.Countdown

/-!
What has been sent when a flush barrier completes.

Commands keep their order in the ingress and in the channels, and a sender has sent its batch before
it acknowledges a barrier. So a node that took the barrier has sent all the packets that it took
before.
-/

namespace RustPbx.Sipflow

/-! ## The packets of a node -/

namespace SenderNode

variable {node : SenderNode}

def Handed (node : SenderNode) (stamp : Nat) (packet : Packet) : Prop :=
  ∃ d ∈ node.sent, (stamp, packet) ∈ d.packets

/-- The commands are in order, and the packets taken are sent or in the batch, which is empty while
a barrier is being acknowledged. -/
structure Ok (node : SenderNode) : Prop where
  sorted : node.accepted.Pairwise fun c c' => c.1 < c'.1
  taken : ∀ stamp packet, (stamp, .packet packet) ∈ node.taken →
    node.Handed stamp packet ∨ (stamp, packet) ∈ node.batch
  acknowledges : ∀ token, node.phase = .acknowledges token →
    node.batch = [] ∧ ∃ cmd, (token, cmd) ∈ node.taken

/-- The same commands, and at least as much sent. -/
structure Grows (node node' : SenderNode) : Prop where
  accepted : node'.accepted = node.accepted
  handed : ∀ stamp packet, node.Handed stamp packet → node'.Handed stamp packet

theorem handed_sendBatch (h : node.Handed stamp packet ∨ (stamp, packet) ∈ node.batch) :
    (node.sendBatch mtu).Handed stamp packet := by
  rcases h with ⟨d, hd, hmem⟩ | hbatch
  · exact ⟨d, List.mem_append_left _ hd, hmem⟩
  · obtain ⟨d, hd, hmem⟩ := mem_flushBatch hbatch
    exact ⟨d, List.mem_append_right _ hd, hmem⟩

theorem Ok.sendBatch (h : node.Ok) : (node.sendBatch mtu).Ok where
  sorted := h.sorted
  taken stamp packet hmem := .inl (handed_sendBatch (h.taken stamp packet hmem))
  acknowledges token hphase := ⟨rfl, (h.acknowledges token hphase).2⟩

theorem handed_push (h : node.Handed stamp packet) :
    (node.push mtu stamp' packet').Handed stamp packet := by
  simp only [push]
  split
  · exact handed_sendBatch (.inl h)
  · exact h

theorem mem_batch_push (h : (stamp, packet) ∈ node.batch) :
    (node.push mtu stamp' packet').Handed stamp packet ∨
      (stamp, packet) ∈ (node.push mtu stamp' packet').batch := by
  simp only [push]
  split
  · exact .inl (handed_sendBatch (.inr h))
  · exact .inr (List.mem_append_left _ h)

theorem mem_batch_push_self : (stamp, packet) ∈ (node.push mtu stamp packet).batch :=
  List.mem_append_right _ (List.mem_singleton_self _)

theorem Ok.receive (h : node.Ok) (hphase : node.phase = .waiting)
    (hreceive : node.receive mtu = some node') : node'.Ok ∧ node.Grows node' := by
  obtain ⟨⟨stamp, cmd⟩, channel, hqueue, rfl⟩ := receive_eq hreceive
  have haccepted : (handle mtu { node with channel, taken := node.taken ++ [(stamp, cmd)] }
      (stamp, cmd)).accepted = node.accepted := by
    simp [accepted, handle_channel, handle_taken, hqueue]
  cases cmd with
  | packet packet =>
    refine ⟨⟨haccepted ▸ h.sorted, fun stamp' packet' hmem => ?_, fun token hphase' => ?_⟩,
      haccepted, fun stamp' packet' hhanded => handed_push hhanded⟩
    · rw [handle_taken] at hmem
      rcases List.mem_append.mp hmem with hmem | hmem
      · rcases h.taken stamp' packet' hmem with hhanded | hbatch
        · exact .inl (handed_push hhanded)
        · exact mem_batch_push hbatch
      · cases List.mem_singleton.mp hmem
        exact .inr mem_batch_push_self
    · rw [handle_packet_phase, hphase] at hphase'
      cases hphase'
  | flushBarrier t =>
    refine ⟨⟨haccepted ▸ h.sorted, fun stamp' packet' hmem => .inl ?_, fun token hphase' => ?_⟩,
      haccepted, fun stamp' packet' hhanded => handed_sendBatch (.inl hhanded)⟩
    · rcases List.mem_append.mp hmem with hmem | hmem
      · exact handed_sendBatch (h.taken stamp' packet' hmem)
      · cases List.mem_singleton.mp hmem
    · cases hphase'
      exact ⟨rfl, .flushBarrier t, List.mem_append_right _ (List.mem_singleton_self _)⟩

theorem Ok.bind (h : node.Ok) : Ok { node with phase := .waiting } where
  sorted := h.sorted
  taken := h.taken
  acknowledges _ hphase := by cases hphase

theorem Ok.drop (h : node.Ok) : node.drop.Ok where
  sorted := h.sorted
  taken := h.taken
  acknowledges _ hphase := by cases hphase

theorem Ok.move (h : node.Ok) (hmove : node.Move mtu input node') :
    node'.Ok ∧ node.Grows node' := by
  cases hmove with
  | bind => exact ⟨h.bind, rfl, fun _ _ hhanded => hhanded⟩
  | bindFails => exact ⟨h.drop, rfl, fun _ _ hhanded => hhanded⟩
  | receive hphase hreceive => exact h.receive hphase hreceive
  | timeout => exact ⟨h.sendBatch, rfl, fun _ _ hhanded => handed_sendBatch (.inl hhanded)⟩
  | finish => exact ⟨h.sendBatch.drop, rfl, fun _ _ hhanded => handed_sendBatch (.inl hhanded)⟩

theorem Ok.handed_of_acknowledges (h : node.Ok) (hphase : node.phase = .acknowledges token)
    (hmem : (stamp, .packet packet) ∈ node.accepted) (hlt : stamp < token) :
    node.Handed stamp packet := by
  obtain ⟨hbatch, cmd, htoken⟩ := h.acknowledges token hphase
  rcases List.mem_append.mp hmem with htaken | hqueue
  · simpa [hbatch] using h.taken stamp packet htaken
  · have hafter := (List.pairwise_append.mp h.sorted).2.2 _ htoken _ hqueue
    exact absurd hafter (by simpa using hlt.le)

theorem Ok.push {channel : Channel (Nat × NodeCommand)} (h : node.Ok)
    (hqueue : channel.queue = node.channel.queue ++ [c])
    (hlast : ∀ c' ∈ node.accepted, c'.1 < c.1) : Ok { node with channel } where
  sorted := by
    have haccepted : accepted { node with channel } = node.accepted ++ [c] := by
      simp [accepted, hqueue]
    rw [haccepted, List.pairwise_append]
    exact ⟨h.sorted, List.pairwise_singleton _ _, fun c' hc' d hd => by
      cases List.mem_singleton.mp hd
      exact hlast c' hc'⟩
  taken := h.taken
  acknowledges := h.acknowledges

end SenderNode

/-! ## The order of the commands -/

namespace RemoteBackend

variable {b b' : RemoteBackend}

/-- The commands of node `i` are below this number. -/
def frontier (b : RemoteBackend) (i : Nat) : Nat :=
  match b.dispatcher with
  | .forwards token next => if next ≤ i then token else b.passed.length
  | _ => b.passed.length

structure Ordered (b : RemoteBackend) : Prop where
  nodes : ∀ i, (b.nodes i).Ok
  below : ∀ i, ∀ c ∈ (b.nodes i).accepted, c.1 < b.frontier i
  forwards : ∀ token next, b.dispatcher = .forwards token next → token < b.passed.length

theorem Ordered.frontier_le (h : b.Ordered) : b.frontier i ≤ b.passed.length := by
  unfold frontier
  split
  · next token next hforwards =>
    split_ifs
    · exact (h.forwards token next hforwards).le
    · exact le_rfl
  · exact le_rfl

variable {stamp : Nat} {ingress : Channel Command}

theorem trySend_ok (hok : ∀ j, (b.nodes j).Ok) (hlast : ∀ c ∈ (b.nodes i).accepted, c.1 < stamp)
    (cmd : NodeCommand) (j : Nat) : ((b.trySend i stamp cmd).2.nodes j).Ok ∧
      ∀ c ∈ ((b.trySend i stamp cmd).2.nodes j).accepted,
        c ∈ (b.nodes j).accepted ∨ j = i ∧ c = (stamp, cmd) := by
  obtain ⟨channel, hqueue, hsend⟩ | hsend := trySend_cases i stamp cmd b
  · rw [hsend]
    rcases eq_or_ne j i with rfl | hj
    · simp only [setNode, Function.update_self]
      refine ⟨(hok j).push hqueue hlast, fun c hc => ?_⟩
      simp only [SenderNode.accepted, hqueue, ← List.append_assoc] at hc
      rcases List.mem_append.mp hc with hc | hc
      · exact .inl hc
      · exact .inr ⟨trivial, List.mem_singleton.mp hc⟩
    · simp only [setNode, Function.update_of_ne hj]
      exact ⟨hok j, fun c hc => .inl hc⟩
  · rw [hsend]
    exact ⟨hok j, fun c hc => .inl hc⟩

theorem frontier_eq_passed (h : ∀ token next, b.dispatcher ≠ .forwards token next) :
    b.frontier i = b.passed.length := by
  unfold frontier
  split
  · next token next hforwards => exact absurd hforwards (h token next)
  · rfl

theorem trySend_ordered (hidle : b.dispatcher = .idle) (hok : ∀ j, (b.nodes j).Ok)
    (hlast : ∀ j, ∀ c ∈ (b.nodes j).accepted, c.1 < stamp) (hstamp : stamp < b.passed.length) :
      (b.trySend i stamp cmd).2.Ordered := by
  have hidle' := (dispatcher_trySend i stamp cmd b).trans hidle
  have hpassed := (trySend_relays i stamp cmd b).passed
  refine ⟨fun j => (trySend_ok hok (hlast i) cmd j).1, fun j c hc => ?_, fun token next => ?_⟩
  · rw [frontier_eq_passed (by simp [hidle']), hpassed]
    rcases (trySend_ok hok (hlast i) cmd j).2 c hc with hold | ⟨-, rfl⟩
    · exact (hlast j c hold).trans hstamp
    · exact hstamp
  · simp [hidle']

theorem Ordered.pass (h : b.Ordered) (hidle : b.dispatcher = .idle) :
    (dispatch b.passed.length (b.pass cmd ingress) cmd).Ordered := by
  have hbelow (i : Nat) (c) (hc : c ∈ (b.nodes i).accepted) : c.1 < b.passed.length := by
    have hlt := h.below i c hc
    rwa [frontier_eq_passed (by simp [hidle])] at hlt
  cases cmd with
  | flushBarrier t =>
    refine ⟨h.nodes, fun i c hc => ?_, fun token next hforwards => ?_⟩
    · simpa [frontier, dispatch] using hbelow i c hc
    · cases hforwards
      simp [dispatch, RemoteBackend.pass]
  | recordItem callId item =>
    simp only [dispatch]
    split
    · exact trySend_ordered (b := b.pass (.recordItem callId item) ingress) hidle h.nodes hbelow
        (by simp [RemoteBackend.pass])
    · refine ⟨h.nodes, fun j c hc => ?_, fun _ _ h => by cases h⟩
      rw [frontier_eq_passed (by simp [endDispatcher])]
      exact (hbelow j c hc).trans_le (by simp [endDispatcher, RemoteBackend.pass])

theorem nodes_forwardTo : (b.forwardTo t i).nodes = (b.trySend i t (.flushBarrier t)).2.nodes := by
  unfold forwardTo
  split <;> rename_i hsend <;> rw [hsend]
  rfl

theorem Ordered.lt_token (h : b.Ordered) (hforwards : b.dispatcher = .forwards t next) (c)
    (hc : c ∈ (b.nodes next).accepted) :
    c.1 < t := by
  simpa [frontier, hforwards] using h.below next c hc

theorem Ordered.forward (h : b.Ordered) (hforwards : b.dispatcher = .forwards t next) :
    Ordered { b.forwardTo t next with dispatcher := .forwards t (next + 1) } := by
  have ht := h.forwards t next hforwards
  have hok := trySend_ok h.nodes (h.lt_token hforwards) (.flushBarrier t)
  rw [← nodes_forwardTo] at hok
  have hpassed := (forwardTo_same t next b).1
  refine ⟨fun j => (hok j).1, fun j c hc => ?_, fun token next' hforwards' => ?_⟩
  · simp only [frontier, hpassed]
    rcases (hok j).2 c hc with hold | ⟨rfl, rfl⟩
    · have hlt := h.below j c hold
      simp only [frontier, hforwards] at hlt
      split_ifs at hlt ⊢ <;> omega
    · simpa using ht
  · cases hforwards'
    simpa [hpassed] using ht

theorem Ordered.setNode (h : b.Ordered) (hok : node.Ok)
    (haccepted : node.accepted = (b.nodes i).accepted) : (b.setNode i node).Ordered := by
  refine ⟨fun j => ?_, fun j c hc => ?_, h.forwards⟩
  · rcases eq_or_ne j i with rfl | hj
    · simpa [RemoteBackend.setNode] using hok
    · simpa [RemoteBackend.setNode, hj] using h.nodes j
  · rcases eq_or_ne j i with rfl | hj
    · simp only [RemoteBackend.setNode, Function.update_self, haccepted] at hc
      exact h.below j c hc
    · simp only [RemoteBackend.setNode, Function.update_of_ne hj] at hc
      exact h.below j c hc

theorem Ordered.of_same (h : b.Ordered) (hnodes : b'.nodes = b.nodes)
    (hpassed : b'.passed = b.passed) (hdispatcher : b'.dispatcher = b.dispatcher ∨
      ∀ token next, b'.dispatcher ≠ .forwards token next) : b'.Ordered := by
  refine ⟨fun i => hnodes ▸ h.nodes i, fun i c hc => ?_, fun token next hforwards => ?_⟩
  · rw [hnodes] at hc
    have hlt := h.below i c hc
    rcases hdispatcher with hdispatcher | hnone
    · simpa only [frontier, hdispatcher, hpassed] using hlt
    · rw [frontier_eq_passed hnone, hpassed]
      exact hlt.trans_le h.frontier_le
  · rcases hdispatcher with hdispatcher | hnone
    · rw [hpassed]
      exact h.forwards token next (hdispatcher ▸ hforwards)
    · exact absurd hforwards (hnone token next)

theorem Ordered.step (h : b.Ordered) (heffect : b.Effect input b') : b'.Ordered := by
  cases heffect with
  | refused => exact h
  | enters | cancels => exact h.of_same rfl rfl (.inl rfl)
  | passes hidle => exact h.pass hidle
  | forwards hforwards => exact h.forward hforwards
  | forwarded | finishes => exact h.of_same rfl rfl (.inr nofun)
  | @moves i _ _ _ hmove =>
    obtain ⟨hok, hgrows⟩ := (h.nodes i).move hmove
    exact h.setNode hok hgrows.accepted
  | @acknowledges i =>
    have hset := h.setNode (h.nodes i).bind rfl
    exact ⟨hset.nodes, hset.below, hset.forwards⟩

/-! ## What becomes of a packet -/

/-- Nothing is forgotten of what the nodes accepted, sent and refused. -/
structure Keeps (b b' : RemoteBackend) : Prop where
  nodeCount : b'.nodeCount = b.nodeCount
  clientId : b'.clientId = b.clientId
  accepted : ∀ i, (b.nodes i).accepted ⊆ (b'.nodes i).accepted
  handed : ∀ i stamp packet, (b.nodes i).Handed stamp packet → (b'.nodes i).Handed stamp packet
  refused : b.refused ⊆ b'.refused

theorem Keeps.of_same (hcount : b'.nodeCount = b.nodeCount) (hclient : b'.clientId = b.clientId)
    (hnodes : b'.nodes = b.nodes) (hrefused : b'.refused = b.refused) : b.Keeps b' :=
  ⟨hcount, hclient, fun i => by rw [hnodes]; exact List.Subset.refl _,
    fun i _ _ h => by rwa [hnodes], by rw [hrefused]; exact List.Subset.refl _⟩

theorem setNode_keeps (haccepted : (b.nodes i).accepted ⊆ node.accepted)
    (hhanded : ∀ stamp packet, (b.nodes i).Handed stamp packet → node.Handed stamp packet) :
    b.Keeps (b.setNode i node) := by
  refine ⟨rfl, rfl, fun j => ?_, fun j stamp packet h => ?_, List.Subset.refl _⟩
  · rcases eq_or_ne j i with rfl | hj
    · simpa [setNode] using haccepted
    · simp [setNode, hj]
  · rcases eq_or_ne j i with rfl | hj
    · simpa [setNode] using hhanded stamp packet h
    · simpa [setNode, hj] using h

theorem trySend_keeps (i stamp : Nat) (cmd : NodeCommand) (b : RemoteBackend) :
    b.Keeps (b.trySend i stamp cmd).2 ∧
      ((stamp, cmd) ∈ ((b.trySend i stamp cmd).2.nodes i).accepted ∨
        (stamp, i) ∈ (b.trySend i stamp cmd).2.refused) := by
  obtain ⟨channel, hqueue, hsend⟩ | hsend := trySend_cases i stamp cmd b
  · rw [hsend]
    have haccepted : SenderNode.accepted { b.nodes i with channel } =
        (b.nodes i).accepted ++ [(stamp, cmd)] := by
      simp [SenderNode.accepted, hqueue]
    refine ⟨setNode_keeps ?_ fun _ _ h => h, .inl ?_⟩
    · rw [haccepted]
      exact List.subset_append_left _ _
    · simp [setNode, haccepted]
  · rw [hsend]
    exact ⟨⟨rfl, rfl, fun _ => List.Subset.refl _, fun _ _ _ h => h, List.subset_cons_self _ _⟩,
      .inr (.head _)⟩

theorem Keeps.trans (h : b.Keeps b') (h' : b'.Keeps b'') : b.Keeps b'' :=
  ⟨h'.nodeCount.trans h.nodeCount, h'.clientId.trans h.clientId,
    fun i => List.Subset.trans (h.accepted i) (h'.accepted i),
    fun i stamp packet hhanded => h'.handed i stamp packet (h.handed i stamp packet hhanded),
    List.Subset.trans h.refused h'.refused⟩

theorem dispatch_keeps : b.Keeps (dispatch stamp b cmd) := by
  cases cmd with
  | recordItem callId item =>
    simp only [dispatch]
    split
    · exact (trySend_keeps ..).1
    · exact .of_same rfl rfl rfl rfl
  | flushBarrier t => exact .of_same rfl rfl rfl rfl

theorem pass_keeps (cmd : Command) (ingress : Channel Command) (b : RemoteBackend) :
    b.Keeps (dispatch b.passed.length (b.pass cmd ingress) cmd) := by
  have hpass : b.Keeps (b.pass cmd ingress) := .of_same rfl rfl rfl rfl
  exact hpass.trans (dispatch_keeps ..)

theorem forwardTo_keeps : b.Keeps (b.forwardTo t i) := by
  have hkeeps := (trySend_keeps i t (.flushBarrier t) b).1
  unfold forwardTo
  split <;> rename_i hsend <;> rw [hsend] at hkeeps
  · exact hkeeps
  · exact hkeeps.trans (.of_same rfl rfl rfl rfl)

theorem Ordered.keeps (h : b.Ordered) (heffect : b.Effect input b') : b.Keeps b' := by
  cases heffect with
  | refused | enters | cancels | forwarded | finishes => exact .of_same rfl rfl rfl rfl
  | passes => exact pass_keeps ..
  | forwards => exact (forwardTo_keeps ..).trans (.of_same rfl rfl rfl rfl)
  | @moves i _ _ _ hmove =>
    obtain ⟨-, hgrows⟩ := (h.nodes i).move hmove
    exact setNode_keeps (hgrows.accepted ▸ List.Subset.refl _) hgrows.handed
  | @acknowledges i =>
    have hset : b.Keeps (b.setNode i { b.nodes i with phase := .waiting }) :=
      setNode_keeps (List.Subset.refl _) fun _ _ h => h
    exact hset.trans (.of_same rfl rfl rfl rfl)

theorem Keeps.indexOf (h : b.Keeps b') (callId : String) (item : SipFlowItem) :
    b'.indexOf callId item = b.indexOf callId item := by
  simp only [RemoteBackend.indexOf, h.nodeCount, h.clientId]

/-- The item with the given number was accepted or refused by its node. -/
def RoutedAt (b : RemoteBackend) (stamp : Nat) (callId : String) (item : SipFlowItem) : Prop :=
  ∃ i, b.indexOf callId item = some i ∧
    ((stamp, .packet (buildPacket callId item b.clientId)) ∈ (b.nodes i).accepted ∨
      (stamp, i) ∈ b.refused)

theorem Keeps.routedAt (h : b.Keeps b') (hrouted : b.RoutedAt stamp callId item) :
    b'.RoutedAt stamp callId item := by
  obtain ⟨i, hi, hrouted⟩ := hrouted
  refine ⟨i, (h.indexOf callId item).trans hi, ?_⟩
  rw [h.clientId]
  exact hrouted.imp (fun hmem => h.accepted i hmem) fun hmem => h.refused hmem

/-- Items that have passed the dispatcher are routed, and the others will be. -/
structure Routed (b : RemoteBackend) : Prop where
  passed : ∀ stamp callId item, b.passed[stamp]? = some (.recordItem callId item) →
    b.RoutedAt stamp callId item
  waiting : ∀ callId item, .recordItem callId item ∈ b.ingress.queue →
    (b.indexOf callId item).isSome

theorem Routed.of_keeps (h : b.Routed) (hkeeps : b.Keeps b') (hpassed : b'.passed = b.passed)
    (hqueue : ∀ callId item, .recordItem callId item ∈ b'.ingress.queue →
      .recordItem callId item ∈ b.ingress.queue ∨ (b.indexOf callId item).isSome) : b'.Routed := by
  refine ⟨fun stamp callId item hget => ?_, fun callId item hmem => ?_⟩
  · rw [hpassed] at hget
    exact hkeeps.routedAt (h.passed stamp callId item hget)
  · rw [hkeeps.indexOf]
    exact (hqueue callId item hmem).elim (h.waiting callId item) id

theorem Routed.pass (h : b.Routed) (hqueue : b.ingress.queue = cmd :: ingress.queue) :
    (dispatch b.passed.length (b.pass cmd ingress) cmd).Routed := by
  have hkeeps := pass_keeps cmd ingress b
  have hrelays := dispatch_relays b.passed.length cmd (b.pass cmd ingress)
  refine ⟨fun stamp callId item hget => ?_, fun callId item hmem => ?_⟩
  · rw [hrelays.passed] at hget
    rcases lt_or_ge stamp b.passed.length with hlt | hge
    · rw [RemoteBackend.pass, List.getElem?_append_left hlt] at hget
      exact hkeeps.routedAt (h.passed stamp callId item hget)
    · -- The item is the one that has just been taken.
      rw [RemoteBackend.pass, List.getElem?_append_right hge, List.getElem?_singleton] at hget
      split_ifs at hget with hzero
      obtain rfl : cmd = .recordItem callId item := Option.some.inj hget
      obtain rfl : stamp = b.passed.length := by omega
      obtain ⟨i, hi⟩ := Option.isSome_iff_exists.mp (h.waiting callId item (hqueue ▸ .head _))
      refine ⟨i, (hkeeps.indexOf callId item).trans hi, ?_⟩
      have hi' : (b.pass (.recordItem callId item) ingress).indexOf callId item = some i := hi
      rw [hkeeps.clientId]
      simp only [dispatch, hi']
      exact (trySend_keeps ..).2
  · rw [hkeeps.indexOf]
    rw [hrelays.queue] at hmem
    exact h.waiting callId item (hqueue ▸ .tail _ hmem)

/-- Node `i` has refused the barrier, or sent all the packets that it accepted before it. -/
def ClearedAt (b : RemoteBackend) (token i : Nat) : Prop :=
  (token, i) ∈ b.refused ∨ ∀ stamp packet, (stamp, .packet packet) ∈ (b.nodes i).accepted →
    stamp < token → (b.nodes i).Handed stamp packet

def Cleared (b : RemoteBackend) : Prop :=
  ∀ token, ∀ i < b.nodeCount, 0 < b.acks token i → b.ClearedAt token i

theorem ClearedAt.of_keeps (h : b.ClearedAt token i) (hkeeps : b.Keeps b')
    (hnew : ∀ stamp packet, (stamp, .packet packet) ∈ (b'.nodes i).accepted →
      (stamp, .packet packet) ∈ (b.nodes i).accepted ∨ token ≤ stamp) : b'.ClearedAt token i := by
  refine h.imp (fun hmem => hkeeps.refused hmem) fun hall stamp packet hmem hlt => ?_
  rcases hnew stamp packet hmem with hold | hle
  · exact hkeeps.handed i stamp packet (hall stamp packet hold hlt)
  · exact absurd hlt (not_lt.mpr hle)

theorem Accounts.lt_of_acks (h : b.Accounts) (hi : i < b.nodeCount) (hacks : 0 < b.acks token i) :
    token < b.passed.length := by
  by_contra! hle
  have hone := h token (.inl hle) i hi
  simp only [owed, ahead, hle, if_true] at hone
  omega

theorem Cleared.of_keeps (h : b.Cleared) (haccounts : b.Accounts) (hkeeps : b.Keeps b')
    (hacks : b'.acks = b.acks)
    (hnew : ∀ i stamp packet, (stamp, .packet packet) ∈ (b'.nodes i).accepted →
      (stamp, .packet packet) ∈ (b.nodes i).accepted ∨ b.passed.length ≤ stamp) : b'.Cleared := by
  intro token i hi hpos
  rw [hkeeps.nodeCount] at hi
  rw [hacks] at hpos
  refine (h token i hi hpos).of_keeps hkeeps fun stamp packet hmem => ?_
  exact (hnew i stamp packet hmem).imp_right (haccounts.lt_of_acks hi hpos).le.trans

theorem Cleared.completeOne (h : b.Cleared) (hclear : b.ClearedAt t i) :
    (b.completeOne t i).Cleared := by
  intro token j hj hpos
  rw [acks_completeOne] at hpos
  split_ifs at hpos with heq
  · obtain ⟨rfl, rfl⟩ := heq
    exact hclear
  · exact h token j hj hpos

theorem Cleared.pass (h : b.Cleared) (haccounts : b.Accounts) (hordered : b.Ordered) :
    (dispatch b.passed.length (b.pass cmd ingress) cmd).Cleared := by
  refine h.of_keeps haccounts (pass_keeps cmd ingress b) (dispatch_relays ..).acks
    fun i stamp packet hmem => ?_
  cases cmd with
  | flushBarrier t => exact .inl hmem
  | recordItem callId item =>
    simp only [dispatch] at hmem
    split at hmem
    · next j hj =>
      have hlast (c) (hc : c ∈ (b.nodes j).accepted) : c.1 < b.passed.length :=
        (hordered.below j c hc).trans_le hordered.frontier_le
      rcases (trySend_ok (b := b.pass (.recordItem callId item) ingress) hordered.nodes hlast _
        i).2 _ hmem with hold | ⟨-, hnew⟩
      · exact .inl hold
      · exact .inr (by cases hnew; exact le_rfl)
    · exact .inl hmem

theorem Cleared.forward (h : b.Cleared) (haccounts : b.Accounts) (hordered : b.Ordered)
    (hforwards : b.dispatcher = .forwards t next) :
    (b.forwardTo t next).Cleared := by
  have hsent : (b.trySend next t (.flushBarrier t)).2.Cleared := by
    refine h.of_keeps haccounts (trySend_keeps ..).1 (trySend_relays ..).acks
      fun i stamp packet hmem => .inl ?_
    rcases (trySend_ok hordered.nodes (hordered.lt_token hforwards) _ i).2 _ hmem
      with hold | ⟨-, hnew⟩
    · exact hold
    · cases hnew
  obtain ⟨channel, -, hsend⟩ | hsend := trySend_cases next t (.flushBarrier t) b
  · simpa only [forwardTo, hsend] using hsent
  · rw [hsend] at hsent
    simp only [forwardTo, hsend]
    exact hsent.completeOne (.inl (.head _))

theorem mem_accepted_setNode (haccepted : node.accepted = (b.nodes i).accepted)
    (h : c ∈ ((b.setNode i node).nodes j).accepted) : c ∈ (b.nodes j).accepted := by
  rcases eq_or_ne j i with rfl | hj
  · simpa [setNode, haccepted] using h
  · simpa [setNode, hj] using h

theorem Cleared.setNode (h : b.Cleared) (haccounts : b.Accounts) (hgrows : (b.nodes i).Grows node) :
    (b.setNode i node).Cleared :=
  h.of_keeps haccounts (setNode_keeps (hgrows.accepted ▸ List.Subset.refl _) hgrows.handed) rfl
    fun _ _ _ hmem => .inl (mem_accepted_setNode hgrows.accepted hmem)

theorem Cleared.acknowledge (h : b.Cleared) (haccounts : b.Accounts) (hordered : b.Ordered)
    (hphase : (b.nodes i).phase = .acknowledges t) :
    ((b.setNode i { b.nodes i with phase := .waiting }).completeOne t i).Cleared := by
  have hgrows : (b.nodes i).Grows { b.nodes i with phase := .waiting } := ⟨rfl, fun _ _ h => h⟩
  have hclear : b.ClearedAt t i := .inr fun stamp packet hmem hlt =>
    (hordered.nodes i).handed_of_acknowledges hphase hmem hlt
  refine (h.setNode haccounts hgrows).completeOne (hclear.of_keeps
    (setNode_keeps (List.Subset.refl _) hgrows.handed) fun stamp packet hmem => .inl ?_)
  exact mem_accepted_setNode hgrows.accepted hmem

theorem Cleared.step (h : b.Cleared) (haccounts : b.Accounts) (hordered : b.Ordered)
    (heffect : b.Effect input b') : b'.Cleared := by
  cases heffect with
  | refused | enters | cancels | forwarded | finishes => exact h
  | passes => exact h.pass haccounts hordered
  | forwards hforwards => exact h.forward haccounts hordered hforwards
  | @moves i _ _ _ hmove => exact h.setNode haccounts ((hordered.nodes i).move hmove).2
  | acknowledges _ hphase => exact h.acknowledge haccounts hordered hphase

end RemoteBackend

end RustPbx.Sipflow
