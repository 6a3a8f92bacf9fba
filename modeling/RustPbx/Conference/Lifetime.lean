import RustPbx.Conference.Manager

/-!
How long the rooms of the conference manager live.

A room is destroyed without a request when the last participant has left, or by a watchdog that
finds it empty or with a lone member. Watchdogs outlive the rooms that they were spawned for. What
each task relies on is its `Expects`.
-/

namespace RustPbx.Conference

open Function

def ConferenceRoom.Allows (grace now : Nat) (room : ConferenceRoom) : Origin → Prop
  | .request => True
  | .departure => room.participantCount = 0
  | .watchdog =>
    room.participantCount = 0 ∧ room.createdAt + grace ≤ now ∨
      room.participantCount = 1 ∧ room.hostLegId = none ∧ 2 ≤ room.maxParticipantsSeen ∧
        room.lastParticipantChange + grace ≤ now

structure ConferenceRoom.Dated (now : Nat) (room : ConferenceRoom) : Prop where
  created : room.createdAt ≤ room.lastParticipantChange
  changed : room.lastParticipantChange ≤ now

theorem ConferenceRoom.Dated.le {room : ConferenceRoom} (h : room.Dated now) :
    room.createdAt ≤ now :=
  Nat.le_trans h.created h.changed

/-- The departure leads to the destruction of an empty room. -/
def Departure.Empties (departure : Departure) : Prop :=
  departure.creatorLeft = false ∧ departure.remaining = 0

/-- The task is going to destroy the room, and nobody has asked for it. -/
def Task.Decided (conf : ConferenceId) : Task → Prop
  | .destroys .departure c | .destroys .watchdog c => c = conf
  | .unmixes c _ departure | .detachesLeg c _ departure | .unmapsLeg c _ departure
  | .winds c departure => c = conf ∧ departure.Empties
  | _ => False

/-- A room that is to be created was not called for in the future. -/
def Task.Started (now : Nat) : Task → Prop
  | .claims _ createdAt .. => createdAt ≤ now
  | _ => True

def Task.Expects (grace now : Nat) (conf : ConferenceId) (room : ConferenceRoom) : Task → Prop
  | .watchdog c wake => c = conf → room.createdAt + grace ≤ wake
  | .unmixes c _ departure | .detachesLeg c _ departure | .unmapsLeg c _ departure
  | .winds c departure => c = conf → departure.Empties → room.participantCount = 0
  | .destroys origin c => c = conf → room.Allows grace now origin
  | _ => True

/-! ## Changes of a room -/

section

variable {room : ConferenceRoom} {task : Task}

theorem ConferenceRoom.Allows.later (h : room.Allows grace now origin) (hnow : now ≤ now') :
    room.Allows grace now' origin := by
  cases origin with
  | request => trivial
  | departure => exact h
  | watchdog =>
    rcases h with ⟨hcount, hage⟩ | ⟨hcount, hhost, hseen, hage⟩
    · exact .inl ⟨hcount, Nat.le_trans hage hnow⟩
    · exact .inr ⟨hcount, hhost, hseen, Nat.le_trans hage hnow⟩

theorem Task.Expects.later (h : task.Expects grace now conf room) (hnow : now ≤ now') :
    task.Expects grace now' conf room := by
  cases task
  case destroys => exact fun hconf => (h hconf).later hnow
  all_goals exact h

theorem removeParticipant_ok (h : room.removeParticipant now leg = .ok room') :
    room'.participantCount + 1 = room.participantCount ∧
      room' = { room with participants := room'.participants, lastParticipantChange := now } := by
  unfold ConferenceRoom.removeParticipant at h
  split_ifs at h with hmem
  cases h
  exact ⟨Table.length_erase hmem, rfl⟩

section

variable (h : task.Expects grace now conf room)
include h

theorem Task.Expects.change (hcreated : room'.createdAt = room.createdAt)
    (hempty : task.Decided conf → room.participantCount = 0 → room'.participantCount = 0)
    (hallows : task = .destroys .watchdog conf → room.Allows grace now .watchdog →
      room'.Allows grace now .watchdog) : task.Expects grace now conf room' := by
  cases task
  case watchdog =>
    intro hconf
    rw [hcreated]
    exact h hconf
  case unmixes | detachesLeg | unmapsLeg | winds =>
    exact fun hconf hempties => hempty ⟨hconf, hempties⟩ (h hconf hempties)
  case destroys origin _ =>
    intro hconf
    cases origin with
    | request => trivial
    | departure => exact hempty hconf (h hconf)
    | watchdog => exact hallows (by rw [hconf]) (h hconf)
  all_goals trivial

theorem Task.Expects.leave (hdated : room.Dated now)
    (hroom : room.removeParticipant now leg = .ok room') :
    task.Expects grace now conf room' := by
  obtain ⟨hcount, heq⟩ := removeParticipant_ok hroom
  have hcreated : room'.createdAt = room.createdAt := by rw [heq]
  refine h.change hcreated (fun _ hnone => by omega) fun _ hallows => ?_
  rcases hallows with ⟨hnone, -⟩ | ⟨hone, -, -, hage⟩
  · omega
  · have := hdated.created
    exact .inl ⟨by omega, by omega⟩

theorem Task.Expects.join (hnot : ¬ task.Decided conf)
    (hcreated : room'.createdAt = room.createdAt) : task.Expects grace now conf room' := by
  refine h.change hcreated (fun hdecided => absurd hdecided hnot) ?_
  rintro rfl
  exact absurd rfl hnot

theorem Task.Expects.bind
    (hnot : task ≠ .destroys .watchdog conf) (hcreated : room'.createdAt = room.createdAt)
    (hcount : room'.participantCount = room.participantCount) :
    task.Expects grace now conf room' :=
  h.change hcreated (fun _ => hcount.trans) fun heq => absurd heq hnot

theorem Task.Expects.of_count (hcount : participants.entries.length = room.participantCount) :
    task.Expects grace now conf { room with focusUri, participants } := by
  refine h.change rfl (fun _ => hcount.trans) fun _ hallows => ?_
  rcases hallows with ⟨hnone, hage⟩ | ⟨hone, hrest⟩
  · exact .inl ⟨hcount.trans hnone, hage⟩
  · exact .inr ⟨hcount.trans hone, hrest⟩

end

theorem Task.Expects.create (hnot : task ≠ .destroys .watchdog conf)
    (hwake : ∀ wake, task = .watchdog conf wake → room.createdAt + grace ≤ wake)
    (hcount : room.participantCount = 0) : task.Expects grace now conf room := by
  cases task
  case watchdog wake =>
    rintro rfl
    exact hwake wake rfl
  case unmixes | detachesLeg | unmapsLeg | winds => exact fun _ _ => hcount
  case destroys origin _ =>
    rintro rfl
    cases origin with
    | request => trivial
    | departure => exact hcount
    | watchdog => exact absurd rfl hnot
  all_goals trivial

end

namespace ConferenceManager

variable {m : ConferenceManager}

/-- Nobody joins a room whose destruction is decided, no host is set for one that a watchdog is
about to destroy, and a name is used again only when no watchdog is about to destroy its room or
wakes up before the new room is old enough. -/
def Guarded (m : ConferenceManager) : Input → Prop
  | .run i _ =>
    match m.tasks i with
    | .joins conf _ => ∀ j, ¬ (m.tasks j).Decided conf
    | .claims conf createdAt .. => ∀ j, m.tasks j ≠ .destroys .watchdog conf ∧
      ∀ wake, m.tasks j = .watchdog conf wake → createdAt + m.emptyRoomGrace ≤ wake
    | _ => True
  | .bindTransferOwner conf _ _ => ∀ j, m.tasks j ≠ .destroys .watchdog conf
  | _ => True

structure Lawful (m : ConferenceManager) : Prop where
  started : ∀ i, (m.tasks i).Started m.now
  dated : ∀ conf state, m.conferences conf = some state → state.room.Dated m.now
  expects : ∀ i conf state, m.conferences conf = some state →
    (m.tasks i).Expects m.emptyRoomGrace m.now conf state.room

section

variable {conf : ConferenceId}

section

variable (h : m.Lawful)
include h

theorem Lawful.aside {a l c n e} : Lawful { m with
    legAttachments := a, legToConference := l, cancelled := c, nextToken := n, ended := e } :=
  ⟨h.started, h.dated, h.expects⟩

theorem Lawful.setTask (hstarted : task.Started m.now) (hexpects : ∀ c s, m.conferences c = some s →
      task.Expects m.emptyRoomGrace m.now c s.room) : (m.setTask i task).Lawful := by
  refine ⟨(forall_update_iff m.tasks fun _ t => t.Started m.now).mpr
    ⟨hstarted, fun j _ => h.started j⟩, h.dated, ?_⟩
  exact (forall_update_iff m.tasks fun _ t => ∀ c s, m.conferences c = some s →
    t.Expects m.emptyRoomGrace m.now c s.room).mpr ⟨hexpects, fun j _ => h.expects j⟩

theorem Lawful.setTask_free (hstarted : task.Started m.now)
    (hexpects : ∀ c room, task.Expects m.emptyRoomGrace m.now c room) : (m.setTask i task).Lawful :=
  h.setTask hstarted fun c s _ => hexpects c s.room

theorem Lawful.setConference (hstate : ∀ state ∈ state?, state.room.Dated m.now ∧
      ∀ j, (m.tasks j).Expects m.emptyRoomGrace m.now conf state.room) :
    (m.setConference conf state?).Lawful := by
  have hall := (forall_update_iff m.conferences fun c state? => ∀ state ∈ state?,
    state.room.Dated m.now ∧ ∀ j, (m.tasks j).Expects m.emptyRoomGrace m.now c state.room).mpr
      ⟨hstate, fun c _ s hs => ⟨h.dated c s hs, fun j => h.expects j c s hs⟩⟩
  exact ⟨h.started, fun c s hs => (hall c s hs).1, fun j c s hs => (hall c s hs).2 j⟩

theorem Lawful.setRoom (hdated : room.Dated m.now)
    (hexpects : ∀ j, (m.tasks j).Expects m.emptyRoomGrace m.now conf room) :
    (m.setRoom conf state room).Lawful := by
  refine h.setConference fun s hs => ?_
  cases hs
  exact ⟨hdated, hexpects⟩

theorem Lawful.fail (error : ConferenceError) : (m.fail i error).Lawful :=
  h.setTask_free trivial fun _ _ => trivial

theorem Lawful.finish : (m.finish i).Lawful :=
  h.setTask_free trivial fun _ _ => trivial

theorem Lawful.setToken (conf : ConferenceId) (token : Nat) : Lawful { m with
      conferences := update m.conferences conf
        ((m.conferences conf).map fun state => { state with token := some token })
      nextToken := token + 1 } := by
  have hset : (m.setConference conf ((m.conferences conf).map fun state =>
      { state with token := some token })).Lawful := by
    refine h.setConference fun s hs => ?_
    obtain ⟨s', hs', rfl⟩ := Option.map_eq_some_iff.mp hs
    exact ⟨h.dated conf s' hs', fun j => h.expects j conf s' hs'⟩
  exact hset.aside

/-! ## Steps -/

theorem Lawful.claim (htask : m.tasks i = .claims conf createdAt capacity host duration)
    (hC : ∀ j, m.tasks j ≠ .destroys .watchdog conf ∧
      ∀ wake, m.tasks j = .watchdog conf wake → createdAt + m.emptyRoomGrace ≤ wake) :
    (m.claim i conf (.new createdAt capacity host) duration).Lawful := by
  unfold ConferenceManager.claim
  split
  · have hnew (state : ConferenceState) :
        (m.setRoom conf state (.new createdAt capacity host)).Lawful := by
      apply h.setRoom
      · have hstarted := h.started i
        rw [htask] at hstarted
        exact ⟨le_rfl, hstarted⟩
      · exact fun j => .create (hC j).1 (hC j).2 rfl
    apply Lawful.setTask_free (hnew { room := .new createdAt capacity host })
    · cases duration <;> trivial
    · cases duration <;> exact fun _ _ => trivial
  · exact h.fail _

theorem Lawful.spawn (hstep : m.spawn child task = some m') (hstarted : task.Started m.now)
    (hexpects : ∀ c s, m.conferences c = some s → task.Expects m.emptyRoomGrace m.now c s.room) :
    m'.Lawful := by
  unfold ConferenceManager.spawn at hstep
  split at hstep
  · cases hstep
    exact h.setTask hstarted hexpects
  · cases hstep
    exact h.setTask hstarted hexpects
  · cases hstep

theorem Lawful.spawnWatchdog (hstep : m.spawnWatchdog i conf child = some m') : m'.Lawful := by
  have hset : (m.setTask i (.returnsRoom conf)).Lawful := h.setTask_free trivial fun _ _ => trivial
  simp only [ConferenceManager.spawnWatchdog] at hstep
  split_ifs at hstep
  · cases hstep
    exact hset
  · apply hset.spawn hstep trivial
    intro c s hs _
    exact Nat.add_le_add_right (h.dated c s hs).le _

theorem Lawful.spawnTimer (hstep : m.spawnTimer i conf duration child = some m') : m'.Lawful := by
  have hset := h.setToken conf m.nextToken
  have hset : (ConferenceManager.setTask i (.spawnsWatchdog conf) _).Lawful :=
    hset.setTask_free trivial fun _ _ => trivial
  exact hset.spawn hstep trivial fun _ _ _ => trivial

theorem Lawful.sweep (htask : m.tasks i = .watchdog conf wake)
    (hstep : m.sweep i conf wake = some m') : m'.Lawful := by
  unfold ConferenceManager.sweep at hstep
  split_ifs at hstep with hwake
  split at hstep
  · cases hstep
    exact h.finish
  · next state hstate =>
    have hexpects := h.expects i conf state hstate
    rw [htask] at hexpects
    have hage : state.room.createdAt + m.emptyRoomGrace ≤ wake := hexpects rfl
    split_ifs at hstep with hverdict
    · cases hstep
      refine h.setTask (by trivial) ?_
      rintro c s hs rfl
      rw [hstate] at hs
      cases hs
      simp only [verdict, decide_eq_true_eq] at hverdict
      rcases hverdict with hnone | ⟨hone, hhost, hseen, hidle⟩
      · exact .inl ⟨hnone, Nat.le_trans hage hwake⟩
      · have := (h.dated _ _ hstate).changed
        exact .inr ⟨hone, hhost, hseen, by omega⟩
    · cases hstep
      refine h.setTask (by trivial) ?_
      intro c s hs _
      exact Nat.add_le_add_right (h.dated c s hs).le _

theorem Lawful.destroy (hstep : m.destroy i conf order = some m') : m'.Lawful := by
  unfold ConferenceManager.destroy at hstep
  split at hstep
  · cases hstep
    exact h.finish
  · split_ifs at hstep
    cases hstep
    have hgone : (m.setConference conf none).Lawful := h.setConference nofun
    have hset : ((m.setConference conf none).setTask i (visit conf order)).Lawful := by
      apply hgone.setTask_free
      · cases order <;> trivial
      · cases order <;> exact fun _ _ => trivial
    exact hset.aside

end

theorem addParticipant_ok {now : Nat} {room : ConferenceRoom}
    (h : room.addParticipant now leg = .ok room') :
    room'.createdAt = room.createdAt ∧ room'.lastParticipantChange = now := by
  unfold ConferenceRoom.addParticipant at h
  split_ifs at h
  cases h
  exact ⟨rfl, rfl⟩

theorem Lawful.join (h : m.Lawful) (hC : ∀ j, ¬ (m.tasks j).Decided conf) :
    (m.join i conf leg).Lawful := by
  unfold ConferenceManager.join
  split
  · exact h.fail _
  · next state hstate =>
    split
    · exact h.fail _
    · next room hroom =>
      obtain ⟨hcreated, hchanged⟩ := addParticipant_ok hroom
      have hset : (m.setRoom conf state room).Lawful := by
        apply h.setRoom
        · constructor
          · rw [hcreated, hchanged]
            exact (h.dated conf state hstate).le
          · exact Nat.le_of_eq hchanged
        · exact fun j => (h.expects j conf state hstate).join (hC j) hcreated
      exact hset.setTask_free trivial fun _ _ => trivial

theorem Lawful.leave (h : m.Lawful) : (m.leave i conf leg).Lawful := by
  unfold ConferenceManager.leave
  split
  · exact h.fail _
  · next state hstate =>
    split
    · exact h.fail _
    · next room hroom =>
      have hdated := h.dated conf state hstate
      obtain ⟨-, heq⟩ := removeParticipant_ok hroom
      have hset : (m.setRoom conf state room).Lawful := by
        apply h.setRoom
        · rw [heq]
          exact ⟨hdated.le, le_rfl⟩
        · exact fun j => (h.expects j conf state hstate).leave hdated hroom
      refine hset.setTask (by trivial) ?_
      rintro c s hs rfl ⟨-, hremaining⟩
      simp only [ConferenceManager.setRoom, ConferenceManager.setConference, update_self] at hs
      cases hs
      exact hremaining

theorem Lawful.windUp (h : m.Lawful) (htask : m.tasks i = .winds conf departure)
    (hstep : m.windUp i conf departure child = some m') : m'.Lawful := by
  have hnotify : (m.notify departure.owner conf).Lawful := ⟨h.started, h.dated, h.expects⟩
  simp only [ConferenceManager.windUp] at hstep
  split_ifs at hstep with hcreator hremaining
  · cases hstep
    exact h.setTask_free trivial fun _ _ _ => trivial
  · apply hnotify.finish.spawn hstep trivial
    intro c s hs hconf
    have hexpects := h.expects i c s hs
    rw [htask] at hexpects
    exact hexpects hconf ⟨by simpa using hcreator, hremaining⟩
  · cases hstep
    exact hnotify.finish

theorem Lawful.modifyRoom (h : m.Lawful)
    (hf : ∀ room room', f room = some room' → room'.createdAt = room.createdAt ∧
      room'.lastParticipantChange = room.lastParticipantChange ∧
      ∀ j, (m.tasks j).Expects m.emptyRoomGrace m.now conf room →
        (m.tasks j).Expects m.emptyRoomGrace m.now conf room') :
    (m.modifyRoom conf f).Lawful := by
  unfold ConferenceManager.modifyRoom
  split
  · exact h
  · next state hstate =>
    split
    · exact h
    · next room hroom =>
      obtain ⟨hcreated, hchanged, hexpects⟩ := hf _ _ hroom
      obtain ⟨hle, hnow⟩ := h.dated conf state hstate
      apply h.setRoom
      · exact ⟨by rwa [hcreated, hchanged], by rwa [hchanged]⟩
      · exact fun j => hexpects j (h.expects j conf state hstate)

end

theorem Lawful.run (h : m.Lawful) (hC : m.Guarded (.run i choice))
    (hstep : m.runTask i choice = some m') : m'.Lawful := by
  have hfree {task : Task} (hstarted : task.Started m.now)
      (hexpects : ∀ c room, task.Expects m.emptyRoomGrace m.now c room) :
      (m.setTask i task).Lawful := h.setTask_free hstarted hexpects
  have hexpects := h.expects i
  simp only [Guarded] at hC
  unfold runTask at hstep
  cases htask : m.tasks i <;> simp only [htask] at hC hstep hexpects
  case idle | finished => cases hstep
  case claims =>
    cases hstep
    exact h.claim htask hC
  case spawnsTimer => exact h.spawnTimer hstep
  case spawnsWatchdog => exact h.spawnWatchdog hstep
  case returnsRoom =>
    cases hstep
    unfold returnRoom
    split
    · exact h.finish
    · exact h.fail _
  case timer =>
    unfold runTimer at hstep
    split_ifs at hstep
    · cases hstep
      exact h.finish
    · cases hstep
      exact hfree trivial fun _ _ _ => trivial
  case watchdog => exact h.sweep htask hstep
  case destroys => exact h.destroy hstep
  case unmaps | attaches =>
    cases hstep
    exact h.aside.setTask_free trivial fun _ _ => trivial
  case detaches rest =>
    cases hstep
    cases rest <;> exact h.aside.setTask_free trivial fun _ _ => trivial
  case stopsMixer =>
    cases hstep
    exact h.finish
  case asksHost =>
    cases hstep
    unfold askHost
    split
    · exact h.fail _
    · split_ifs
      · exact hfree trivial fun _ _ _ => trivial
      · exact h.fail _
  case checks =>
    cases hstep
    unfold check
    split
    · split_ifs
      · exact h.fail _
      · exact hfree trivial fun _ _ => trivial
    · exact hfree trivial fun _ _ => trivial
  case joins =>
    cases hstep
    exact h.join hC
  case mixes =>
    cases hstep
    split_ifs
    · exact hfree trivial fun _ _ => trivial
    · exact h.fail _
  case maps =>
    cases hstep
    exact h.aside.finish
  case looksUp =>
    cases hstep
    unfold lookUp
    split
    · exact h.finish
    · exact hfree trivial fun _ _ => trivial
  case leaves =>
    cases hstep
    exact h.leave
  case unmixes =>
    cases hstep
    split_ifs
    · exact h.setTask (by trivial) hexpects
    · exact h.fail _
  case detachesLeg | unmapsLeg =>
    cases hstep
    exact h.aside.setTask trivial hexpects
  case winds => exact h.windUp htask hstep

theorem Lawful.call {operation : Operation} (h : m.Lawful)
    (hstep : m.spawn i (operation.task m.now) = some m') : m'.Lawful := by
  apply h.spawn hstep
  · cases operation <;> first | exact le_rfl | trivial
  · intro c s hs
    cases operation
    case create | endByHost | add | remove | removeLegFromAll => trivial
    case destroy => exact fun _ => trivial

theorem Lawful.step (h : m.Lawful) (hC : m.Guarded input) (hstep : m.step input = some m') :
    m'.Lawful := by
  cases input with
  | tick elapsed =>
    cases hstep
    have hle : m.now ≤ m.now + elapsed := Nat.le_add_right ..
    constructor
    · intro i
      have hstarted := h.started i
      cases htask : m.tasks i <;> rw [htask] at hstarted
      case claims => exact Nat.le_trans hstarted hle
      all_goals trivial
    · intro c s hs
      obtain ⟨hcreated, hchanged⟩ := h.dated c s hs
      exact ⟨hcreated, Nat.le_trans hchanged hle⟩
    · exact fun j c s hs => (h.expects j c s hs).later hle
  | call i operation => exact h.call hstep
  | run i choice => exact h.run hC hstep
  | setFocus conf uri =>
    cases hstep
    apply h.modifyRoom
    rintro room _ ⟨⟩
    exact ⟨rfl, rfl, fun j hj => hj.of_count rfl⟩
  | bindTransferOwner conf caller peer =>
    cases hstep
    apply h.modifyRoom
    intro room room' hroom
    simp only [bindOwner] at hroom
    split_ifs at hroom
    cases hroom
    exact ⟨rfl, rfl, fun j hj => hj.bind (hC j) rfl rfl⟩
  | bindParticipantSession conf leg session =>
    cases hstep
    apply h.modifyRoom
    intro room room' hroom
    simp only [bindSession] at hroom
    split_ifs at hroom with hmem
    cases hroom
    exact ⟨rfl, rfl, fun j hj => hj.of_count (Table.length_insert_of_mem hmem)⟩

theorem Start.lawful (h : m.Start) : m.Lawful := by
  constructor
  · intro i
    rw [h.tasks i]
    trivial
  · intro conf state hstate
    rw [h.conferences conf] at hstate
    cases hstate
  · intro i conf state _
    rw [h.tasks i]
    trivial

theorem Runs.lawful (hruns : Runs Guarded m m') (hstart : m.Start) : m'.Lawful := by
  induction hruns with
  | refl => exact hstart.lawful
  | tail _ hstep ih =>
    obtain ⟨input, hC, hstep⟩ := hstep
    exact ih.step hC hstep

/-- **A room that is destroyed without a request may be destroyed by the rule**, from the decision
on, in every `Guarded` run. -/
theorem destroys_lawfully (m m' : ConferenceManager) (hstart : m.Start)
    (hruns : Runs Guarded m m') (i : Nat) (origin : Origin) (conf : ConferenceId)
    (state : ConferenceState) (htask : m'.tasks i = .destroys origin conf)
    (hstate : m'.conferences conf = some state) :
    state.room.Allows m'.emptyRoomGrace m'.now origin := by
  have hexpects := (hruns.lawful hstart).expects i conf state hstate
  rw [htask] at hexpects
  exact hexpects rfl

def watched : ConferenceManager where
  emptyRoomGrace := 60

theorem start_watched : watched.Start :=
  ⟨fun _ => rfl, fun _ => rfl, fun _ => rfl, fun _ => rfl⟩

/-- A room that nobody joins is destroyed after a minute. -/
theorem destroys_lawfully_unused : ∃ m state, Runs Guarded watched m ∧
    m.tasks 1 = .destroys .watchdog "room" ∧ m.conferences "room" = some state ∧
    state.room.Allows m.emptyRoomGrace m.now .watchdog := by
  have hcalled : Runs Guarded watched _ :=
    .next (.call 0 (.create "room" none none none)) .refl rfl trivial
  have hclaimed := hcalled.next (.run 0 {}) rfl (by rintro (_ | j) <;> exact ⟨nofun, nofun⟩)
  have hspawned := hclaimed.next (.run 0 { child := 1 }) rfl trivial
  have hdecided := (hspawned.next (.tick 60) rfl trivial).next (.run 1 {}) rfl trivial
  exact ⟨_, _, hdecided, rfl, rfl, destroys_lawfully _ _ start_watched hdecided 1 _ _ _ rfl rfl⟩

/-- The watchdog of a room that was destroyed on request destroys a room of the same name that is
ten seconds old. -/
theorem young_room_destroyed : ∃ m m' state, Runs (fun _ _ => True) watched m ∧
    m.tasks 1 = .destroys .watchdog "room" ∧ m.conferences "room" = some state ∧
    state.room.createdAt = 50 ∧ m.now = 60 ∧ ¬ state.room.Allows m.emptyRoomGrace m.now .watchdog ∧
    m.step (.run 1 {}) = some m' ∧ m'.conferences "room" = none := by
  refine ⟨_, _, _, runs_play
    [.call 0 (.create "room" none none none), .run 0 {}, .run 0 { child := 1 }, .run 0 {},
      .tick 10, .call 0 (.destroy "room"), .run 0 {}, .run 0 {},
      .tick 40, .call 0 (.create "room" none none none), .run 0 {}, .run 0 { child := 2 },
      .tick 10, .run 1 {}] rfl, rfl, rfl, rfl, rfl, ?_, rfl, rfl⟩
  rintro (⟨-, hage⟩ | ⟨hone, -⟩)
  · exact absurd hage (by decide)
  · cases hone

end ConferenceManager

end RustPbx.Conference
