import RustPbx.Conference.Leg
import RustPbx.Conference.Manager

/-!
Which rooms the legs of the conference manager are in.

Every `Undisturbed` step of the manager is, for each leg, a move of the protocol of
`RustPbx.Conference.Leg` or none at all.
-/

namespace RustPbx.Conference

open Function ConferenceRoom

def Task.stance (leg : LegId) : Task → Stance ConferenceId
  | .checks _ l => if l = leg then .checking else .none
  | .joins conf l => if l = leg then .joining conf else .none
  | .mixes conf l | .attaches conf l => if l = leg then .entering conf else .none
  | .maps conf l => if l = leg then .mapping conf else .none
  | .looksUp l | .leaves _ l => if l = leg then .removing else .none
  | .unmixes _ l _ | .detachesLeg _ l _ => if l = leg then .leaving else .none
  | .unmapsLeg _ l _ => if l = leg then .detached else .none
  | .unmaps _ l _ rest => if l = leg ∨ leg ∈ rest.map (·.1) then .leaving else .none
  | .detaches _ l _ rest =>
    if l = leg then .unmapped else if leg ∈ rest.map (·.1) then .leaving else .none
  | _ => .none

/-- The task goes from one stance on the leg to another, and is to the other legs what it was. -/
structure Task.Turns (task : Task) (l : LegId) (task' : Task) (s s' : Stance ConferenceId) :
    Prop where
  before : task.stance l = s
  after : task'.stance l = s'
  other : ∀ leg, l ≠ leg → task'.stance leg = task.stance leg

section

variable {t task task' : Task} {l : LegId}

theorem Task.Turns.of_only (ht : t = task)
    (h : ∀ leg, task.stance leg = if l = leg then s else .none)
    (h' : ∀ leg, task'.stance leg = if l = leg then s' else .none) : t.Turns l task' s s' :=
  ht ▸ ⟨(h l).trans (if_pos rfl), (h' l).trans (if_pos rfl), fun leg hne => by
    rw [h, h', if_neg hne, if_neg hne]⟩

theorem Task.Turns.ends (ht : t = task)
    (h : ∀ leg, task.stance leg = if l = leg then s else .none)
    (h' : ∀ leg, task'.stance leg = .none) : t.Turns l task' s .none :=
  .of_only ht h fun leg => (h' leg).trans (ite_self _).symm

end

namespace ConferenceManager

variable {m m' : ConferenceManager}

def view (m : ConferenceManager) (leg : LegId) : LegView Nat ConferenceId where
  stance i := (m.tasks i).stance leg
  member := m.Member leg
  mapping := m.legToConference leg
  attached := m.legAttachments leg

/-- No task is in the middle of an operation. -/
def Quiet (m : ConferenceManager) : Prop :=
  ∀ i, (m.tasks i).resting = true

/-- The mixer does not fail, an addition does not overlap with another operation on its leg, and no
room is taken down during the addition of a leg in it. -/
def Undisturbed (m : ConferenceManager) : Input → Prop
  | .call _ (.add _ leg) => ∀ j, (m.tasks j).stance leg = .none
  | .call _ (.remove _ leg) | .call _ (.removeLegFromAll leg) =>
    ∀ j, ¬ ((m.tasks j).stance leg).Adds
  | .run i choice =>
    match m.tasks i with
    | .mixes .. | .unmixes .. => choice.mixer = true
    | .destroys _ conf => ∀ j leg, ((m.tasks j).stance leg).Adds → ¬ m.Member leg conf
    | _ => True
  | _ => True

theorem view_setTask : (m.setTask i task).view leg = (m.view leg).set i (task.stance leg) := by
  simp only [view, LegView.set]
  congr 1
  funext j
  exact apply_update (fun _ t => Task.stance leg t) m.tasks i task j

theorem view_setTask_of_stance (h : task.stance leg = (m.tasks i).stance leg) :
    (m.setTask i task).view leg = m.view leg := by
  rw [view_setTask, h]
  simp only [LegView.set, view, update_eq_self]

/-- The step is none of the leg's business, or a move of its protocol. -/
def Follows (m m' : ConferenceManager) : Prop :=
  ∀ leg, m'.view leg = m.view leg ∨ ∃ i, (m.view leg).Move i (m'.view leg)

theorem Follows.of_same (h : ∀ leg, m'.view leg = m.view leg) : m.Follows m' :=
  fun leg => .inl (h leg)

theorem view_congr (htasks : m'.tasks = m.tasks)
    (hmember : ∀ conf, m'.Member leg conf ↔ m.Member leg conf)
    (hmapping : m'.legToConference leg = m.legToConference leg)
    (hattached : m'.legAttachments leg = m.legAttachments leg) : m'.view leg = m.view leg := by
  simp only [view, htasks, hattached]
  congr 1
  funext conf
  exact propext (hmember conf)

theorem member_iff (h : m.conferences conf = some state) :
    m.Member leg conf ↔ leg ∈ state.room.participants := by
  simp [Member, h]

theorem member_setConference : (m.setConference conf state).Member leg c ↔
      if c = conf then ∃ s, state = some s ∧ leg ∈ s.room.participants else m.Member leg c := by
  rcases eq_or_ne c conf with rfl | hne
  · simp [Member, setConference]
  · simp [Member, setConference, hne]

theorem view_setConference_eq (h : ∀ c, (m.setConference conf state).Member leg c ↔ P c) :
    (m.setConference conf state).view leg = { m.view leg with member := P } := by
  have hmember : (m.setConference conf state).Member leg = P := funext fun c => propext (h c)
  simp only [view, hmember]
  rfl

theorem view_setConference
    (h : (∃ s, state = some s ∧ leg ∈ s.room.participants) ↔ m.Member leg conf) :
    (m.setConference conf state).view leg = m.view leg := by
  refine view_congr rfl (fun c => ?_) rfl rfl
  rw [member_setConference]
  split_ifs with hc
  · rw [hc]
    exact h
  · exact Iff.rfl

theorem spawn_eq (h : m.spawn child task = some m') :
    m' = m.setTask child task ∧ ∀ leg, (m.tasks child).stance leg = .none := by
  unfold spawn at h
  split at h
  · next hidle =>
    cases h
    exact ⟨rfl, fun leg => by rw [hidle]; rfl⟩
  · next hfinished =>
    cases h
    exact ⟨rfl, fun leg => by rw [hfinished]; rfl⟩
  · cases h

theorem view_spawn (h : m.spawn child task = some m') (htask : task.stance leg = .none) :
    m'.view leg = m.view leg := by
  obtain ⟨rfl, hnone⟩ := spawn_eq h
  exact view_setTask_of_stance (htask.trans (hnone leg).symm)

theorem Follows.of_leg (hmove : (m.view l).Move i (m'.view l))
    (hother : ∀ leg, l ≠ leg → m'.view leg = m.view leg) : m.Follows m' := by
  intro leg
  rcases eq_or_ne l leg with rfl | hne
  · exact .inr ⟨i, hmove⟩
  · exact .inl (hother leg hne)

section

variable {i : Nat}

theorem setTask_follows (htasks : m'.tasks = m.tasks)
    (hmaps : ∀ leg, l ≠ leg → m'.view leg = m.view leg)
    (ht : (m.tasks i).Turns l task s₀ s)
    (hmove : (m.view l).stance i = s₀ → (m.view l).Move i ((m'.view l).set i s)) :
    m.Follows (m'.setTask i task) := by
  refine .of_leg (i := i) (l := l) ?_ fun leg hne => ?_
  · rw [view_setTask, ht.after]
    exact hmove ht.before
  · rw [view_setTask_of_stance, hmaps leg hne]
    rw [htasks, ht.other leg hne]

theorem move_follows (ht : (m.tasks i).Turns l task s₀ s)
    (hmove : (m.view l).stance i = s₀ → (m.view l).Move i ((m.view l).set i s)) :
    m.Follows (m.setTask i task) :=
  setTask_follows rfl (fun _ _ => rfl) ht hmove

theorem same_follows (h : ∀ leg, task.stance leg = (m.tasks i).stance leg) :
    m.Follows (m.setTask i task) :=
  .of_same fun leg => view_setTask_of_stance (h leg)

theorem room_follows (hstate : m.conferences conf = some state)
    (hrest : ∀ leg, l ≠ leg → (leg ∈ room.participants ↔ leg ∈ state.room.participants))
    (hmember : ∀ c, P c ↔ if c = conf then l ∈ room.participants else m.Member l c)
    (ht : (m.tasks i).Turns l task s₀ s)
    (hmove : (m.view l).stance i = s₀ →
      (m.view l).Move i { (m.view l).set i s with member := P }) :
    m.Follows ((m.setRoom conf state room).setTask i task) := by
  have hview : (m.setRoom conf state room).view l = { m.view l with member := P } := by
    apply view_setConference_eq
    intro c
    rw [member_setConference, hmember]
    simp
  have hsame (leg : LegId) (hne : l ≠ leg) : (m.setRoom conf state room).view leg = m.view leg := by
    apply view_setConference
    simp [member_iff hstate, hrest leg hne]
  apply setTask_follows _ hsame ht
  · rw [hview]
    exact hmove
  · rfl

theorem attachment_follows (ht : (m.tasks i).Turns l task s₀ s)
    (hmove : (m.view l).stance i = s₀ → (m.view l).Move i { (m.view l).set i s with attached }) :
    m.Follows ({ m with legAttachments := update m.legAttachments l attached }.setTask i
      task) := by
  refine setTask_follows rfl (fun leg hne => ?_) ht ?_
  · exact view_congr rfl (fun _ => Iff.rfl) rfl (update_of_ne hne.symm _ _)
  · simp only [view, update_self]
    exact hmove

theorem mapping_follows (ht : (m.tasks i).Turns l task s₀ s)
    (hmove : (m.view l).stance i = s₀ → (m.view l).Move i { (m.view l).set i s with mapping }) :
    m.Follows ({ m with legToConference := update m.legToConference l mapping }.setTask i
      task) := by
  refine setTask_follows rfl (fun leg hne => ?_) ht ?_
  · exact view_congr rfl (fun _ => Iff.rfl) (update_of_ne hne.symm _ _) rfl
  · simp only [view, update_self]
    exact hmove

end

theorem call_follows (hC : m.Undisturbed (.call i operation))
    (hstep : m.step (.call i operation) = some m') : m.Follows m' := by
  obtain ⟨rfl, hnone⟩ := spawn_eq hstep
  have hbegin {task : Task} (l : LegId) {s : Stance ConferenceId}
      (h : ∀ leg, task.stance leg = if l = leg then s else .none) :
      (m.tasks i).Turns l task .none s :=
    .of_only rfl (fun leg => (hnone leg).trans (ite_self _).symm) h
  cases operation with
  | create | destroy | endByHost => exact same_follows fun leg => (hnone leg).symm
  | add conf l => exact move_follows (hbegin l fun _ => rfl) fun _ => .beginAdd hC
  | remove conf l | removeLegFromAll l =>
    exact move_follows (hbegin l fun _ => rfl) (.beginRemove · hC)

section

variable {i : Nat} {l : LegId}

theorem check_follows (htask : m.tasks i = .checks conf l) : m.Follows (m.check i conf l) := by
  have hpass (h : m.legToConference l = none ∨ m.legToConference l = some conf) :
      m.Follows (m.setTask i (.joins conf l)) :=
    move_follows (.of_only htask (fun _ => rfl) fun _ => rfl) (.pass conf · h)
  unfold check
  split
  · next existing hexisting =>
    split_ifs with hconf
    · exact move_follows (.ends htask (fun _ => rfl) fun _ => rfl) fun h => .giveUpAdd (.inl h)
    · apply hpass
      rw [hexisting, not_not.mp hconf]
      exact .inr rfl
  · next hnone => exact hpass (.inl hnone)

variable {room : ConferenceRoom} {order : List (LegId × Option Nat)}

theorem mem_addParticipant {now : Nat} (h : room.addParticipant now l = .ok room') :
    l ∉ room.participants ∧
      ∀ leg, leg ∈ room'.participants ↔ leg = l ∨ leg ∈ room.participants := by
  unfold addParticipant at h
  split_ifs at h with hfull hmem
  cases h
  exact ⟨hmem, fun leg => AList.mem_insert _⟩

theorem join_follows (htask : m.tasks i = .joins conf l) : m.Follows (m.join i conf l) := by
  have hfail (error) : m.Follows (m.fail i error) := by
    refine move_follows (.ends htask (fun _ => rfl) fun _ => rfl) fun hstance => ?_
    exact .giveUpAdd (.inr ⟨conf, hstance⟩)
  unfold join
  split
  · exact hfail _
  · next state hstate =>
    split
    · exact hfail _
    · next room hroom =>
      obtain ⟨hnot, hmem⟩ := mem_addParticipant hroom
      refine room_follows (P := fun c => m.Member l c ∨ c = conf) hstate (fun leg hne => ?_)
        (fun c => ?_) (.of_only htask (fun _ => rfl) fun _ => rfl)
        (.enter conf · fun hin => hnot ((member_iff hstate).mp hin))
      · simp [hmem, hne.symm]
      · split_ifs with hc <;> simp [hc, hmem]

theorem attach_follows (htask : m.tasks i = .attaches conf l) :
    m.Follows ({ m with legAttachments := update m.legAttachments l true }.setTask i
      (.maps conf l)) :=
  attachment_follows (.of_only htask (fun _ => rfl) fun _ => rfl) (.attach conf)

theorem map_follows (htask : m.tasks i = .maps conf l) : m.Follows ({ m with
      legToConference := update m.legToConference l (some conf) }.finish i) :=
  mapping_follows (.ends htask (fun _ => rfl) fun _ => rfl) (.map conf)

theorem lookUp_follows (htask : m.tasks i = .looksUp l) : m.Follows (m.lookUp i l) := by
  unfold lookUp
  split
  · exact move_follows (.ends htask (fun _ => rfl) fun _ => rfl) .giveUpRemove
  · apply same_follows
    intro leg
    rw [htask]
    rfl

theorem mem_removeParticipant {now : Nat} (h : room.removeParticipant now l = .ok room') :
    l ∈ room.participants ∧
      ∀ leg, leg ∈ room'.participants ↔ leg ≠ l ∧ leg ∈ room.participants := by
  unfold removeParticipant at h
  split_ifs at h with hmem
  cases h
  exact ⟨hmem, fun leg => AList.mem_erase⟩

theorem leave_follows (htask : m.tasks i = .leaves conf l) : m.Follows (m.leave i conf l) := by
  have hfail (error) : m.Follows (m.fail i error) :=
    move_follows (.ends htask (fun _ => rfl) fun _ => rfl) .giveUpRemove
  unfold leave
  split
  · exact hfail _
  · next state hstate =>
    split
    · exact hfail _
    · next room hroom =>
      obtain ⟨hin, hmem⟩ := mem_removeParticipant hroom
      refine room_follows (P := fun c => m.Member l c ∧ c ≠ conf) hstate (fun leg hne => ?_)
        (fun c => ?_) (.of_only htask (fun _ => rfl) fun _ => rfl)
        (.leave conf · ((member_iff hstate).mpr hin))
      · simp [hmem, hne.symm]
      · split_ifs with hc <;> simp [hc, hmem]

theorem detachLeg_follows (htask : m.tasks i = .detachesLeg conf l departure) :
    m.Follows ((m.detach l).setTask i (.unmapsLeg conf l departure)) :=
  attachment_follows (.of_only htask (fun _ => rfl) fun _ => rfl) .detach

theorem unmapLeg_follows (htask : m.tasks i = .unmapsLeg conf l departure) :
    m.Follows ((m.unmap l).setTask i (.winds conf departure)) :=
  mapping_follows (.ends htask (fun _ => rfl) fun _ => rfl) .unmap

theorem mem_sessions (h : order.isPerm room.sessions) :
    leg ∈ order.map (·.1) ↔ leg ∈ room.participants := by
  have hperm : (order.map (·.1)).Perm (room.sessions.map (·.1)) := (List.isPerm_iff.mp h).map _
  rw [hperm.mem_iff]
  simp only [sessions, List.map_map]
  exact Iff.rfl

theorem visit_stance :
    (visit conf order).stance leg = if leg ∈ order.map (·.1) then .leaving else .none := by
  cases order with
  | nil => rfl
  | cons row rest => exact if_congr (by simp [eq_comm]) rfl rfl

theorem destroy_follows (htask : m.tasks i = .destroys origin conf)
    (hC : ∀ j leg, ((m.tasks j).stance leg).Adds → ¬ m.Member leg conf)
    (hstep : m.destroy i conf order = some m') : m.Follows m' := by
  unfold destroy at hstep
  split at hstep
  · cases hstep
    apply same_follows
    intro leg
    rw [htask]
    rfl
  · next state hstate =>
    split_ifs at hstep with hperm
    cases hstep
    have hstance (leg : LegId) : (m.tasks i).stance leg = .none := by rw [htask]; rfl
    intro leg
    change ((m.setConference conf none).setTask i (visit conf order)).view leg = _ ∨
      ∃ j, (m.view leg).Move j (((m.setConference conf none).setTask i (visit conf order)).view leg)
    by_cases hmem : m.Member leg conf
    · have hin : leg ∈ order.map (·.1) := (mem_sessions hperm).mpr ((member_iff hstate).mp hmem)
      have hout (c : ConferenceId) :
          (m.setConference conf none).Member leg c ↔ m.Member leg c ∧ c ≠ conf := by
        rw [member_setConference]
        split_ifs with hc <;> simp [hc]
      rw [view_setTask, view_setConference_eq hout, visit_stance, if_pos hin]
      exact .inr ⟨i, .drop conf (hstance leg) (fun j hadds => hC j leg hadds hmem) hmem⟩
    · left
      rw [view_setTask_of_stance, view_setConference]
      · simpa using hmem
      · have hin : leg ∉ order.map (·.1) := by
          rwa [mem_sessions hperm, ← member_iff hstate]
        rw [visit_stance, if_neg hin]
        exact (hstance leg).symm

theorem unmap_follows (htask : m.tasks i = .unmaps conf l session rest) :
    m.Follows ((m.unmap l).setTask i (.detaches conf l session rest)) := by
  have ht : (m.tasks i).Turns l (.detaches conf l session rest) .leaving .unmapped := by
    rw [htask]
    exact ⟨if_pos (.inl rfl), if_pos rfl, fun leg hne =>
      (if_neg hne).trans (if_congr (by simp [hne]) rfl rfl)⟩
  exact mapping_follows ht .unmapFirst

theorem detach_follows (htask : m.tasks i = .detaches conf l session rest) :
    m.Follows (((m.detach l).notify session conf).setTask i (visit conf rest)) := by
  have ht : (m.tasks i).Turns l (visit conf rest) .unmapped
      (if l ∈ rest.map (·.1) then .leaving else .none) := by
    rw [htask]
    exact ⟨if_pos rfl, visit_stance, fun leg hne => visit_stance.trans (if_neg hne).symm⟩
  have hfollows : m.Follows ((m.detach l).setTask i (visit conf rest)) := by
    refine attachment_follows ht (.detachLast _ · ?_)
    split_ifs
    · exact .inr rfl
    · exact .inl rfl
  exact fun leg => hfollows leg

end

/-! ## The other steps -/

section

variable {i : Nat} {conf : ConferenceId}

section

variable (hstance : ∀ leg, (m.tasks i).stance leg = .none)
include hstance

theorem claim_follows (hroom : room.participants = ∅) :
    m.Follows (m.claim i conf room maxDuration) := by
  have hafter (leg : LegId) : (afterClaim conf maxDuration).stance leg = .none := by
    cases maxDuration <;> rfl
  unfold claim
  split
  · next hnone =>
    apply Follows.of_same
    intro leg
    rw [view_setTask_of_stance, view_setConference]
    · simp [hroom, Member, hnone]
    · rw [hafter]
      exact (hstance leg).symm
  · exact same_follows fun leg => (hstance leg).symm

theorem spawnTimer_follows
    (hstep : m.spawnTimer i conf maxDuration child = some m') : m.Follows m' := by
  apply Follows.of_same
  intro leg
  rw [view_spawn hstep rfl, view_setTask_of_stance]
  · apply view_setConference
    cases h : m.conferences conf <;> simp [Member, h]
  · exact (hstance leg).symm

theorem spawnWatchdog_follows (hstep : m.spawnWatchdog i conf child = some m') : m.Follows m' := by
  have hsame (leg : LegId) : (m.setTask i (.returnsRoom conf)).view leg = m.view leg :=
    view_setTask_of_stance (hstance leg).symm
  simp only [spawnWatchdog] at hstep
  split_ifs at hstep
  · cases hstep
    exact .of_same hsame
  · exact .of_same fun leg => (view_spawn hstep rfl).trans (hsame leg)

theorem runTimer_follows
    (hstep : m.runTimer i conf deadline token choice = some m') : m.Follows m' := by
  unfold runTimer at hstep
  split_ifs at hstep <;> cases hstep
  all_goals exact same_follows fun leg => (hstance leg).symm

theorem sweep_follows (hstep : m.sweep i conf wake = some m') : m.Follows m' := by
  unfold sweep at hstep
  split_ifs at hstep
  split at hstep
  · cases hstep
    exact same_follows fun leg => (hstance leg).symm
  · split_ifs at hstep <;> cases hstep
    all_goals exact same_follows fun leg => (hstance leg).symm

theorem windUp_follows (hstep : m.windUp i conf departure child = some m') : m.Follows m' := by
  have hsame (leg : LegId) : ((m.notify departure.owner conf).finish i).view leg = m.view leg :=
    view_setTask_of_stance (hstance leg).symm
  simp only [windUp] at hstep
  split_ifs at hstep
  · cases hstep
    exact same_follows fun leg => (hstance leg).symm
  · exact .of_same fun leg => (view_spawn hstep rfl).trans (hsame leg)
  · cases hstep
    exact .of_same hsame

end

theorem modifyRoom_follows (hf : ∀ room room', f room = some room' →
      ∀ leg, leg ∈ room'.participants ↔ leg ∈ room.participants) :
    m.Follows (m.modifyRoom conf f) := by
  unfold modifyRoom
  split
  · exact .of_same fun leg => rfl
  · next state hstate =>
    split
    · exact .of_same fun leg => rfl
    · next room hroom =>
      apply Follows.of_same
      intro leg
      apply view_setConference
      simp [member_iff hstate, hf _ _ hroom]

end

theorem run_follows (hC : m.Undisturbed (.run i choice)) (hstep : m.runTask i choice = some m') :
    m.Follows m' := by
  have hfree (h : ∀ leg, (m.tasks i).stance leg = .none) {task : Task}
      (htask : ∀ leg, task.stance leg = .none) : m.Follows (m.setTask i task) :=
    same_follows fun leg => (htask leg).trans (h leg).symm
  simp only [Undisturbed] at hC
  unfold runTask at hstep
  cases htask : m.tasks i <;> simp only [htask] at hC hstep
  case idle | finished => cases hstep
  case claims =>
    cases hstep
    exact claim_follows (fun leg => by rw [htask]; rfl) rfl
  case spawnsTimer => exact spawnTimer_follows (fun leg => by rw [htask]; rfl) hstep
  case spawnsWatchdog => exact spawnWatchdog_follows (fun leg => by rw [htask]; rfl) hstep
  case returnsRoom =>
    cases hstep
    unfold returnRoom
    split <;> exact hfree (fun leg => by rw [htask]; rfl) fun leg => rfl
  case timer => exact runTimer_follows (fun leg => by rw [htask]; rfl) hstep
  case watchdog => exact sweep_follows (fun leg => by rw [htask]; rfl) hstep
  case destroys => exact destroy_follows htask hC hstep
  case unmaps =>
    cases hstep
    exact unmap_follows htask
  case detaches =>
    cases hstep
    exact detach_follows htask
  case stopsMixer =>
    cases hstep
    exact hfree (fun leg => by rw [htask]; rfl) fun leg => rfl
  case asksHost =>
    cases hstep
    unfold askHost
    split
    · exact hfree (fun leg => by rw [htask]; rfl) fun leg => rfl
    · split_ifs <;> exact hfree (fun leg => by rw [htask]; rfl) fun leg => rfl
  case checks =>
    cases hstep
    exact check_follows htask
  case joins =>
    cases hstep
    exact join_follows htask
  case mixes =>
    rw [if_pos hC] at hstep
    cases hstep
    exact same_follows fun leg => by rw [htask]; rfl
  case attaches =>
    cases hstep
    exact attach_follows htask
  case maps =>
    cases hstep
    exact map_follows htask
  case looksUp =>
    cases hstep
    exact lookUp_follows htask
  case leaves =>
    cases hstep
    exact leave_follows htask
  case unmixes =>
    rw [if_pos hC] at hstep
    cases hstep
    exact same_follows fun leg => by rw [htask]; rfl
  case detachesLeg =>
    cases hstep
    exact detachLeg_follows htask
  case unmapsLeg =>
    cases hstep
    exact unmapLeg_follows htask
  case winds => exact windUp_follows (fun leg => by rw [htask]; rfl) hstep

/-- **A step follows the protocol of every leg.** -/
theorem step_follows (hC : m.Undisturbed input) (hstep : m.step input = some m') :
    m.Follows m' := by
  cases input with
  | tick elapsed =>
    cases hstep
    exact .of_same fun leg => rfl
  | call i operation => exact call_follows hC hstep
  | run i choice => exact run_follows hC hstep
  | setFocus conf uri =>
    cases hstep
    apply modifyRoom_follows
    rintro room _ ⟨⟩ leg
    rfl
  | bindTransferOwner conf caller peer =>
    cases hstep
    apply modifyRoom_follows
    intro room room' h leg
    simp only [bindOwner] at h
    split_ifs at h
    cases h
    rfl
  | bindParticipantSession conf leg session =>
    cases hstep
    apply modifyRoom_follows
    intro room room' h l
    simp only [bindSession] at h
    split_ifs at h with hmem
    cases h
    rw [AList.mem_insert]
    constructor
    · rintro (rfl | hl)
      · exact hmem
      · exact hl
    · exact .inr

theorem Follows.ok (h : m.Follows m') (hok : ∀ leg, (m.view leg).Ok) : ∀ leg, (m'.view leg).Ok := by
  intro leg
  rcases h leg with heq | ⟨i, hmove⟩
  · rw [heq]
    exact hok leg
  · exact (hok leg).move hmove

theorem Start.ok (h : m.Start) (leg : LegId) : (m.view leg).Ok := by
  have hstance (i : Nat) : (m.view leg).stance i = .none := by
    simp [view, h.tasks i, Task.stance]
  have hmember (conf : ConferenceId) : ¬ m.Member leg conf := by
    rintro ⟨state, hstate, -⟩
    rw [h.conferences conf] at hstate
    cases hstate
  constructor
  · intro i hadds
    rw [hstance i] at hadds
    exact hadds.elim
  · intro i j hholds
    rw [hstance i] at hholds
    exact hholds.elim
  · intro _
    simp [LegView.Settled, view, h.legToConference leg, h.legAttachments leg, hmember]
  · intro i
    rw [hstance i]
    trivial

theorem Quiet.settled (hquiet : m.Quiet) (hok : (m.view leg).Ok) : (m.view leg).Settled := by
  apply hok.settled
  intro i hholds
  have hrest := hquiet i
  simp only [view] at hholds
  cases htask : m.tasks i <;> rw [htask] at hrest hholds
  case idle | finished | timer | watchdog => exact hholds
  all_goals cases hrest

/-- **Legs are in at most one room, and when all operations are done they are mapped to that room
and attached**, in every `Undisturbed` run. -/
theorem membership_in_line (m m' : ConferenceManager) (hstart : m.Start)
    (hruns : Runs Undisturbed m m') :
    (∀ leg conf conf', m'.Member leg conf → m'.Member leg conf' → conf = conf') ∧ (m'.Quiet → ∀ leg,
        (∀ conf, m'.legToConference leg = some conf ↔ m'.Member leg conf) ∧
          (m'.legAttachments leg = true ↔ ∃ conf, m'.Member leg conf)) := by
  have hok : ∀ leg, (m'.view leg).Ok := by
    induction hruns with
    | refl => exact hstart.ok
    | tail _ hstep ih =>
      obtain ⟨input, hC, hstep⟩ := hstep
      exact (step_follows hC hstep).ok ih
  constructor
  · intro leg conf conf' h h'
    exact (hok leg).member_unique h h'
  · intro hquiet leg
    exact hquiet.settled (hok leg)

def fresh : ConferenceManager where
  emptyRoomGrace := 0

theorem start_fresh : fresh.Start :=
  ⟨fun _ => rfl, fun _ => rfl, fun _ => rfl, fun _ => rfl⟩

theorem membership_in_line_added : ∃ m, Runs Undisturbed fresh m ∧ m.Quiet ∧
    m.Member "leg" "room" ∧ m.legToConference "leg" = some "room" ∧
    ∀ conf, m.Member "leg" conf → conf = "room" := by
  have hcalled : Runs Undisturbed fresh _ :=
    .next (.call 0 (.create "room" none none none)) .refl rfl trivial
  have hclaimed := hcalled.next (.run 0 {}) rfl trivial
  have hcreated := (hclaimed.next (.run 0 {}) rfl trivial).next (.run 0 {}) rfl trivial
  have hasked := hcreated.next (.call 1 (.add "room" "leg")) rfl (by rintro (_ | i) <;> rfl)
  have hjoined := (hasked.next (.run 1 {}) rfl trivial).next (.run 1 {}) rfl trivial
  have hattached := (hjoined.next (.run 1 {}) rfl rfl).next (.run 1 {}) rfl trivial
  have hadded := hattached.next (.run 1 {}) rfl trivial
  obtain ⟨hunique, hquiet⟩ := membership_in_line _ _ start_fresh hadded
  specialize hquiet (by rintro (_ | _ | i) <;> rfl) "leg"
  have hmember := (hquiet.1 "room").mp rfl
  refine ⟨_, hadded, ?_, hmember, rfl, fun conf h => hunique _ _ _ h hmember⟩
  rintro (_ | _ | i) <;> rfl

/-- The room is destroyed between the insertion of the leg and its mapping. -/
theorem leg_left_behind : ∃ m, Runs (fun _ _ => True) fresh m ∧ m.Quiet ∧
    m.conferences "room" = none ∧ m.legToConference "leg" = some "room" ∧
    m.legAttachments "leg" = true := by
  refine ⟨_, runs_play [.call 0 (.create "room" none none none), .run 0 {}, .run 0 {}, .run 0 {},
      .call 1 (.add "room" "leg"), .run 1 {}, .run 1 {},
      .call 2 (.destroy "room"), .run 2 { order := [("leg", none)] }, .run 2 {}, .run 2 {},
      .run 1 {}, .run 1 {}, .run 1 {}, .run 2 {}] rfl, ?_, rfl, rfl, rfl⟩
  rintro (_ | _ | _ | i) <;> rfl

end ConferenceManager

end RustPbx.Conference
