import Mathlib.Tactic.Common

/-!
One leg among the tasks of a conference manager.

This is the protocol that keeps the membership of a leg in order, for any rooms `κ` and tasks `ι`. A
task is in one of a few stances, and the room of the leg, its mapping and its attachment change only
with the stance of a task that has the leg in hand.
-/

namespace RustPbx.Conference

/-- What a task is about to do with the leg. -/
inductive Stance (κ : Type) where
  | none
  | removing
  /-- Look whether it may be added. -/
  | checking
  | joining (room : κ)
  /-- Attach it and then map it to the room that it is in. -/
  | entering (room : κ)
  | mapping (room : κ)
  /-- Detach and unmap it: it is in no room any more. -/
  | leaving
  | detached
  | unmapped

namespace Stance

def Adds : Stance κ → Prop
  | .checking | .joining _ | .entering _ | .mapping _ => True
  | _ => False

def Holds : Stance κ → Prop
  | .entering _ | .mapping _ | .leaving | .detached | .unmapped => True
  | _ => False

end Stance

structure LegView (ι κ : Type) where
  stance : ι → Stance κ
  member : κ → Prop
  mapping : Option κ
  attached : Bool

namespace LegView

variable [DecidableEq ι] {v v' : LegView ι κ}

def set (i : ι) (s : Stance κ) (v : LegView ι κ) : LegView ι κ :=
  { v with stance := Function.update v.stance i s }

/-- What task `i` may do. -/
inductive Move (v : LegView ι κ) (i : ι) : LegView ι κ → Prop where
  | beginAdd : (∀ j, v.stance j = .none) → Move v i (v.set i .checking)
  | beginRemove : v.stance i = .none → (∀ j, ¬ (v.stance j).Adds) → Move v i (v.set i .removing)
  | pass (c : κ) : v.stance i = .checking → v.mapping = none ∨ v.mapping = some c →
    Move v i (v.set i (.joining c))
  | giveUpAdd : (v.stance i = .checking ∨ ∃ c, v.stance i = .joining c) → Move v i (v.set i .none)
  | giveUpRemove : v.stance i = .removing → Move v i (v.set i .none)
  | enter (c : κ) : v.stance i = .joining c → ¬ v.member c →
    Move v i { v.set i (.entering c) with member := fun c' => v.member c' ∨ c' = c }
  | attach (c : κ) : v.stance i = .entering c →
    Move v i { v.set i (.mapping c) with attached := true }
  | map (c : κ) : v.stance i = .mapping c → Move v i { v.set i .none with mapping := some c }
  | leave (c : κ) : v.stance i = .removing → v.member c →
    Move v i { v.set i .leaving with member := fun c' => v.member c' ∧ c' ≠ c }
  | detach : v.stance i = .leaving → Move v i { v.set i .detached with attached := false }
  | unmap : v.stance i = .detached → Move v i { v.set i .none with mapping := none }
  /-- The room goes away with the leg in it. -/
  | drop (c : κ) : v.stance i = .none → (∀ j, ¬ (v.stance j).Adds) → v.member c →
    Move v i { v.set i .leaving with member := fun c' => v.member c' ∧ c' ≠ c }
  | unmapFirst : v.stance i = .leaving → Move v i { v.set i .unmapped with mapping := none }
  | detachLast (s : Stance κ) : v.stance i = .unmapped → s = .none ∨ s = .leaving →
    Move v i { v.set i s with attached := false }

/-- The leg is mapped to the room that it is in, and attached if there is one. -/
def Settled (v : LegView ι κ) : Prop :=
  (∀ c, v.mapping = some c ↔ v.member c) ∧ (v.attached = true ↔ ∃ c, v.member c)

def Facts (v : LegView ι κ) : Stance κ → Prop
  | .joining c => v.mapping = none ∨ v.mapping = some c
  | .entering c => (∀ c', v.member c' ↔ c' = c) ∧ v.mapping = none ∧ v.attached = false
  | .mapping c => (∀ c', v.member c' ↔ c' = c) ∧ v.mapping = none ∧ v.attached = true
  | .leaving => ∀ c, ¬ v.member c
  | .detached => (∀ c, ¬ v.member c) ∧ v.attached = false
  | .unmapped => (∀ c, ¬ v.member c) ∧ v.mapping = none
  | .none | .removing | .checking => True

/-- A leg that is being added is no other task's business, and one that no task has in hand is
settled. -/
structure Ok (v : LegView ι κ) : Prop where
  alone : ∀ i, (v.stance i).Adds → ∀ j, j ≠ i → v.stance j = .none
  unique : ∀ i j, (v.stance i).Holds → (v.stance j).Holds → i = j
  settled : (∀ i, ¬ (v.stance i).Holds) → v.Settled
  facts : ∀ i, v.Facts (v.stance i)

/-- The other tasks have nothing to say. -/
def Bystanders (v : LegView ι κ) (i : ι) : Prop :=
  ∀ j, j ≠ i → v.stance j = .none ∨ v.stance j = .removing

omit [DecidableEq ι] in
theorem Ok.facts_of (h : v.Ok) (hi : v.stance i = s) : v.Facts s :=
  hi ▸ h.facts i

omit [DecidableEq ι] in
theorem Ok.bystanders_of_holds (h : v.Ok) (hs : v.stance i = s) (hi : s.Holds) :
    v.Bystanders i := by
  subst hs
  intro j hj
  have hadds : ¬ (v.stance j).Adds := by
    intro hadds
    rw [h.alone j hadds i hj.symm] at hi
    exact hi
  have hholds : ¬ (v.stance j).Holds := fun hholds => hj (h.unique j i hholds hi)
  cases hs : v.stance j with
  | none => exact .inl rfl
  | removing => exact .inr rfl
  | checking | joining | entering | mapping =>
    rw [hs] at hadds
    exact absurd trivial hadds
  | leaving | detached | unmapped =>
    rw [hs] at hholds
    exact absurd trivial hholds

omit [DecidableEq ι] in
theorem Ok.alone_of (h : v.Ok) (hs : v.stance i = s) (hi : s.Adds) :
    ∀ j, j ≠ i → v.stance j = .none :=
  h.alone i (hs ▸ hi)

omit [DecidableEq ι] in
theorem Ok.bystanders_of_adds (h : v.Ok) (hs : v.stance i = s) (hi : s.Adds) : v.Bystanders i :=
  fun j hj => .inl (h.alone_of hs hi j hj)

theorem Ok.of_bystanders (hothers : v.Bystanders i)
    (hadds : s.Adds → ∀ j, j ≠ i → v.stance j = .none)
    (hstance : v'.stance = Function.update v.stance i s) (hfacts : v'.Facts s)
    (hsettled : ¬ s.Holds → v'.Settled) : v'.Ok := by
  have hself : v'.stance i = s := by rw [hstance, Function.update_self]
  have hother (j : ι) (hj : j ≠ i) : v'.stance j = v.stance j := by
    rw [hstance, Function.update_of_ne hj]
  have hquiet (j : ι) (hj : j ≠ i) : ¬ (v'.stance j).Adds ∧ ¬ (v'.stance j).Holds := by
    rw [hother j hj]
    rcases hothers j hj with hs | hs <;> rw [hs] <;> exact ⟨id, id⟩
  constructor
  · intro j hj k hk
    obtain rfl : j = i := by
      by_contra hne
      exact (hquiet j hne).1 hj
    rw [hself] at hj
    rw [hother k hk]
    exact hadds hj k hk
  · intro j k hj hk
    have heq (l : ι) (hl : (v'.stance l).Holds) : l = i := by
      by_contra hne
      exact (hquiet l hne).2 hl
    rw [heq j hj, heq k hk]
  · intro hnone
    apply hsettled
    have := hnone i
    rwa [hself] at this
  · intro j
    rcases eq_or_ne j i with rfl | hj
    · rwa [hself]
    · rw [hother j hj]
      rcases hothers j hj with hs | hs <;> rw [hs] <;> trivial

theorem Ok.of_idle (h : v.Ok) (hi : v.stance i = .none ∨ v.stance i = .removing)
    (hs : s = .none ∨ s = .removing) (hadds : s = .removing → ∀ j, ¬ (v.stance j).Adds) :
    (v.set i s).Ok := by
  have hother (j : ι) (hj : j ≠ i) : (v.set i s).stance j = v.stance j := by simp [set, hj]
  have hself : (v.set i s).stance i = s := by simp [set]
  have hquiet (t : Stance κ) (ht : t = .none ∨ t = .removing) : ¬ t.Adds ∧ ¬ t.Holds := by
    rcases ht with rfl | rfl <;> exact ⟨id, id⟩
  constructor
  · intro j hj k hk
    have hne : j ≠ i := by
      rintro rfl
      rw [hself] at hj
      exact (hquiet s hs).1 hj
    rw [hother j hne] at hj
    rcases eq_or_ne k i with rfl | hki
    · rw [hself]
      rcases hs with rfl | rfl
      · rfl
      · exact absurd hj (hadds rfl j)
    · rw [hother k hki]
      exact h.alone j hj k hk
  · intro j k hj hk
    have hne (l : ι) (hl : ((v.set i s).stance l).Holds) : l ≠ i := by
      rintro rfl
      rw [hself] at hl
      exact (hquiet s hs).2 hl
    rw [hother j (hne j hj)] at hj
    rw [hother k (hne k hk)] at hk
    exact h.unique j k hj hk
  · intro hnone
    apply h.settled
    intro j
    rcases eq_or_ne j i with rfl | hj
    · exact (hquiet _ hi).2
    · have := hnone j
      rwa [hother j hj] at this
  · intro j
    rcases eq_or_ne j i with rfl | hj
    · rw [hself]
      rcases hs with rfl | rfl <;> trivial
    · rw [hother j hj]
      have hfacts := h.facts j
      cases hs : v.stance j <;> rw [hs] at hfacts <;> exact hfacts

omit [DecidableEq ι] in
theorem Ok.settled_of_member (h : v.Ok) (hadds : ∀ j, ¬ (v.stance j).Adds) (hc : v.member c) :
    (∀ j, ¬ (v.stance j).Holds) ∧ v.Settled := by
  have hnone (j : ι) : ¬ (v.stance j).Holds := by
    intro hholds
    have hfacts := h.facts j
    have hadds := hadds j
    cases hs : v.stance j <;> rw [hs] at hfacts hadds hholds
    case entering | mapping => exact hadds trivial
    case leaving => exact hfacts c hc
    case detached | unmapped => exact hfacts.1 c hc
    all_goals exact hholds
  exact ⟨hnone, h.settled hnone⟩

theorem Ok.remove (h : v.Ok) (hadds : ∀ j, ¬ (v.stance j).Adds) (hc : v.member c) :
    Ok { v.set i .leaving with member := fun c' => v.member c' ∧ c' ≠ c } := by
  obtain ⟨hholds, hsettled, -⟩ := h.settled_of_member hadds hc
  refine Ok.of_bystanders (v := v) (i := i) ?_ False.elim rfl ?_ fun hno => ?_
  · intro j hj
    have hadds := hadds j
    have hholds := hholds j
    cases hs : v.stance j <;> rw [hs] at hadds hholds
    case none => exact .inl rfl
    case removing => exact .inr rfl
    case checking | joining | entering | mapping => exact absurd trivial hadds
    all_goals exact absurd trivial hholds
  · rintro c' ⟨hc', hne⟩
    have hmapping := (hsettled c).mpr hc
    rw [(hsettled c').mpr hc'] at hmapping
    exact hne (Option.some.inj hmapping)
  · exact absurd trivial hno

omit [DecidableEq ι] in
theorem Ok.settled_of_adds (h : v.Ok) (hs : v.stance i = s) (hi : s.Adds) (hholds : ¬ s.Holds) :
    v.Settled := by
  subst hs
  apply h.settled
  intro j
  rcases eq_or_ne j i with rfl | hj
  · exact hholds
  · rw [h.alone i hi j hj]
    exact id

/-- **The protocol keeps a leg in line.** -/
theorem Ok.move (h : v.Ok) (hmove : v.Move i v') : v'.Ok := by
  cases hmove with
  | beginAdd hnone =>
    refine .of_bystanders (fun j _ => .inl (hnone j)) (fun _ j _ => hnone j) rfl trivial fun _ => ?_
    apply h.settled
    intro j
    rw [hnone j]
    exact id
  | beginRemove hi hadds => exact h.of_idle (.inl hi) (.inr rfl) fun _ => hadds
  | giveUpRemove hi => exact h.of_idle (.inr hi) (.inl rfl) nofun
  | pass c hi hmapping =>
    exact .of_bystanders (h.bystanders_of_adds hi trivial) (fun _ => h.alone_of hi trivial) rfl
      hmapping fun _ => h.settled_of_adds hi trivial id
  | giveUpAdd hi =>
    obtain ⟨s, hs, hadds, hholds⟩ : ∃ s, v.stance i = s ∧ s.Adds ∧ ¬ s.Holds := by
      rcases hi with hi | ⟨c, hi⟩ <;> exact ⟨_, hi, trivial, id⟩
    exact .of_bystanders (h.bystanders_of_adds hs hadds) False.elim rfl trivial
      fun _ => h.settled_of_adds hs hadds hholds
  | enter c hi hc =>
    have hsettled := h.settled_of_adds hi trivial id
    have hmapping : v.mapping = none :=
      (h.facts_of hi).resolve_right fun hsome => hc ((hsettled.1 c).mp hsome)
    have hmember (c' : κ) : ¬ v.member c' := by
      rw [← hsettled.1 c', hmapping]
      exact nofun
    refine .of_bystanders (h.bystanders_of_adds hi trivial) (fun _ => h.alone_of hi trivial) rfl
      ⟨fun c' => ⟨fun hc' => hc'.resolve_left (hmember c'), .inr⟩, hmapping, ?_⟩
      fun hno => absurd trivial hno
    rw [← Bool.not_eq_true]
    exact fun hattached => (hsettled.2.mp hattached).elim hmember
  | attach c hi =>
    have hfacts := h.facts_of hi
    exact .of_bystanders (h.bystanders_of_adds hi trivial) (fun _ => h.alone_of hi trivial) rfl
      ⟨hfacts.1, hfacts.2.1, rfl⟩ fun hno => absurd trivial hno
  | map c hi =>
    have hfacts := h.facts_of hi
    refine .of_bystanders (h.bystanders_of_adds hi trivial) False.elim rfl trivial fun _ =>
      ⟨fun c' => ?_, ?_⟩
    · exact ⟨fun heq => (hfacts.1 c').mpr (Option.some.inj heq).symm,
        fun hc' => congrArg some ((hfacts.1 c').mp hc').symm⟩
    · exact ⟨fun _ => ⟨c, (hfacts.1 c).mpr rfl⟩, fun _ => hfacts.2.2⟩
  | leave c hi hc =>
    refine h.remove (fun j hadds => ?_) hc
    rcases eq_or_ne i j with rfl | hj
    · rw [hi] at hadds
      exact hadds
    · cases hi.symm.trans (h.alone j hadds i hj)
  | drop c hi hadds hc => exact h.remove hadds hc
  | detach hi | unmapFirst hi =>
    exact .of_bystanders (h.bystanders_of_holds hi trivial) False.elim rfl ⟨h.facts_of hi, rfl⟩
      fun hno => absurd trivial hno
  | unmap hi =>
    have hfacts := h.facts_of hi
    refine .of_bystanders (h.bystanders_of_holds hi trivial) False.elim rfl trivial fun _ =>
      ⟨fun c => ⟨nofun, fun hc => absurd hc (hfacts.1 c)⟩, ⟨fun hattached => ?_, fun ⟨c, hc⟩ => ?_⟩⟩
    · cases hfacts.2.symm.trans hattached
    · exact absurd hc (hfacts.1 c)
  | detachLast s hi hs =>
    have hfacts := h.facts_of hi
    rcases hs with rfl | rfl
    · refine .of_bystanders (h.bystanders_of_holds hi trivial) False.elim rfl trivial fun _ =>
        ⟨fun c => ⟨fun hsome => ?_, fun hc => absurd hc (hfacts.1 c)⟩, ⟨nofun, fun ⟨c, hc⟩ => ?_⟩⟩
      · cases hfacts.2.symm.trans hsome
      · exact absurd hc (hfacts.1 c)
    · exact .of_bystanders (h.bystanders_of_holds hi trivial) False.elim rfl hfacts.1
        fun hno => absurd trivial hno

omit [DecidableEq ι] in
theorem Ok.member_unique (h : v.Ok) (hc : v.member c) (hc' : v.member c') : c = c' := by
  by_cases hholds : ∃ i, (v.stance i).Holds
  · obtain ⟨i, hi⟩ := hholds
    have hfacts := h.facts i
    cases hs : v.stance i <;> rw [hs] at hfacts hi
    case entering | mapping => rw [(hfacts.1 c).mp hc, (hfacts.1 c').mp hc']
    case leaving => exact absurd hc (hfacts c)
    case detached | unmapped => exact absurd hc (hfacts.1 c)
    all_goals exact hi.elim
  · have hsettled := h.settled fun i hi => hholds ⟨i, hi⟩
    have hsome := (hsettled.1 c).mpr hc
    rw [(hsettled.1 c').mpr hc'] at hsome
    exact (Option.some.inj hsome).symm

end LegView

end RustPbx.Conference
