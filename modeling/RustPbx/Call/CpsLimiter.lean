import Mathlib.Data.Finset.Card
import RustPbx.Lib.CellRate

/-!
The limiter of calls per second.

Calls race for one atomic number, the theoretical arrival time. A call reads the clock, loads the
number, and exchanges it if the clock is not too far behind; an exchange that fails hands back the
number found and the clock is read again. A thread may be held up between any two of these, so the
clock of a call can be older than the number it is compared with.
-/

namespace RustPbx.Call

open Prod

open CellRate (Rate Accepted within)

/-- The limit of a limiter is a positive number of 32 bits. -/
structure CpsLimiter where
  limit : Nat
  limit_pos : 0 < limit
  limit_lt : limit < 2 ^ 32

namespace CpsLimiter

def u64Max : Nat := 2 ^ 64 - 1

def saturatingAdd (a b : Nat) : Nat := min (a + b) u64Max

variable (limiter : CpsLimiter)

def intervalNs : Nat := (10 ^ 9 + limiter.limit - 1) / limiter.limit

def burstToleranceNs : Nat := (limiter.limit - 1) * limiter.intervalNs

/-- Where a call of `try_acquire` is. -/
inductive Phase where
  | start
  | sampled (now : Nat)
  /-- It compares the clock with the number it has. -/
  | loaded (now tat : Nat)
  /-- Its exchange has failed and handed back the number. -/
  | failed (actual : Nat)
  | accepted (now : Nat)
  | rejected

/-- The clock that the call goes by is below 2^62 nanoseconds. -/
def Phase.Timely : Phase → Prop
  | .sampled now | .loaded now _ => now < 2 ^ 62
  | _ => True

/-- `log` is no field of the source: it has the accepted calls with their clocks, newest first. -/
structure State where
  tatNs : Nat
  calls : Nat → Phase
  log : List (Nat × Nat)

def fresh : State where
  tatNs := 0
  calls _ := .start
  log := []

/-- Reading the clock gives the time since the limiter was made. An exchange may fail although it
finds the number it expects. -/
inductive Action where
  | sample (elapsed : Nat)
  | load
  | compare (spurious : Bool)

namespace State

def setCall (call : Nat) (phase : Phase) (s : State) : State :=
  { s with calls := Function.update s.calls call phase }

def newTat (now tat : Nat) : Nat := saturatingAdd (max tat now) limiter.intervalNs

/-- The body of the loop: reject, or try the exchange. -/
def compare (call now tat : Nat) (spurious : Bool) (s : State) : State :=
  if now < tat - limiter.burstToleranceNs then s.setCall call .rejected
  else if s.tatNs = tat ∧ spurious = false then
    { s.setCall call (.accepted now) with
      tatNs := newTat limiter now tat, log := (call, now) :: s.log }
  else s.setCall call (.failed s.tatNs)

def step (call : Nat) (action : Action) (s : State) : Option State :=
  match action, s.calls call with
  | .sample elapsed, .start => some (s.setCall call (.sampled (min elapsed u64Max)))
  | .load, .sampled now => some (s.setCall call (.loaded now s.tatNs))
  | .compare spurious, .loaded now tat => some (s.compare limiter call now tat spurious)
  | .sample elapsed, .failed actual => some (s.setCall call (.loaded (min elapsed u64Max) actual))
  | _, _ => none

/-- The calls get from one state to another by some steps, each of which satisfies `C`. -/
def Runs (C : State → Nat → Action → Prop) : State → State → Prop :=
  Relation.ReflTransGen fun s s' =>
    ∃ call action, C s call action ∧ s.step limiter call action = some s'

/-- The clock stays below 2^62 nanoseconds. -/
def Clocked (_ : State) (_ : Nat) : Action → Prop
  | .sample elapsed => elapsed < 2 ^ 62
  | _ => True

instance (s : State) (call : Nat) (action : Action) : Decidable (Clocked s call action) :=
  match action with
  | .sample elapsed => inferInstanceAs (Decidable (elapsed < 2 ^ 62))
  | .load | .compare _ => .isTrue trivial

/-- No call was accepted by a later clock than that of the call which gets a number to compare it
with. -/
def Prompt (s : State) (call : Nat) (action : Action) : Prop :=
  Clocked s call action ∧
  match action, s.calls call with
  | .load, .sampled now => ∀ entry ∈ s.log, entry.2 ≤ now
  | .sample elapsed, .failed _ => ∀ entry ∈ s.log, entry.2 ≤ elapsed
  | _, _ => True

end State

theorem intervalNs_pos : 0 < limiter.intervalNs := by
  have hpos := limiter.limit_pos
  exact Nat.div_pos (by omega) hpos

def rate : Rate where
  interval := limiter.intervalNs
  tolerance := limiter.burstToleranceNs
  interval_pos := limiter.intervalNs_pos

theorem limit_mul_intervalNs : limiter.limit * limiter.intervalNs < 2 ^ 34 := by
  have hlt := limiter.limit_lt
  have hle := Nat.mul_div_le (10 ^ 9 + limiter.limit - 1) limiter.limit
  change limiter.limit * limiter.intervalNs ≤ _ at hle
  omega

theorem burstToleranceNs_add : limiter.burstToleranceNs + limiter.intervalNs =
    limiter.limit * limiter.intervalNs := by
  have hpos := limiter.limit_pos
  rw [burstToleranceNs, ← Nat.succ_mul]
  congr 1
  omega

theorem burst_add_div : 1 + (limiter.burstToleranceNs + w) / limiter.intervalNs =
      limiter.limit + w / limiter.intervalNs := by
  have hpos := limiter.limit_pos
  rw [burstToleranceNs, Nat.add_comm (_ * _), Nat.add_mul_div_right _ _ limiter.intervalNs_pos]
  omega

namespace State

variable {limiter : CpsLimiter} {s : State}

inductive Step (limiter : CpsLimiter) (s : State) (call : Nat) : Action → State → Prop where
  | sample {elapsed : Nat} (h : s.calls call = .start) :
      Step limiter s call (.sample elapsed) (s.setCall call (.sampled (min elapsed u64Max)))
  | load {now : Nat} (h : s.calls call = .sampled now) :
      Step limiter s call .load (s.setCall call (.loaded now s.tatNs))
  | resample {elapsed actual : Nat} (h : s.calls call = .failed actual) :
      Step limiter s call (.sample elapsed) (s.setCall call (.loaded (min elapsed u64Max) actual))
  | reject {now tat : Nat} {spurious : Bool} (h : s.calls call = .loaded now tat)
      (hlate : now < tat - limiter.burstToleranceNs) :
      Step limiter s call (.compare spurious) (s.setCall call .rejected)
  | accept {now : Nat} (h : s.calls call = .loaded now s.tatNs)
      (hnow : limiter.rate.conforms s.tatNs now) :
      Step limiter s call (.compare false) { s.setCall call (.accepted now) with
          tatNs := newTat limiter now s.tatNs, log := (call, now) :: s.log }
  | fail {now tat : Nat} {spurious : Bool} (h : s.calls call = .loaded now tat) :
      Step limiter s call (.compare spurious) (s.setCall call (.failed s.tatNs))

theorem step_cases (h : s.step limiter call action = some s') : Step limiter s call action s' := by
  unfold step at h
  split at h
  next hstart =>
    cases h
    exact .sample hstart
  next hsampled =>
    cases h
    exact .load hsampled
  next spurious now tat hloaded =>
    cases h
    unfold compare
    split
    next hlate => exact .reject hloaded hlate
    next hnow =>
      split
      next hsame =>
        obtain ⟨rfl, rfl⟩ := hsame
        exact .accept hloaded (Nat.le_of_not_lt hnow)
      · exact .fail hloaded
  next hfailed =>
    cases h
    exact .resample hfailed
  · cases h

theorem calls_setCall_self : (s.setCall call phase).calls call = phase :=
  Function.update_self ..

theorem calls_setCall_of_ne (h : c ≠ call) :
    (s.setCall call phase).calls c = s.calls c :=
  Function.update_of_ne h ..

theorem forall_setCall {P : Phase → Prop} (h : ∀ c, P (s.calls c)) (hphase : P phase) (c : Nat) :
    P ((s.setCall call phase).calls c) := by
  by_cases hc : c = call
  · rw [hc, calls_setCall_self]
    exact hphase
  · rw [calls_setCall_of_ne hc]
    exact h c

def clocks (s : State) : List Nat := s.log.map Prod.snd

/-- The log is one of the cell rate algorithm, with the stored arrival time as its time. -/
structure Counted (limiter : CpsLimiter) (s : State) : Prop where
  accepted : Accepted limiter.rate s.clocks s.tatNs
  timely : ∀ call, (s.calls call).Timely
  bounded : s.tatNs < 2 ^ 62 + 2 ^ 34

theorem newTat_eq (hs : s.Counted limiter) (hnow : now < 2 ^ 62) :
    newTat limiter now s.tatNs = limiter.rate.advance s.tatNs now := by
  have hbounded := hs.bounded
  have hinterval : limiter.intervalNs < 2 ^ 34 := by
    have := limiter.burstToleranceNs_add
    have := limiter.limit_mul_intervalNs
    omega
  change min (max s.tatNs now + limiter.intervalNs) u64Max = max s.tatNs now + limiter.intervalNs
  rw [u64Max]
  omega

theorem advance_lt (hconforms : limiter.rate.conforms tat now) (hnow : now < 2 ^ 62) :
    limiter.rate.advance tat now < 2 ^ 62 + 2 ^ 34 := by
  have hsum := limiter.burstToleranceNs_add
  have hlimit := limiter.limit_mul_intervalNs
  change tat - limiter.burstToleranceNs ≤ now at hconforms
  change max tat now + limiter.intervalNs < _
  omega

theorem Step.counted (h : Step limiter s call action s') (hC : Clocked s call action)
    (hs : s.Counted limiter) : s'.Counted limiter := by
  cases h with
  | @sample elapsed | @resample elapsed actual =>
    have hclock : min elapsed u64Max < 2 ^ 62 := (Nat.min_le_left _ _).trans_lt hC
    exact ⟨hs.accepted, forall_setCall hs.timely hclock, hs.bounded⟩
  | @load now hsampled =>
    have hnow := hs.timely call
    rw [hsampled] at hnow
    exact ⟨hs.accepted, forall_setCall hs.timely hnow, hs.bounded⟩
  | reject | fail => exact ⟨hs.accepted, forall_setCall hs.timely trivial, hs.bounded⟩
  | @accept now hloaded hconforms =>
    have hnow : now < 2 ^ 62 := by
      have hnow := hs.timely call
      rw [hloaded] at hnow
      exact hnow
    refine ⟨?_, forall_setCall hs.timely trivial, ?_⟩
    · rw [newTat_eq hs hnow]
      exact .cons hs.accepted hconforms
    · rw [newTat_eq hs hnow]
      exact advance_lt hconforms hnow

theorem Runs.counted (h : Runs limiter Clocked fresh s) : s.Counted limiter := by
  induction h with
  | refl => exact ⟨.nil, fun _ => trivial, by decide⟩
  | tail _ hstep ih =>
    obtain ⟨call, action, hC, hstep⟩ := hstep
    exact (step_cases hstep).counted hC ih

/-- The log has exactly the accepted calls, each once. -/
structure Logged (s : State) : Prop where
  entry : ∀ call now, s.calls call = .accepted now ↔ (call, now) ∈ s.log
  once : (s.log.map Prod.fst).Nodup

theorem Logged.setCall (hs : s.Logged) (hbefore : ∀ now, s.calls call ≠ .accepted now)
    (hafter : ∀ now, phase ≠ .accepted now) :
    (s.setCall call phase).Logged := by
  refine ⟨fun c now => ?_, hs.once⟩
  by_cases hc : c = call
  · subst hc
    rw [calls_setCall_self]
    exact iff_of_false (hafter now) fun hmem => hbefore now ((hs.entry c now).mpr hmem)
  · rw [calls_setCall_of_ne hc]
    exact hs.entry c now

theorem Logged.accept (hs : s.Logged) (hbefore : ∀ now, s.calls call ≠ .accepted now) :
    Logged { s.setCall call (.accepted now) with
      tatNs := tat, log := (call, now) :: s.log } := by
  have hnot : call ∉ s.log.map fst := by
    intro hmem
    obtain ⟨⟨c, n⟩, hentry, rfl⟩ := List.mem_map.mp hmem
    exact hbefore n ((hs.entry c n).mpr hentry)
  refine ⟨fun c n => ?_, List.nodup_cons.mpr ⟨hnot, hs.once⟩⟩
  rw [List.mem_cons, Prod.mk.injEq]
  by_cases hc : c = call
  · subst hc
    rw [calls_setCall_self]
    constructor
    · intro h
      cases h
      exact .inl ⟨rfl, rfl⟩
    · rintro (⟨-, rfl⟩ | hmem)
      · rfl
      · exact absurd ((hs.entry c n).mpr hmem) (hbefore n)
  · rw [calls_setCall_of_ne hc, hs.entry c n]
    exact ⟨.inr, fun h => h.resolve_left fun heq => hc heq.1⟩

theorem Step.logged (h : Step limiter s call action s') (hs : s.Logged) : s'.Logged := by
  cases h with
  | sample hphase | load hphase | resample hphase | reject hphase | fail hphase =>
    exact hs.setCall (by rw [hphase]; exact nofun) nofun
  | accept hphase => exact hs.accept (by rw [hphase]; exact nofun)

theorem Runs.logged (h : Runs limiter C fresh s) : s.Logged := by
  induction h with
  | refl => exact ⟨fun _ _ => ⟨nofun, nofun⟩, .nil⟩
  | tail _ hstep ih =>
    obtain ⟨call, action, -, hstep⟩ := hstep
    exact (step_cases hstep).logged ih

theorem Step.accepted (h : Step limiter s call action s') (hc : s.calls c = .accepted now) :
    s'.calls c = .accepted now := by
  have hne (phase : Phase) (hphase : s.calls call = phase) (hnot : phase ≠ .accepted now) :
      c ≠ call := by
    rintro rfl
    exact hnot (hphase.symm.trans hc)
  cases h with
  | sample hphase | load hphase | resample hphase | reject hphase | accept hphase | fail hphase =>
    exact (calls_setCall_of_ne (hne _ hphase nofun) ..).trans hc

theorem Runs.accepted (h : Runs limiter C s s') (hc : s.calls c = .accepted now) :
    s'.calls c = .accepted now := by
  induction h with
  | refl => exact hc
  | tail _ hstep ih =>
    obtain ⟨call, action, -, hstep⟩ := hstep
    exact (step_cases hstep).accepted ih

theorem Step.accepted_of_tatNs_ne (h : Step limiter s call action s') (hne : s'.tatNs ≠ s.tatNs) :
    ∃ now, s'.calls call = .accepted now := by
  cases h with
  | sample | load | resample | reject | fail => exact absurd rfl hne
  | @accept now => exact ⟨now, calls_setCall_self ..⟩

/-- The call is not behind: its number is at most an interval ahead for each of the `count` calls
accepted, and it has been rejected only if there are enough of them. -/
def Keeps (limiter : CpsLimiter) (tatNs count : Nat) : Phase → Prop
  | .loaded now tat => tat ≤ now + count * limiter.intervalNs
  | .failed actual => actual ≤ tatNs
  | .rejected => limiter.limit ≤ count
  | _ => True

theorem Keeps.mono {tatNs : Nat} (h : Keeps limiter tatNs count phase)
    (htat : tatNs ≤ tatNs') (hcount : count ≤ count') :
    Keeps limiter tatNs' count' phase := by
  cases phase with
  | loaded now tat =>
    have hmul := Nat.mul_le_mul_right limiter.intervalNs hcount
    exact Nat.le_trans h (Nat.add_le_add_left hmul now)
  | failed actual => exact Nat.le_trans h htat
  | rejected => exact Nat.le_trans h hcount
  | start | sampled | accepted => trivial

def KeepsUp (limiter : CpsLimiter) (s : State) : Prop :=
  ∀ call, Keeps limiter s.tatNs s.log.length (s.calls call)

theorem tatNs_le (hs : s.Counted limiter) (hlatest : ∀ entry ∈ s.log, entry.2 ≤ latest) :
    s.tatNs ≤ latest + s.log.length * limiter.intervalNs := by
  have hclocks : ∀ now ∈ s.clocks, now ≤ latest := by
    intro now hnow
    obtain ⟨entry, hentry, rfl⟩ := List.mem_map.mp hnow
    exact hlatest entry hentry
  have harrival := hs.accepted.arrival_le hclocks
  rw [clocks, List.length_map] at harrival
  exact harrival

theorem Step.keepsUp (h : Step limiter s call action s') (hC : Prompt s call action)
    (hcounted : s.Counted limiter) (hs : s.KeepsUp limiter) : s'.KeepsUp limiter := by
  cases h with
  | sample => exact forall_setCall hs trivial
  | @load now hphase =>
    have hprompt := hC.2
    rw [hphase] at hprompt
    exact forall_setCall hs (tatNs_le hcounted hprompt)
  | @resample elapsed actual hphase =>
    -- The number is from before, but nothing accepted since then has a later clock.
    have hprompt := hC.2
    rw [hphase] at hprompt
    have hclock : min elapsed u64Max = elapsed :=
      Nat.min_eq_left (Nat.le_of_lt (Nat.lt_of_lt_of_le hC.1 (by decide)))
    have hactual : actual ≤ s.tatNs := by
      have hkeeps := hs call
      rw [hphase] at hkeeps
      exact hkeeps
    rw [hclock]
    exact forall_setCall hs (hactual.trans (tatNs_le hcounted hprompt))
  | @reject now tat spurious hphase hlate =>
    have hkeeps : tat ≤ now + s.log.length * limiter.intervalNs := by
      have hkeeps := hs call
      rw [hphase] at hkeeps
      exact hkeeps
    refine forall_setCall hs ?_
    have hmul : (limiter.limit - 1) * limiter.intervalNs < s.log.length * limiter.intervalNs := by
      change now < tat - (limiter.limit - 1) * limiter.intervalNs at hlate
      omega
    have hlt := Nat.lt_of_mul_lt_mul_right hmul
    change limiter.limit ≤ s.log.length
    omega
  | @accept now hphase hconforms =>
    have hnow : now < 2 ^ 62 := by
      have hnow := hcounted.timely call
      rw [hphase] at hnow
      exact hnow
    have htat : s.tatNs ≤ newTat limiter now s.tatNs := by
      rw [newTat_eq hcounted hnow]
      exact (Nat.le_max_left _ _).trans (Nat.le_add_right _ _)
    exact forall_setCall (fun c => (hs c).mono htat (Nat.le_succ _)) trivial
  | fail => exact forall_setCall hs (Nat.le_refl s.tatNs)

theorem Runs.clocked (h : Runs limiter Prompt s s') : Runs limiter Clocked s s' := by
  refine Relation.ReflTransGen.mono ?_ _ _ h
  rintro _ _ ⟨call, action, hC, hstep⟩
  exact ⟨call, action, hC.1, hstep⟩

theorem Runs.keepsUp (h : Runs limiter Prompt fresh s) : s.KeepsUp limiter := by
  induction h with
  | refl => exact fun _ => trivial
  | tail hrun hstep ih =>
    obtain ⟨call, action, hC, hstep⟩ := hstep
    exact (step_cases hstep).keepsUp hC (Runs.counted (Runs.clocked hrun)) ih

/-! ## The limiter -/

theorem card_le_within (hs : s.Logged) {accepted : Finset Nat}
    (h : ∀ c ∈ accepted, ∃ now, s.calls c = .accepted now ∧ start ≤ now ∧ now ≤ start + w) :
    accepted.card ≤ within start w s.clocks := by
  let inside := s.log.filter fun entry => start ≤ entry.2 && entry.2 ≤ start + w
  have hsub : accepted ⊆ (inside.map fst).toFinset := by
    intro c hc
    obtain ⟨now, hnow, hlow, hhigh⟩ := h c hc
    have hmem : (c, now) ∈ inside :=
      List.mem_filter.mpr ⟨(hs.entry c now).mp hnow, by simp [hlow, hhigh]⟩
    exact List.mem_toFinset.mpr (List.mem_map_of_mem hmem)
  calc accepted.card ≤ (inside.map fst).toFinset.card := Finset.card_le_card hsub
    _ ≤ (inside.map fst).length := List.toFinset_card_le _
    _ = within start w s.clocks := by
      rw [List.length_map, within, clocks, List.countP_map, List.countP_eq_length_filter]
      rfl

/-- **The limiter**: in every interleaving, no more calls of a window are accepted than the limit
and one for each of its intervals; a call that changes the stored time is never rejected; and prompt
calls are rejected only after as many as the limit. -/
theorem calls_limited (limiter : CpsLimiter) (s : State) (h : Runs limiter Clocked fresh s) :
    (∀ (start w : Nat) (accepted : Finset Nat),
      (∀ c ∈ accepted, ∃ now, s.calls c = .accepted now ∧ start ≤ now ∧ now ≤ start + w) →
      accepted.card ≤ limiter.limit + w / limiter.intervalNs) ∧
    (∀ call action s' s'', s.step limiter call action = some s' → s'.tatNs ≠ s.tatNs →
      Runs limiter Clocked s' s'' → s''.calls call ≠ .rejected) ∧
    (Runs limiter Prompt fresh s → ∀ call, s.calls call = .rejected →
      ∃ accepted : Finset Nat, limiter.limit ≤ accepted.card ∧
        ∀ c ∈ accepted, ∃ now, s.calls c = .accepted now) := by
  refine ⟨fun start w accepted haccepted => ?_, fun call action s' s'' hstep hne hrun => ?_,
    fun hprompt call hrejected => ?_⟩
  · calc accepted.card ≤ within start w s.clocks := card_le_within h.logged haccepted
      _ ≤ 1 + (limiter.burstToleranceNs + w) / limiter.intervalNs :=
        h.counted.accepted.within_le w
      _ = limiter.limit + w / limiter.intervalNs := limiter.burst_add_div
  · obtain ⟨now, hnow⟩ := (step_cases hstep).accepted_of_tatNs_ne hne
    rw [hrun.accepted hnow]
    exact nofun
  · have hkeeps := hprompt.keepsUp call
    rw [hrejected] at hkeeps
    refine ⟨(s.log.map fst).toFinset, ?_, fun c hc => ?_⟩
    · rw [List.toFinset_card_of_nodup h.logged.once, List.length_map]
      exact hkeeps
    · obtain ⟨⟨c, now⟩, hentry, rfl⟩ := List.mem_map.mp (List.mem_toFinset.mp hc)
      exact ⟨now, (h.logged.entry c now).mpr hentry⟩

theorem Runs.next (call : Nat) (action : Action) (h : Runs limiter C s s')
    (hstep : s'.step limiter call action = some s'') (hC : C s' call action) :
    Runs limiter C s s'' :=
  h.tail ⟨call, action, hC, hstep⟩

def one : CpsLimiter where
  limit := 1
  limit_pos := by decide
  limit_lt := by decide

def two : CpsLimiter where
  limit := 2
  limit_pos := by decide
  limit_lt := by decide

/-- A limiter for one call per second accepts a call and rejects the next. -/
theorem calls_limited_one : ∃ s : State, Runs one Clocked fresh s ∧ s.calls 0 = .accepted 5 ∧
    s.calls 1 = .rejected ∧ ({0} : Finset Nat).card ≤ one.limit + 0 / one.intervalNs ∧
    ∃ accepted : Finset Nat, one.limit ≤ accepted.card ∧
      ∀ c ∈ accepted, ∃ now, s.calls c = .accepted now := by
  have hrun : Runs one Prompt fresh _ :=
    .next 1 (.compare false) (.next 1 .load (.next 1 (.sample 6)
      (.next 0 (.compare false) (.next 0 .load (.next 0 (.sample 5) .refl rfl
        ⟨by decide, trivial⟩) rfl ⟨trivial, nofun⟩) rfl ⟨trivial, trivial⟩) rfl
        ⟨by decide, trivial⟩) rfl
        ⟨trivial, show ∀ entry ∈ [((0 : Nat), (5 : Nat))], entry.2 ≤ 6 from by decide⟩) rfl
        ⟨trivial, trivial⟩
  have hclocked := hrun.clocked
  have hlimited := calls_limited one _ hclocked
  refine ⟨_, hclocked, rfl, rfl, hlimited.1 5 0 {0} ?_, hlimited.2.2 hrun 1 rfl⟩
  intro c hc
  rw [Finset.mem_singleton.mp hc]
  exact ⟨5, rfl, by decide, by decide⟩

/-- A call is held up between the clock and the load; one with a later clock is accepted first, and
the second call of a limiter for two is rejected. -/
theorem early_call_rejected : ∃ s : State, Runs two Clocked fresh s ∧ s.calls 0 = .rejected ∧
    ∀ c now, s.calls c = .accepted now → c = 1 := by
  have hrun : Runs two Clocked fresh _ :=
    .next 0 (.compare false) (.next 0 .load (.next 1 (.compare false) (.next 1 .load
      (.next 1 (.sample 1) (.next 0 (.sample 0) .refl rfl (by decide)) rfl (by decide)) rfl trivial)
      rfl trivial) rfl trivial) rfl trivial
  refine ⟨_, hrun, rfl, fun c now hc => ?_⟩
  have hentry := (hrun.logged.entry c now).mp hc
  exact congrArg fst (List.mem_singleton.mp hentry)

end State

end CpsLimiter

end RustPbx.Call
