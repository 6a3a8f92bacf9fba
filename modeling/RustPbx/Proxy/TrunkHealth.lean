import RustPbx.Proxy.TrunkIndex

/-!
The health of the trunks, by rounds of OPTIONS probes.

A trunk that is probed at its destination is unhealthy once its failures in a row reach the number
set for it, and one that is probed at each target as soon as one of them fails (`one_target_down`).
The times of the probes and the pauses between the rounds are left out.
-/

namespace RustPbx.Proxy

open List

structure CheckedTrunk extends InboundTrunk where
  healthCheckEnabled : Option Bool := none
  healthCheckPerIp : Option Bool := none
  healthCheckProbeCount : Option UInt32 := none
  healthCheckFallbackTrunk : Option String := none

structure PerIpHealthState where
  target : String
  healthy : Bool
  rttMs : Option Nat
  lastError : Option String

structure TrunkHealthState where
  trunkName : String
  healthy : Bool
  consecutiveFailures : UInt32
  rttMs : Option Nat
  lastError : Option String
  dest : String
  fallbackTrunk : Option String
  perIpStates : Option (List PerIpHealthState)

def destName (dest : String) : String :=
  let dest := Str.trim dest
  (Str.stripStart "sip:" dest).getD dest

def extractPort (target : String) : Option String := do
  let (_, port) ← Str.rsplitOnce ':' (Str.trim target)
  let _ ← Str.parseUnsigned (2 ^ 16) port.toList
  return port

def buildPerIpTargets (dest : String) (inboundHosts : List String) : List String :=
  let destClean := destName dest
  let defaultPort := extractPort destClean
  let addTarget := fun (targets : List String) (target : String) =>
    if target ∈ targets then targets else targets ++ [target]
  inboundHosts.foldl (fun targets host =>
    let host := Str.trim host
    if (extractPort host).isSome then addTarget targets host
    else
      match defaultPort with
      | some port => addTarget targets s!"{host}:{port}"
      | none => addTarget targets host) [destClean]

namespace CheckedTrunk

def enabled (cfg : CheckedTrunk) : Bool :=
  cfg.healthCheckEnabled.getD false

def threshold (cfg : CheckedTrunk) : UInt32 :=
  cfg.healthCheckProbeCount.getD 3

def perIp (cfg : CheckedTrunk) : Bool :=
  cfg.healthCheckPerIp.getD false && !cfg.inboundHosts.isEmpty

def targets (cfg : CheckedTrunk) : List String :=
  buildPerIpTargets cfg.dest cfg.inboundHosts

def unprobed (cfg : CheckedTrunk) (name : String) : TrunkHealthState where
  trunkName := name
  healthy := true
  consecutiveFailures := 0
  rttMs := none
  lastError := none
  dest := cfg.dest
  fallbackTrunk := cfg.healthCheckFallbackTrunk
  perIpStates := none

variable (cfg : CheckedTrunk) (probe : String → Except String Nat)

def probeTarget (target : String) : PerIpHealthState :=
  match probe (destName target) with
  | .ok rtt => ⟨target, true, some rtt, none⟩
  | .error e => ⟨target, false, none, some e⟩

def checkPerIp (name : String) (prev : TrunkHealthState) : TrunkHealthState :=
  let results := cfg.targets.map (probeTarget probe)
  let allHealthy := results.all (·.healthy)
  { trunkName := name
    healthy := allHealthy
    consecutiveFailures := if allHealthy then 0 else prev.consecutiveFailures + 1
    rttMs := results.findSome? fun p => if p.healthy then p.rttMs else none
    lastError := if allHealthy then none else results.head?.bind (·.lastError)
    dest := cfg.dest
    fallbackTrunk := cfg.healthCheckFallbackTrunk
    perIpStates := some results }

def checkDest (name : String) (prev : TrunkHealthState) : TrunkHealthState :=
  match probe (destName cfg.dest) with
  | .ok rtt => { cfg.unprobed name with rttMs := some rtt }
  | .error e =>
    let failures := prev.consecutiveFailures + 1
    { cfg.unprobed name with
      healthy := !(cfg.threshold ≤ failures)
      consecutiveFailures := failures
      lastError := some s!"OPTIONS failed: {e}" }

def check (name : String) (prev : Option TrunkHealthState) : TrunkHealthState :=
  let prev := prev.getD (cfg.unprobed name)
  if cfg.perIp then cfg.checkPerIp probe name prev else cfg.checkDest probe name prev

end CheckedTrunk

/-- What a round finds: the trunks as they are set up, and for each trunk the results of its
probes. -/
structure ProbeRound where
  trunks : Table String CheckedTrunk
  probe : String → String → Except String Nat

abbrev HealthStates := Table String TrunkHealthState

def ProbeRound.checked (round : ProbeRound) (name : String) : Option CheckedTrunk :=
  (round.trunks.lookup name).filter (·.enabled)

def ProbeRound.run (round : ProbeRound) (states : HealthStates) : HealthStates :=
  let states : HealthStates := states.updateFrom (fun name (cfg : CheckedTrunk) prev =>
    if cfg.enabled then some (cfg.check (round.probe name) name prev) else none)
    round.trunks.entries
  states.retain fun name _ => ((round.trunks.lookup name).map (·.enabled)).getD false

def healthAfter : List ProbeRound → HealthStates
  | [] => ∅
  | round :: earlier => round.run (healthAfter earlier)

theorem ProbeRound.lookup_run (round : ProbeRound) :
    (round.run states).lookup name = (round.checked name).map fun cfg =>
        cfg.check (round.probe name) name (states.lookup name) := by
  rw [run, Table.lookup_retain, Table.lookup_updateFrom round.trunks.nodupKeys, checked]
  change Option.filter _ (((round.trunks.lookup name).bind _).or _) = _
  cases round.trunks.lookup name with
  | none => simp
  | some cfg => cases henabled : cfg.enabled <;> simp [henabled, Option.filter_some]

def CheckedTrunk.failed (cfg : CheckedTrunk) (probe : String → Except String Nat) : Bool :=
  if cfg.perIp then cfg.targets.all fun target => !(probeTarget probe target).healthy
  else (probe (destName cfg.dest)).toOption.isNone

/-- Whether the rounds of a trunk failed since it is checked, the last one first. -/
def outcomes (name : String) : List ProbeRound → List Bool
  | [] => []
  | round :: earlier =>
    match round.checked name with
    | some cfg => cfg.failed (round.probe name) :: outcomes name earlier
    | none => []

def LastFailed (n : Nat) (outcomes : List Bool) : Prop :=
  n ≤ outcomes.length ∧ ∀ failed ∈ outcomes.take n, failed = true

def streak (outcomes : List Bool) : Nat :=
  (outcomes.takeWhile id).length

theorem lastFailed_iff {outcomes : List Bool} : LastFailed n outcomes ↔ n ≤ streak outcomes := by
  induction outcomes generalizing n with
  | nil => simp [LastFailed, streak]
  | cons failed outcomes ih =>
    cases n with
    | zero => simp [LastFailed]
    | succ n =>
      cases failed with
      | false => simp [LastFailed, streak]
      | true =>
        have hrest : LastFailed (n + 1) (true :: outcomes) ↔ LastFailed n outcomes := by
          simp [LastFailed]
        rw [hrest, ih]
        simp [streak]

@[simp] theorem streak_success (outcomes : List Bool) : streak (false :: outcomes) = 0 := rfl

@[simp] theorem streak_failure (outcomes : List Bool) :
    streak (true :: outcomes) = streak outcomes + 1 := by
  simp [streak]

/-! ## One round -/

theorem destName_mem_targets : destName dest ∈ buildPerIpTargets dest hosts := by
  have hkept : ∀ (targets : List String) (target : String), destName dest ∈ targets →
      destName dest ∈ (if target ∈ targets then targets else targets ++ [target]) := by
    intro targets target hmem
    split
    · exact hmem
    · exact mem_append_left _ hmem
  rw [buildPerIpTargets]
  -- What has been added is not removed.
  generalize hstart : [destName dest] = targets
  have hmem := hstart ▸ mem_singleton_self _
  clear hstart
  induction hosts generalizing targets with
  | nil => exact hmem
  | cons host hosts ih =>
    apply ih
    dsimp only
    split
    · exact hkept _ _ hmem
    · split <;> exact hkept _ _ hmem

namespace CheckedTrunk

variable {cfg : CheckedTrunk} {outcomes : List Bool}

def allHealthy (cfg : CheckedTrunk) (probe : String → Except String Nat) : Bool :=
  (cfg.targets.map (probeTarget probe)).all (·.healthy)

theorem allHealthy_eq_false_of_failed (hmode : cfg.perIp = true) (h : cfg.failed probe = true) :
    cfg.allHealthy probe = false := by
  rw [failed, if_pos hmode, all_eq_true] at h
  have hdest := h _ destName_mem_targets
  rw [allHealthy, all_eq_false]
  exact ⟨_, mem_map_of_mem destName_mem_targets,
    by simpa using hdest⟩

/-- With several targets, they all answer, or all fail at the end of enough failures in a row; at
the destination alone, the 32-bit counter of the failures in a row has not started anew. -/
def Follows (cfg : CheckedTrunk) (probe : String → Except String Nat) (earlier : List Bool) :
    Prop :=
  if cfg.perIp then
    cfg.allHealthy probe = true ∨ cfg.failed probe = true ∧ cfg.threshold.toNat ≤ streak earlier + 1
  else
    cfg.failed probe = true → cfg.threshold.toNat ≤ streak earlier + 1 →
      cfg.threshold.toNat ≤ (streak earlier + 1) % 2 ^ 32

/-- The counter of a trunk has the failures in a row, as far as its 32 bits go. -/
def Counts (state : Option TrunkHealthState) (outcomes : List Bool) : Prop :=
  (state.elim 0 TrunkHealthState.consecutiveFailures).toNat = streak outcomes % 2 ^ 32

theorem Counts.succ (h : Counts prior outcomes) :
    ((prior.getD (cfg.unprobed name)).consecutiveFailures + 1).toNat =
      (streak outcomes + 1) % 2 ^ 32 := by
  have hprev : (prior.getD (cfg.unprobed name)).consecutiveFailures =
      prior.elim 0 TrunkHealthState.consecutiveFailures := by
    cases prior <;> rfl
  rw [hprev, UInt32.toNat_add, h]
  simp

theorem check_counts (h : Counts prior outcomes) (hround : cfg.Follows probe outcomes) :
    Counts (some (cfg.check probe name prior)) (cfg.failed probe :: outcomes) := by
  rw [Counts, check]
  rw [Follows] at hround
  split
  next hmode =>
    rw [if_pos hmode] at hround
    rcases hround with hhealthy | ⟨hfailed, -⟩
    · have hok : cfg.failed probe = false := by
        rw [← Bool.not_eq_true]
        intro hfailed
        rw [allHealthy_eq_false_of_failed hmode hfailed] at hhealthy
        cases hhealthy
      rw [allHealthy] at hhealthy
      simp [checkPerIp, hhealthy, hok]
    · have hdown := allHealthy_eq_false_of_failed hmode hfailed
      rw [allHealthy] at hdown
      simp only [checkPerIp, hdown, hfailed]
      exact h.succ
  next hmode =>
    rw [checkDest, failed, if_neg hmode]
    cases probe (destName cfg.dest) with
    | ok rtt => rfl
    | error e =>
      exact h.succ

/-- After a round the health is what the rounds make it if and only if the round follows them. -/
theorem check_healthy_iff (h : Counts prior outcomes) (hcount : 1 ≤ cfg.threshold.toNat) :
    ((cfg.check probe name prior).healthy = false ↔
        LastFailed cfg.threshold.toNat (cfg.failed probe :: outcomes)) ↔
      cfg.Follows probe outcomes := by
  rw [lastFailed_iff, check, Follows]
  split
  next hmode =>
    have hhealthy : (cfg.checkPerIp probe name (prior.getD (cfg.unprobed name))).healthy =
        cfg.allHealthy probe := rfl
    rw [hhealthy]
    cases hfailed : cfg.failed probe with
    | false =>
      cases cfg.allHealthy probe <;> simp <;> omega
    | true => simp [allHealthy_eq_false_of_failed hmode hfailed]
  next hmode =>
    rw [checkDest, failed, if_neg hmode]
    cases probe (destName cfg.dest) with
    | ok rtt =>
      have hpositive : ¬ cfg.threshold.toNat ≤ 0 := by omega
      simp [Except.toOption, unprobed, hpositive]
    | error e =>
      simp only [Except.toOption, Option.isNone_none, streak_failure, Bool.not_eq_false',
        decide_eq_true_eq, UInt32.le_iff_toNat_le, h.succ, forall_const]
      have hmod := Nat.mod_le (streak outcomes + 1) (2 ^ 32)
      constructor
      · exact fun hiff => hiff.mpr
      · exact fun himp => ⟨fun hle => Nat.le_trans hle hmod, himp⟩

end CheckedTrunk

/-! ## Whole histories -/

variable {round : ProbeRound}

theorem lookup_healthAfter (hcfg : round.checked name = some cfg) :
    (healthAfter (round :: earlier)).lookup name =
      some (cfg.check (round.probe name) name ((healthAfter earlier).lookup name)) := by
  rw [healthAfter, ProbeRound.lookup_run, hcfg, Option.map_some]

def RoundsFollow (name : String) (history : List ProbeRound) : Prop :=
  ∀ round earlier, round :: earlier <:+ history → ∀ cfg, round.checked name = some cfg →
    cfg.Follows (round.probe name) (outcomes name earlier)

theorem RoundsFollow.tail (h : RoundsFollow name (round :: earlier)) : RoundsFollow name earlier :=
  fun round' earlier' hsuffix => h round' earlier' (hsuffix.trans (suffix_cons round earlier))

theorem RoundsFollow.counts (h : RoundsFollow name history) :
    CheckedTrunk.Counts ((healthAfter history).lookup name) (outcomes name history) := by
  induction history with
  | nil => rfl
  | cons round earlier ih =>
    cases hcfg : round.checked name with
    | none =>
      rw [healthAfter, ProbeRound.lookup_run, outcomes, hcfg]
      rfl
    | some cfg =>
      rw [lookup_healthAfter hcfg, outcomes, hcfg]
      exact CheckedTrunk.check_counts (ih h.tail) (h round earlier suffix_rfl cfg hcfg)

/-- If the trunk is checked in the round, it is unhealthy after it if and only if as many of its
last rounds failed as are set for it. -/
def RightAfter (name : String) (round : ProbeRound) (earlier : List ProbeRound) : Prop :=
  ∀ cfg, round.checked name = some cfg →
    ∃ state, (healthAfter (round :: earlier)).lookup name = some state ∧ (state.healthy = false ↔
        LastFailed cfg.threshold.toNat (outcomes name (round :: earlier)))

theorem RoundsFollow.rightAfter_iff (h : RoundsFollow name earlier)
    (hcount : ∀ cfg, round.checked name = some cfg → 1 ≤ cfg.threshold.toNat) :
    RightAfter name round earlier ↔ ∀ cfg, round.checked name = some cfg →
        cfg.Follows (round.probe name) (outcomes name earlier) := by
  refine forall_congr' fun cfg => forall_congr' fun hcfg => ?_
  rw [← CheckedTrunk.check_healthy_iff h.counts (hcount cfg hcfg), lookup_healthAfter hcfg,
    outcomes, hcfg]
  exact ⟨fun ⟨state, hstate, hiff⟩ => Option.some.inj hstate ▸ hiff, fun hiff => ⟨_, rfl, hiff⟩⟩

theorem forall_suffix_cons {P : ProbeRound → List ProbeRound → Prop} :
    (∀ r e, r :: e <:+ round :: earlier → P r e) ↔
      P round earlier ∧ ∀ r e, r :: e <:+ earlier → P r e := by
  constructor
  · intro h
    exact ⟨h round earlier suffix_rfl,
      fun r e hsuffix => h r e (hsuffix.trans (suffix_cons round earlier))⟩
  · rintro ⟨hlast, hrest⟩ r e hsuffix
    rcases suffix_cons_iff.mp hsuffix with heq | hsuffix
    · cases heq
      exact hlast
    · exact hrest r e hsuffix

/-- **The health of a trunk** is right after every round if and only if the rounds follow each
other. -/
theorem unhealthy_iff (name : String) (history : List ProbeRound)
    (hcount : ∀ round ∈ history, ∀ cfg, round.checked name = some cfg → 1 ≤ cfg.threshold.toNat) :
    (∀ round earlier, round :: earlier <:+ history → RightAfter name round earlier) ↔
      RoundsFollow name history := by
  induction history with
  | nil =>
    have hnone : ∀ (round : ProbeRound) earlier, ¬ round :: earlier <:+ [] :=
      fun round earlier hsuffix => cons_ne_nil _ _ (suffix_nil.mp hsuffix)
    exact ⟨fun _ round earlier hsuffix => absurd hsuffix (hnone round earlier),
      fun _ round earlier hsuffix => absurd hsuffix (hnone round earlier)⟩
  | cons round earlier ih =>
    rw [RoundsFollow, forall_suffix_cons, forall_suffix_cons,
      ih fun round hround => hcount round (mem_cons_of_mem _ hround)]
    exact and_congr_left fun hearlier =>
      hearlier.rightAfter_iff (hcount round mem_cons_self)

def twoTargets : CheckedTrunk :=
  { dest := "10.0.0.1:5060", inboundHosts := ["10.0.0.2"], healthCheckEnabled := some true,
    healthCheckPerIp := some true, healthCheckProbeCount := some 2 }

def roundOf (cfg : CheckedTrunk) (answering : List String) : ProbeRound where
  trunks := (∅ : Table String CheckedTrunk).insert "trunk" cfg
  probe _ target := if target ∈ answering then .ok 1 else .error "no response"

theorem checked_roundOf (h : (roundOf cfg answering).checked "trunk" = some cfg') : cfg' = cfg := by
  rw [ProbeRound.checked, roundOf, AList.lookup_insert, Option.filter_some] at h
  split at h
  · exact (Option.some.inj h).symm
  · cases h

/-- Two failures in a row at the destination make the trunk unhealthy, after a round in which both
targets answered. -/
theorem unhealthy_after_two : let atDest := { twoTargets with healthCheckPerIp := none }
    let history := [roundOf atDest [], roundOf atDest [],
      roundOf twoTargets ["10.0.0.1:5060", "10.0.0.2:5060"]]
    RightAfter "trunk" (roundOf atDest []) history.tail ∧
      ((healthAfter history).lookup "trunk").map (·.healthy) = some false := by
  intro atDest history
  refine ⟨?_, by decide⟩
  have hcount : ∀ round ∈ history, ∀ cfg, round.checked "trunk" = some cfg →
      1 ≤ cfg.threshold.toNat := by
    intro round hround cfg hcfg
    simp only [history, mem_cons, not_mem_nil, or_false] at hround
    rcases hround with rfl | rfl | rfl <;> rw [checked_roundOf hcfg] <;> decide
  refine (unhealthy_iff "trunk" history hcount).mpr ?_ _ _ suffix_rfl
  refine forall_suffix_cons.mpr ⟨?_, forall_suffix_cons.mpr ⟨?_, forall_suffix_cons.mpr ⟨?_, ?_⟩⟩⟩
  · intro cfg hcfg
    rw [checked_roundOf hcfg, CheckedTrunk.Follows]
    decide
  · intro cfg hcfg
    rw [checked_roundOf hcfg, CheckedTrunk.Follows]
    decide
  · intro cfg hcfg
    rw [checked_roundOf hcfg, CheckedTrunk.Follows]
    decide
  · intro round earlier hsuffix
    cases suffix_nil.mp hsuffix

/-- **One target down.** One of two targets fails, and the trunk is unhealthy, though the round has
not failed and two failures in a row are asked for. -/
theorem one_target_down :
    ((healthAfter [roundOf twoTargets ["10.0.0.1:5060"]]).lookup "trunk").map (·.healthy) =
        some false ∧
      outcomes "trunk" [roundOf twoTargets ["10.0.0.1:5060"]] = [false] := by
  decide

end RustPbx.Proxy
