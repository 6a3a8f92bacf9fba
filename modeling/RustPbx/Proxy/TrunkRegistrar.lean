import Mathlib.Data.Finmap
import RustPbx.Lib.Time
import RustPbx.Routing.Types

/-!
Outbound registrations of trunks.

A task sends a REGISTER, waits and sends the next. How long it waits is taken from what was granted
last, and before that from what is asked for, which may be no time at all (`hot_loop`). Its loop
returns by itself only if `parse_server_uri` fails on the destination of its trunk; `isFinished`
tells whose tasks have returned when the registrations are reconciled.
-/

namespace RustPbx.Proxy

open Option

structure RegisterConfig extends Routing.TrunkConfig where
  disabled : Option Bool := none
  registerEnabled : Option Bool := none
  registerExpires : Option UInt32 := none
  registerExtraHeaders : Option (Finmap fun _ : String => String) := none

/-- What the loop of a registration takes from the configuration. -/
structure LoopReads where
  dest : String
  outboundProxy : Option String
  username : Option String
  password : Option String
  expires : UInt32
  extraHeaders : Option (Finmap fun _ : String => String)

namespace RegisterConfig

def defaultRegisterExpires : UInt32 := 300

def isDesired (config : RegisterConfig) : Bool :=
  config.registerEnabled.getD false && (config.disabled.map (!·)).getD true

def loopReads (config : RegisterConfig) : LoopReads where
  dest := config.dest
  outboundProxy := config.outboundProxy
  username := config.username
  password := config.password
  expires := config.registerExpires.getD defaultRegisterExpires
  extraHeaders := config.registerExtraHeaders

def unchanged (previous config : RegisterConfig) : Bool :=
  previous.dest == config.dest && previous.outboundProxy == config.outboundProxy &&
    previous.username == config.username && previous.password == config.password &&
    previous.registerExpires.getD defaultRegisterExpires ==
      config.registerExpires.getD defaultRegisterExpires &&
    previous.registerExtraHeaders == config.registerExtraHeaders

theorem unchanged_iff {previous config : RegisterConfig} :
    previous.unchanged config = true ↔ previous.loopReads = config.loopReads := by
  simp [unchanged, loopReads, and_assoc]

end RegisterConfig

/-! ## The loop of a task -/

inductive RegisterResult where
  /-- No address was found for the outbound proxy, and no REGISTER is sent. -/
  | unresolved
  | failed
  | granted (expires : UInt32)
  deriving DecidableEq

/-- A round of the loop, with its times in nanoseconds. `lasting` is all from the start of the
REGISTER on, without the time that is slept. -/
structure RegisterRound where
  resolving : Nat
  lasting : Nat
  result : RegisterResult

namespace RegisterConfig

def refreshMarginSecs : Nat := 30

def initialRefresh (expires : Nat) : Nat :=
  if expires > refreshMarginSecs then expires - refreshMarginSecs else expires / 2

def refreshAfter (refresh : Nat) : RegisterResult → Nat
  | .granted expires =>
    let expires := expires.toNat
    if expires > refreshMarginSecs then expires - refreshMarginSecs else max expires 2 / 2
  | _ => refresh

/-- When the rounds start a REGISTER. -/
def registerStarts (refresh : Nat) (now : Int) : List RegisterRound → List Int
  | [] => []
  | round :: rounds =>
    let start := now + round.resolving
    let refresh := refreshAfter refresh round.result
    let starts := registerStarts refresh (start + round.lasting + Time.secs refresh) rounds
    if round.result = .unresolved then starts else start :: starts

end RegisterConfig

/-- A REGISTER that is started, and what it is made from. The headers are sorted when it is sent. -/
structure RegisterAttempt where
  start : Int
  server : String
  proxy : Option String
  credential : Option (String × String)
  expires : UInt32
  headers : Multiset (String × String)

namespace LoopReads

variable (reads : LoopReads)

def attempt (start : Int) : RegisterAttempt where
  start
  server := reads.dest
  proxy := (reads.outboundProxy.map Str.trim).filter (· ≠ "")
  credential := reads.username.map fun user => (user, reads.password.getD "")
  expires := reads.expires
  headers :=
    let rows := (reads.extraHeaders.map Finmap.entries).getD 0
    (rows.filter fun row => Str.trim row.1 ≠ "").map fun row => (Str.trim row.1, Str.trim row.2)

/-- The loop returns without being cancelled. -/
def returns (isUri : String → Bool) : Bool :=
  !isUri reads.dest

def registrationLoop (isUri : String → Bool) (now : Int) (rounds : List RegisterRound) :
    List RegisterAttempt :=
  if reads.returns isUri then []
  else
    (RegisterConfig.registerStarts (RegisterConfig.initialRefresh reads.expires.toNat) now
      rounds).map reads.attempt

end LoopReads

namespace RegisterConfig

/-- The second time is a second or more after the first. -/
def Apart (start start' : Int) : Prop := start + Time.secs 1 ≤ start'

theorem one_le_initialRefresh (h : 2 ≤ expires) : 1 ≤ initialRefresh expires := by
  unfold initialRefresh
  grind

theorem one_le_refreshAfter (h : 1 ≤ refresh) (result : RegisterResult) :
    1 ≤ refreshAfter refresh result := by
  cases result with
  | unresolved | failed => exact h
  | granted expires =>
    unfold refreshAfter
    grind

theorem registerStarts_apart (h : 1 ≤ refresh) (hstart : Apart start now)
    (rounds : List RegisterRound) :
    (start :: registerStarts refresh now rounds).IsChain Apart := by
  induction rounds generalizing refresh start now with
  | nil => exact .singleton start
  | cons round rounds ih =>
    have hrefresh := one_le_refreshAfter h round.result
    unfold Apart at *
    rw [registerStarts]
    split
    · apply ih hrefresh
      omega
    · refine .cons_cons (by omega) (ih hrefresh ?_)
      unfold Time.secs
      omega

/-- **The attempts of a registration** start a second or more apart, if none or at least two seconds
are asked for. -/
theorem attempts_apart (isUri : String → Bool) (config : RegisterConfig)
    (h : ∀ expires ∈ config.registerExpires, 2 ≤ expires) (now : Int)
    (rounds : List RegisterRound) :
    ((config.loopReads.registrationLoop isUri now rounds).map (·.start)).IsChain Apart := by
  rw [LoopReads.registrationLoop]
  split
  · exact .nil
  · have hexpires : 2 ≤ (config.registerExpires.getD defaultRegisterExpires).toNat := by
      cases hsome : config.registerExpires with
      | none => decide
      | some expires => exact h expires hsome
    have hbefore : Apart (now - Time.secs 1) now := by simp [Apart]
    rw [List.map_map]
    change (List.map (fun start => start) _).IsChain Apart
    rw [List.map_id']
    exact (registerStarts_apart (one_le_initialRefresh hexpires) hbefore rounds).tail

/-- A millisecond passes with each attempt, which fails. -/
def failing : RegisterRound := ⟨0, 10 ^ 6, .failed⟩

theorem attempts_apart_default : ((({ dest := "sip:a" } : RegisterConfig).loopReads.registrationLoop
    (fun _ => true) 0 [failing, failing]).map (·.start)).IsChain Apart :=
  attempts_apart _ _ (by simp) _ _

/-- A trunk that asks for one second does not wait at all between attempts that fail. -/
theorem hot_loop :
    (({ dest := "sip:a", registerExpires := some 1 } : RegisterConfig).loopReads.registrationLoop
      (fun _ => true) 0 [failing, failing, failing]).map (·.start) = [0, 10 ^ 6, 2 * 10 ^ 6] := by
  decide

end RegisterConfig

/-! ## The registrations -/

/-- A registration, and which call started its task. -/
structure ActiveRegistration where
  config : RegisterConfig
  startedBy : Nat

structure TrunkRegistrar where
  registrations : Table String ActiveRegistration := ∅
  parentCancelled : Bool := false
  endpoint : Bool := false
  calls : Nat := 0

namespace TrunkRegistrar

def reconcile (isFinished : String → Bool) (trunks : Table String RegisterConfig)
    (s : TrunkRegistrar) : TrunkRegistrar :=
  if s.parentCancelled || !s.endpoint then s
  else
    let desired := trunks.retain fun _ config => config.isDesired
    let kept := s.registrations.retain fun name _ => (desired.lookup name).isSome
    { s with
      calls := s.calls + 1
      registrations := kept.updateFrom (fun name config active =>
        if active.any fun active => !isFinished name && active.config.unchanged config then none
        else some ⟨config, s.calls⟩) desired.entries }

variable {s : TrunkRegistrar} (isFinished : String → Bool)

theorem lookup_reconcile (hend : s.endpoint = true) (hlive : s.parentCancelled = false)
    (trunks : Table String RegisterConfig) (name : String) :
    (s.reconcile isFinished trunks).registrations.lookup name =
      ((trunks.lookup name).filter (·.isDesired)).map fun config =>
        ((s.registrations.lookup name).filter fun active =>
          !isFinished name && active.config.unchanged config).getD ⟨config, s.calls⟩ := by
  rw [reconcile, if_neg (by simp [hend, hlive])]
  rw [Table.lookup_updateFrom (AList.nodupKeys _), Table.lookup_retain]
  change ((AList.lookup name (trunks.retain _)).bind _).or _ = _
  rw [Table.lookup_retain]
  cases (trunks.lookup name).filter (·.isDesired) with
  | none => simp
  | some config =>
    cases s.registrations.lookup name with
    | none => simp
    | some active =>
      cases isFinished name <;> cases hsame : active.config.unchanged config <;>
        simp [hsame, Option.filter]

theorem loopReads_kept (name : String) (config : RegisterConfig) (calls : Nat)
    (old : Option ActiveRegistration) : ((old.filter fun active =>
      !isFinished name && active.config.unchanged config).getD ⟨config, calls⟩).config.loopReads =
        config.loopReads := by
  cases hkept : old.filter fun active => !isFinished name && active.config.unchanged config with
  | none => rfl
  | some active =>
    have hsame := (filter_eq_some_iff.mp hkept).2
    exact RegisterConfig.unchanged_iff.mp (Bool.and_eq_true_iff.mp hsame).2

/-- The tasks that have returned are those whose loop returns by itself. -/
def Returned (isUri : String → Bool) (s : TrunkRegistrar) (isFinished : String → Bool) : Prop :=
  ∀ name active, s.registrations.lookup name = some active →
    isFinished name = active.config.loopReads.returns isUri

/-- **Trunk registrations**: the tasks that run after a call, and then on, are those of the desired
trunks whose destination is a SIP URI, each with the current values of what it reads. A task that
reads the same values as before goes on, and one of a destination that is none is started again. -/
theorem registrations_follow (isUri : String → Bool) (s : TrunkRegistrar)
    (hend : s.endpoint = true) (hlive : s.parentCancelled = false) (isFinished : String → Bool)
    (hfinished : s.Returned isUri isFinished) (trunks : Table String RegisterConfig)
    (name : String) :
    (∀ later, (s.reconcile isFinished trunks).Returned isUri later →
      (((s.reconcile isFinished trunks).registrations.lookup name).filter fun _ =>
        !later name).map (·.config.loopReads) =
          (((trunks.lookup name).filter (·.isDesired)).map (·.loopReads)).filter
            fun reads => isUri reads.dest) ∧
      ∀ active config, s.registrations.lookup name = some active →
        (trunks.lookup name).filter (·.isDesired) = some config →
        active.config.loopReads = config.loopReads →
        (s.reconcile isFinished trunks).registrations.lookup name =
          some (if isUri config.dest then active else ⟨config, s.calls⟩) := by
  have hrow := lookup_reconcile isFinished hend hlive trunks name
  refine ⟨fun later hlater => ?_, fun active config hactive hconfig hreads => ?_⟩
  · cases hconfig : (trunks.lookup name).filter (·.isDesired) with
    | none =>
      rw [hrow, hconfig]
      rfl
    | some config =>
      rw [hconfig, map_some] at hrow
      generalize hnew : getD _ _ = active at hrow
      have hreads : active.config.loopReads = config.loopReads := by
        rw [← hnew]
        exact loopReads_kept ..
      have hrunning : later name = !isUri config.dest :=
        (hlater name active hrow).trans (congrArg (LoopReads.returns · isUri) hreads)
      have hdest : config.loopReads.dest = config.dest := rfl
      rw [hrow, hrunning]
      cases huri : isUri config.dest with
      | false => simp [Option.filter, hdest, huri]
      | true => simp [Option.filter, hreads, hdest, huri]
  · have hrunning : isFinished name = !isUri config.dest :=
      (hfinished name active hactive).trans (congrArg (LoopReads.returns · isUri) hreads)
    rw [hrow, hconfig, hactive]
    cases huri : isUri config.dest with
    | false => simp [Option.filter, hrunning, huri]
    | true => simp [Option.filter, hrunning, huri, RegisterConfig.unchanged_iff.mpr hreads]

def registering (dest : String) : Table String RegisterConfig :=
  (∅ : Table String RegisterConfig).insert "carrier" { dest, registerEnabled := some true }

def registered (dest : String) : TrunkRegistrar :=
  ({ endpoint := true } : TrunkRegistrar).reconcile (fun _ => false) (registering dest)

theorem returned_registered (h : isFinished "carrier" = !isUri dest) :
    (registered dest).Returned isUri isFinished := by
  intro name active hactive
  change AList.lookup name (AList.insert "carrier" _ ∅) = _ at hactive
  rw [Table.lookup_insert_eq] at hactive
  split at hactive
  next heq =>
    cases hactive
    rw [heq, h]
    rfl
  · cases hactive

/-- The second call with the same map, for a destination that can be read and one that cannot. -/
theorem registrations_follow_carrier :
    ((registered "sip:a").reconcile (fun _ => false) (registering "sip:a")).registrations.lookup
        "carrier" = some ⟨{ dest := "sip:a", registerEnabled := some true }, 0⟩ ∧
      ((registered "[").reconcile (fun _ => true) (registering "[")).registrations.lookup
        "carrier" = some ⟨{ dest := "[", registerEnabled := some true }, 1⟩ :=
  ⟨(registrations_follow (· ≠ "[") (registered "sip:a") rfl rfl (fun _ => false)
      (returned_registered _ rfl) (registering "sip:a") "carrier").2 _ _ rfl rfl rfl,
    (registrations_follow (· ≠ "[") (registered "[") rfl rfl (fun _ => true)
      (returned_registered _ rfl) (registering "[") "carrier").2 _ _ rfl rfl rfl⟩

/-- A task that cannot read its destination returns, and is started again by each call. -/
theorem unreadable_restarted :
    (registered "[").Returned (· ≠ "[") (fun _ => true) ∧
      ((registered "[").registrations.lookup "carrier").map (·.startedBy) = some 0 ∧
      (((registered "[").reconcile (fun _ => true) (registering "[")).registrations.lookup
        "carrier").map (·.startedBy) = some 1 :=
  ⟨returned_registered _ rfl, rfl, rfl⟩

end TrunkRegistrar

end RustPbx.Proxy
