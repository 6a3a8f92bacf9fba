import RustPbx.Call.Policy

/-!
The keys of the in-memory limiter.

The limiter joins a policy, a scope, its value and a kind of limit with colons and takes the joined
text apart again to list and clear counters. `TupleLimiter` is what is meant: a table whose keys are
the four parts. The two behave alike as long as joining loses nothing.
-/

namespace RustPbx.Call

open InMemoryFrequencyLimiter List

/-- What a counter belongs to. -/
structure LimitId where
  policyId : String
  scope : String
  scopeValue : String
  limitType : String
  deriving DecidableEq

def LimitId.key (id : LimitId) : String :=
  getKey id.policyId id.scope id.scopeValue id.limitType

def parseLimitKey (key : String) : Option LimitId := do
  let (policyId, rest) ← Str.splitOnce ':' key.toList
  let (scope, rest) ← Str.splitOnce ':' rest
  let (scopeValue, limitType) ← Str.splitOnce ':' rest
  return ⟨.ofList policyId, .ofList scope, .ofList scopeValue, .ofList limitType⟩

/-- The filters of a listing; those not given match everything. -/
structure LimitFilter where
  policyId : Option String := none
  scope : Option String := none
  scopeValue : Option String := none
  limitType : Option String := none
  deriving DecidableEq

def keyMatchesFilters (id : LimitId) (filter : LimitFilter) : Bool :=
  filter.policyId.all (· == id.policyId) && filter.scope.all (· == id.scope) &&
    filter.scopeValue.all (· == id.scopeValue) && filter.limitType.all (· == id.limitType)

/-- A counter as it is listed. Its identifier is always zero. -/
structure LimitModel where
  policyId : String
  scope : String
  scopeValue : String
  limitType : String
  count : UInt32
  windowEnd : Option Int
  updatedAt : Int
  deriving DecidableEq

structure Chrono where
  representable : Int → Bool

/-- The time of a timestamp, which is the epoch if it cannot be represented. -/
def Chrono.fromTimestamp (chrono : Chrono) (timestamp : Int) : Int :=
  if chrono.representable timestamp then timestamp else 0

def LimitId.model (chrono : Chrono) (now : Int) (id : LimitId) (c : Counter) : LimitModel where
  policyId := id.policyId
  scope := id.scope
  scopeValue := id.scopeValue
  limitType := id.limitType
  count := c.count
  windowEnd := if c.windowEnd = i64Max then none else some (chrono.fromTimestamp c.windowEnd)
  updatedAt := now

inductive LimitCheck where
  | checkAndIncrement (limit windowHours : UInt32)
  | checkDailyLimit (limit : UInt32)
  | checkConcurrency (maxConcurrency : UInt32)
  | releaseConcurrency
  deriving DecidableEq

structure LimitCall where
  policyId : String
  scope : String
  scopeValue : String
  check : LimitCheck
  deriving DecidableEq

def LimitCheck.limitType : LimitCheck → String
  | .checkAndIncrement _ _ => "frequency"
  | .checkDailyLimit _ => "daily"
  | .checkConcurrency _ | .releaseConcurrency => "concurrency"

def LimitCall.id (call : LimitCall) : LimitId :=
  ⟨call.policyId, call.scope, call.scopeValue, call.check.limitType⟩

inductive LimiterOp where
  | call (call : LimitCall)
  | listLimits (filter : LimitFilter)
  | clearLimits (filter : LimitFilter)
  | cleanup
  deriving DecidableEq

inductive LimiterResult where
  | allowed (allowed : Bool)
  | done
  | rows (rows : List LimitModel)
  | removed (count : Nat)
  deriving DecidableEq

namespace InMemoryFrequencyLimiter

variable (chrono : Chrono) (now : Int)

variable (l : InMemoryFrequencyLimiter)

def perform (call : LimitCall) : LimiterResult × InMemoryFrequencyLimiter :=
  let (p, s, v) := (call.policyId, call.scope, call.scopeValue)
  match call.check with
  | .checkAndIncrement limit windowHours =>
    (l.checkAndIncrement now p s v limit windowHours).map .allowed id
  | .checkDailyLimit limit => (l.checkDailyLimit now p s v limit).map .allowed id
  | .checkConcurrency maxConcurrency =>
    (l.checkConcurrency p s v maxConcurrency).map .allowed id
  | .releaseConcurrency => (.done, l.releaseConcurrency p s v)

def listLimits (filter : LimitFilter) : List LimitModel :=
  l.counts.entries.filterMap fun row => do
    let id ← parseLimitKey row.1
    if keyMatchesFilters id filter then some (id.model chrono now row.2) else none

def clearLimits (filter : LimitFilter) : Nat × InMemoryFrequencyLimiter :=
  let keys := l.counts.keys.filter fun key => (parseLimitKey key).any (keyMatchesFilters · filter)
  (keys.length, ⟨l.counts.eraseAll keys⟩)

def cleanup : InMemoryFrequencyLimiter :=
  ⟨l.counts.retain fun _ c => c.windowEnd > now⟩

def run : LimiterOp → LimiterResult × InMemoryFrequencyLimiter
  | .call call => l.perform now call
  | .listLimits filter => (.rows (l.listLimits chrono now filter), l)
  | .clearLimits filter => (l.clearLimits filter).map .removed id
  | .cleanup => (.done, l.cleanup now)

end InMemoryFrequencyLimiter

/-- A limiter that keeps its counters by their four parts. -/
structure TupleLimiter where
  counts : Table LimitId Counter

namespace TupleLimiter

variable (chrono : Chrono) (now : Int)

variable (t : TupleLimiter)

def entry (id : LimitId) (fresh : Counter) (visit : Counter → Bool × Counter) :
    Bool × TupleLimiter :=
  let r := visit ((t.counts.lookup id).getD fresh)
  (r.1, ⟨t.counts.insert id r.2⟩)

def release (id : LimitId) : TupleLimiter :=
  match t.counts.lookup id with
  | some c => if c.count > 0 then ⟨t.counts.insert id { c with count := c.count - 1 }⟩ else t
  | none => t

def perform (call : LimitCall) : LimiterResult × TupleLimiter :=
  match call.check with
  | .checkAndIncrement limit windowHours =>
    (t.entry call.id ⟨0, 0⟩ fun c =>
      evaluateWindow c now (now + windowHours.toNat * 3600) limit).map .allowed id
  | .checkDailyLimit limit =>
    (t.entry call.id ⟨0, 0⟩ fun c =>
      evaluateWindow c now (todayEnd now) limit).map .allowed id
  | .checkConcurrency maxConcurrency =>
    (t.entry call.id ⟨0, i64Max⟩ fun c =>
      if c.count ≥ maxConcurrency then (false, { c with windowEnd := i64Max })
      else (true, ⟨c.count + 1, i64Max⟩)).map .allowed id
  | .releaseConcurrency => (.done, t.release call.id)

def run : LimiterOp → LimiterResult × TupleLimiter
  | .call call => t.perform now call
  | .listLimits filter =>
    let matching := t.counts.entries.filter fun row => keyMatchesFilters row.1 filter
    (.rows (matching.map fun row => row.1.model chrono now row.2), t)
  | .clearLimits filter =>
    (.removed (t.counts.entries.countP fun row => keyMatchesFilters row.1 filter),
      ⟨t.counts.retain fun id _ => !keyMatchesFilters id filter⟩)
  | .cleanup => (.done, ⟨t.counts.retain fun _ c => c.windowEnd > now⟩)

end TupleLimiter

section Counting

variable {P : LimitId → Prop} {t : TupleLimiter} {l : InMemoryFrequencyLimiter}
  (hinj : ∀ id id', P id → P id' → id.key = id'.key → id = id')
include hinj

section

variable (h : t.counts.Relabels LimitId.key P l.counts)
include h

theorem entry_relabels {id : LimitId} (hid : P id) (visit : Counter → Bool × Counter) :
    (l.entry id.key fresh visit).1 = (t.entry id fresh visit).1 ∧
      (t.entry id fresh visit).2.counts.Relabels LimitId.key P
        (l.entry id.key fresh visit).2.counts := by
  have hlookup := h.lookup hinj hid
  unfold entry
  rw [hlookup]
  exact ⟨rfl, h.insert hinj hid _⟩

theorem release_relabels
    (hid : P ⟨p, s, v, "concurrency"⟩) :
    (t.release ⟨p, s, v, "concurrency"⟩).counts.Relabels LimitId.key P
      (l.releaseConcurrency p s v).counts := by
  have hlookup := h.lookup hinj hid
  unfold releaseConcurrency TupleLimiter.release
  change l.counts.lookup (getKey p s v "concurrency") = _ at hlookup
  dsimp only
  rw [hlookup]
  cases t.counts.lookup ⟨p, s, v, "concurrency"⟩ with
  | none => exact h
  | some c =>
    dsimp only
    split
    · exact h.insert hinj hid _
    · exact h

/-- **Counting by the joined keys** is counting by the parts, if no two keys in use are joined to
one text. -/
theorem perform_relabels (hid : P call.id) : (l.perform now call).1 = (t.perform now call).1 ∧
      (t.perform now call).2.counts.Relabels LimitId.key P (l.perform now call).2.counts := by
  obtain ⟨p, s, v, check⟩ := call
  cases check with
  | checkAndIncrement limit windowHours =>
    obtain ⟨hresult, hcounts⟩ := entry_relabels hinj h hid fun c =>
      evaluateWindow c now (now + windowHours.toNat * 3600) limit
    exact ⟨congrArg LimiterResult.allowed hresult, hcounts⟩
  | checkDailyLimit limit =>
    obtain ⟨hresult, hcounts⟩ := entry_relabels hinj h hid fun c =>
      evaluateWindow c now (todayEnd now) limit
    exact ⟨congrArg LimiterResult.allowed hresult, hcounts⟩
  | checkConcurrency maxConcurrency =>
    obtain ⟨hresult, hcounts⟩ := entry_relabels hinj h hid fun c =>
      if c.count ≥ maxConcurrency then (false, { c with windowEnd := i64Max })
      else (true, ⟨c.count + 1, i64Max⟩)
    exact ⟨congrArg LimiterResult.allowed hresult, hcounts⟩
  | releaseConcurrency => exact ⟨rfl, release_relabels hinj h hid⟩

end

end Counting

/-! ## Listing and clearing -/

/-- No part of the key contains a colon. -/
structure LimitId.Plain (id : LimitId) : Prop where
  policyId : ':' ∉ id.policyId.toList
  scope : ':' ∉ id.scope.toList
  scopeValue : ':' ∉ id.scopeValue.toList

/-- The parts of the key that the operation counts under contain no colon. -/
def LimiterOp.Plain : LimiterOp → Prop
  | .call counting => counting.id.Plain
  | _ => True

theorem parseLimitKey_key {id : LimitId} (h : id.Plain) : parseLimitKey id.key = some id := by
  have hkey : id.key.toList = id.policyId.toList ++ ':' :: (id.scope.toList ++
      ':' :: (id.scopeValue.toList ++ ':' :: id.limitType.toList)) := by
    simp [LimitId.key, getKey]
  unfold parseLimitKey
  rw [hkey, Str.splitOnce_append h.policyId]
  simp only [Option.bind_eq_bind, Option.bind_some]
  rw [Str.splitOnce_append h.scope]
  simp only [Option.bind_some]
  rw [Str.splitOnce_append h.scopeValue]
  simp only [Option.bind_some, String.ofList_toList]
  rfl

theorem key_injective {id : LimitId} (h : id.Plain) (h' : id'.Plain)
    (heq : id.key = id'.key) : id = id' := by
  have hparse := parseLimitKey_key h
  rw [heq, parseLimitKey_key h'] at hparse
  exact (Option.some.inj hparse).symm

section Listing

variable {t : TupleLimiter} {l : InMemoryFrequencyLimiter}

theorem listLimits_relabels (h : t.counts.Relabels LimitId.key LimitId.Plain l.counts)
    (filter : LimitFilter) : l.listLimits chrono now filter =
      (t.counts.entries.filter fun row => keyMatchesFilters row.1 filter).map
        fun row => row.1.model chrono now row.2 := by
  have hnamed := h.named
  rw [listLimits, h.rows, filterMap_map]
  generalize t.counts.entries = rows at hnamed
  induction rows with
  | nil => rfl
  | cons row rows ih =>
    have hrest := ih fun row hrow => hnamed row (mem_cons_of_mem _ hrow)
    have hparse := parseLimitKey_key (hnamed row mem_cons_self)
    rw [filterMap_cons, filter_cons, Function.comp_apply]
    simp only [hparse, Option.bind_eq_bind, Option.bind_some]
    cases keyMatchesFilters row.1 filter
    · exact hrest
    · exact congrArg _ hrest

theorem matching_key {id : LimitId} (h : id.Plain) (filter : LimitFilter) :
    (parseLimitKey id.key).any (keyMatchesFilters · filter) = keyMatchesFilters id filter := by
  rw [parseLimitKey_key h]
  rfl

theorem clearLimits_relabels (h : t.counts.Relabels LimitId.key LimitId.Plain l.counts)
    (filter : LimitFilter) : (l.clearLimits filter).1 =
        t.counts.entries.countP (fun row => keyMatchesFilters row.1 filter) ∧
      Table.Relabels LimitId.key LimitId.Plain
        (t.counts.retain fun id _ => !keyMatchesFilters id filter)
        (l.clearLimits filter).2.counts := by
  have hkeys : l.counts.keys = t.counts.entries.map fun row => row.1.key := by
    rw [AList.keys, h.rows, keys, map_map]
    rfl
  constructor
  · rw [clearLimits, hkeys, filter_map, length_map, ← countP_eq_length_filter]
    exact countP_congr fun row hrow => by
      rw [Function.comp_apply, matching_key (h.named row hrow)]
  · refine ⟨?_, fun row hrow => h.named row (mem_filter.mp hrow).1⟩
    change (l.counts.eraseAll _).entries = _
    rw [Table.entries_eraseAll, h.rows, filter_map]
    congr 1
    refine filter_congr fun row hrow => ?_
    have hmem : row.1.key ∈ l.counts.keys := by
      rw [hkeys]
      exact mem_map_of_mem hrow
    have hmatch := matching_key (h.named row hrow) filter
    simp [hmem, hmatch]

theorem run_relabels (h : t.counts.Relabels LimitId.key LimitId.Plain l.counts) (hop : op.Plain) :
    (l.run chrono now op).1 = (t.run chrono now op).1 ∧
      (t.run chrono now op).2.counts.Relabels LimitId.key LimitId.Plain
        (l.run chrono now op).2.counts := by
  cases op with
  | call call => exact perform_relabels (fun _ _ => key_injective) h hop
  | listLimits filter => exact ⟨congrArg LimiterResult.rows (listLimits_relabels h filter), h⟩
  | clearLimits filter =>
    obtain ⟨hcount, hcounts⟩ := clearLimits_relabels h filter
    exact ⟨congrArg LimiterResult.removed hcount, hcounts⟩
  | cleanup =>
    have hcounts : Table.Relabels LimitId.key LimitId.Plain
        (t.counts.retain fun _ c => c.windowEnd > now)
        (l.counts.retain fun _ c => c.windowEnd > now) := h.retain fun _ _ _ => rfl
    exact ⟨rfl, hcounts⟩

end Listing

def history (run : Int → σ → LimiterOp → LimiterResult × σ) :
    List (Int × LimiterOp) → σ → List LimiterResult × σ
  | [], limiter => ([], limiter)
  | (now, op) :: ops, limiter =>
    let (result, limiter) := run now limiter op
    let (results, limiter) := history run ops limiter
    (result :: results, limiter)

theorem history_relabels {t : TupleLimiter} {l : InMemoryFrequencyLimiter}
    (hops : ∀ entry ∈ ops, entry.2.Plain)
    (h : t.counts.Relabels LimitId.key LimitId.Plain l.counts) :
    (history (fun now l => l.run chrono now) ops l).1 =
        (history (fun now t => t.run chrono now) ops t).1 ∧
      (history (fun now t => t.run chrono now) ops t).2.counts.Relabels LimitId.key LimitId.Plain
        (history (fun now l => l.run chrono now) ops l).2.counts := by
  induction ops generalizing t l with
  | nil => exact ⟨rfl, h⟩
  | cons entry ops ih =>
    obtain ⟨hresult, hcounts⟩ := run_relabels h (hops entry mem_cons_self)
    obtain ⟨hresults, hend⟩ := ih (fun entry hentry => hops entry (mem_cons_of_mem _ hentry))
      hcounts
    exact ⟨congrArg₂ cons hresult hresults, hend⟩

theorem TupleLimiter.lookup_perform_of_ne {t : TupleLimiter} {id : LimitId} (h : id ≠ call.id) :
    (t.perform now call).2.counts.lookup id = t.counts.lookup id := by
  obtain ⟨p, s, v, check⟩ := call
  cases check with
  | checkAndIncrement | checkDailyLimit | checkConcurrency => exact AList.lookup_insert_ne h
  | releaseConcurrency =>
    change (t.release _).counts.lookup id = _
    unfold TupleLimiter.release
    split
    · split
      · exact AList.lookup_insert_ne h
      · rfl
    · rfl

namespace InMemoryFrequencyLimiter

def new : InMemoryFrequencyLimiter := ⟨∅⟩

end InMemoryFrequencyLimiter

/-- **Joined keys as tuples**: if no part of a key contains a colon, the limiter returns what one
returns that keeps its counters by the parts, has the same counters, and no call touches the counter
of another key. -/
theorem keyed_as_tuples (chrono : Chrono) (ops : List (Int × LimiterOp))
    (hops : ∀ entry ∈ ops, entry.2.Plain) :
    let memory := history (fun now l => l.run chrono now) ops new
    let tuples := history (fun now t => t.run chrono now) ops (⟨∅⟩ : TupleLimiter)
    memory.1 = tuples.1 ∧
    (∀ id : LimitId, id.Plain → memory.2.counts.lookup id.key = tuples.2.counts.lookup id) ∧
    ∀ (now : Int) (call : LimitCall) (id : LimitId), call.id.Plain → id.Plain → id ≠ call.id →
      (memory.2.perform now call).2.counts.lookup id.key = memory.2.counts.lookup id.key := by
  intro memory tuples
  obtain ⟨hresults, hcounts⟩ : memory.1 = tuples.1 ∧
      tuples.2.counts.Relabels LimitId.key LimitId.Plain memory.2.counts :=
    history_relabels hops Table.relabels_empty
  refine ⟨hresults, fun id hid => hcounts.lookup (fun _ _ => key_injective) hid,
    fun now call id hcall hid hne => ?_⟩
  obtain ⟨-, hafter⟩ := perform_relabels (fun _ _ => key_injective) hcounts hcall
  rw [hafter.lookup (fun _ _ => key_injective) hid,
    hcounts.lookup (fun _ _ => key_injective) hid, TupleLimiter.lookup_perform_of_ne hne]

def countAndList (policyId : String) : List (Int × LimiterOp) :=
  [(1, .call ⟨policyId, "caller", "1001", .checkAndIncrement 5 1⟩), (1, .listLimits {})]

theorem keyed_as_tuples_listed :
    (history (fun now l => l.run ⟨fun _ => true⟩ now) (countAndList "p") new).1 =
    (history (fun now t => t.run ⟨fun _ => true⟩ now) (countAndList "p") (⟨∅⟩ : TupleLimiter)).1 :=
  (keyed_as_tuples ⟨fun _ => true⟩ (countAndList "p") (by
    rintro entry (_ | ⟨_, _ | ⟨_, h⟩⟩)
    · exact ⟨by decide, by decide, by decide⟩
    · trivial
    · cases h)).1

/-- The policy of a trunk has a colon in its identifier, and its counter is listed as one of a
policy `trunk`. -/
theorem trunk_policy_misreported :
    (history (fun now l => l.run ⟨fun _ => true⟩ now) (countAndList "trunk:a") new).1 =
      [.allowed true, .rows [⟨"trunk", "a", "caller", "1001:frequency", 1, some 3601, 1⟩]] ∧
    (history (fun now t => t.run ⟨fun _ => true⟩ now) (countAndList "trunk:a")
      (⟨∅⟩ : TupleLimiter)).1 =
      [.allowed true, .rows [⟨"trunk:a", "caller", "1001", "frequency", 1, some 3601, 1⟩]] := by
  decide

end RustPbx.Call
