import RustPbx.Call.LimitKeys

/-!
The windows of the in-memory limiter, and what its cleanup forgets.

A cleanup drops a counter in the second in which its window ends, though a check still counts in it
then.
-/

namespace RustPbx.Call

open InMemoryFrequencyLimiter List Table UInt32 Option

def LimitCheck.visit (now : Int) (row : Option Counter) :
    LimitCheck → LimiterResult × Option Counter
  | .checkAndIncrement limit windowHours =>
    (evaluateWindow (row.getD ⟨0, 0⟩) now (now + windowHours.toNat * 3600) limit).map .allowed some
  | .checkDailyLimit limit =>
    (evaluateWindow (row.getD ⟨0, 0⟩) now (todayEnd now) limit).map .allowed some
  | .checkConcurrency maxConcurrency =>
    let c := row.getD ⟨0, i64Max⟩
    (if c.count ≥ maxConcurrency then (false, { c with windowEnd := i64Max })
      else (true, ⟨c.count + 1, i64Max⟩)).map .allowed some
  | .releaseConcurrency =>
    (.done, row.map fun c => if c.count > 0 then { c with count := c.count - 1 } else c)

theorem perform_visit (l : InMemoryFrequencyLimiter) (now : Int) (call : LimitCall) :
    let r := call.check.visit now (l.counts.lookup call.id.key)
    (l.perform now call).1 = r.1 ∧ ∀ key, (l.perform now call).2.counts.lookup key =
      if key = call.id.key then r.2 else l.counts.lookup key := by
  obtain ⟨p, s, v, check⟩ := call
  cases check with
  | checkAndIncrement | checkDailyLimit | checkConcurrency =>
    exact ⟨rfl, fun key => lookup_insert_eq ..⟩
  | releaseConcurrency =>
    refine ⟨rfl, fun key => ?_⟩
    change (l.releaseConcurrency p s v).counts.lookup key = if key = getKey p s v "concurrency" then
      (l.counts.lookup (getKey p s v "concurrency")).map _ else _
    unfold releaseConcurrency
    by_cases hkey : key = getKey p s v "concurrency"
    · subst hkey
      cases hrow : l.counts.lookup (getKey p s v "concurrency") with
      | none => simp [hrow]
      | some c => by_cases hpos : c.count > 0 <;> simp [hrow, hpos]
    · simp only [if_neg hkey]
      split
      · split
        · exact AList.lookup_insert_ne hkey
        · rfl
      · rfl

/-! ## Windows -/

def LimitCheck.windowLimit : LimitCheck → Option UInt32
  | .checkAndIncrement limit _ | .checkDailyLimit limit => some limit
  | _ => none

theorem visit_window {check : LimitCheck} (h : check.windowLimit = some limit) :
    ∃ stop ≥ now, ∀ row, check.visit now row =
      (evaluateWindow (row.getD ⟨0, 0⟩) now stop limit).map .allowed some := by
  cases check with
  | checkAndIncrement limit windowHours =>
    cases h
    exact ⟨_, by omega, fun row => rfl⟩
  | checkDailyLimit limit =>
    cases h
    exact ⟨todayEnd now, by rw [todayEnd]; omega, fun row => rfl⟩
  | _ => cases h

/-- How many calls of one key are allowed in the window that ends at `stop`. -/
def allowedIn (p s v : String) (stop : Int) :
    List (Int × LimitCheck) → InMemoryFrequencyLimiter → Nat
  | [], _ => 0
  | (now, check) :: calls, l =>
    let r := l.perform now ⟨p, s, v, check⟩
    let window := (r.2.counts.lookup (getKey p s v check.limitType)).map (·.windowEnd)
    allowedIn p s v stop calls r.2 + if r.1 = .allowed true ∧ window = some stop then 1 else 0

/-- There is room in the counter for `n` calls in the window that ends at `stop`. -/
structure Counter.Spares (c : Counter) (limit : UInt32) (stop : Int) (n : Nat) : Prop where
  any : n ≤ limit.toNat
  past : stop < c.windowEnd → n = 0
  current : stop = c.windowEnd → n + c.count.toNat ≤ limit.toNat

variable {c c' : Counter} {calls : List (Int × LimitCheck)} {l : InMemoryFrequencyLimiter}

theorem evaluateWindow_spares (hlimit : 0 < limit) (hcount : c.count ≤ limit) (hend : now ≤ newEnd)
    (hr : evaluateWindow c now newEnd limit = (allowed, c')) : c'.count ≤ limit ∧
      (c'.Spares limit stop n →
        c.Spares limit stop (n + if allowed = true ∧ c'.windowEnd = stop then 1 else 0)) := by
  have hle := le_iff_toNat_le.mp hcount
  unfold evaluateWindow at hr
  split at hr
  · -- The window is over: this call is the first of the next one, whatever the limit.
    cases hr
    refine ⟨by grind, fun ⟨hany, hpast, hcurrent⟩ => ?_⟩
    constructor <;> grind
  · split at hr
    · cases hr
      exact ⟨hcount, fun h => by simpa using h⟩
    next hroom =>
      cases hr
      have hlt := UInt32.lt_iff_toNat_lt.mp (UInt32.not_le.mp hroom)
      have hbound := limit.toNat_lt
      have hnext : (c.count + 1).toNat = c.count.toNat + 1 :=
        (UInt32.toNat_add ..).trans (Nat.mod_eq_of_lt (Nat.lt_of_le_of_lt hlt hbound))
      refine ⟨by grind, fun ⟨hany, hpast, hcurrent⟩ => ?_⟩
      constructor <;> grind

theorem allowedIn_spares (hlimit : 0 < limit)
    (hcalls : ∀ call ∈ calls, call.2.limitType = kind ∧ call.2.windowLimit = some limit)
    (hrow : (l.counts.lookup (getKey p s v kind)).getD ⟨0, 0⟩ = c) (hcount : c.count ≤ limit) :
    c.Spares limit stop (allowedIn p s v stop calls l) := by
  induction calls generalizing l c with
  | nil =>
    rw [le_iff_toNat_le] at hcount
    exact ⟨Nat.zero_le _, fun _ => rfl, fun _ => by simpa [allowedIn] using hcount⟩
  | cons call calls ih =>
    obtain ⟨now, check⟩ := call
    obtain ⟨⟨rfl, hwindow⟩, hcalls⟩ := forall_mem_cons.mp hcalls
    obtain ⟨newEnd, hend, hvisit⟩ := visit_window hwindow
    obtain ⟨hresult, hlookup⟩ := perform_visit l now ⟨p, s, v, check⟩
    have hafter := (hlookup (getKey p s v check.limitType)).trans (if_pos rfl)
    dsimp only [LimitCall.id, LimitId.key] at hresult hafter
    rw [hvisit, hrow] at hresult hafter
    rw [allowedIn, hresult, hafter]
    rcases hr : evaluateWindow c now newEnd limit with ⟨allowed, c'⟩
    obtain ⟨hcount', hspares⟩ := evaluateWindow_spares hlimit hcount hend hr
    rw [hr] at hafter
    simpa using hspares (ih hcalls (congrArg (·.getD ⟨0, 0⟩) hafter) hcount')

/-- **The limit of a window**: no more calls of a key are allowed in a window than the limit, if
that is not zero. -/
theorem window_limit_kept (p s v kind : String) (limit : UInt32) (hlimit : 0 < limit)
    (hcalls : ∀ call ∈ calls, call.2.limitType = kind ∧ call.2.windowLimit = some limit)
    (hnew : l.counts.lookup (getKey p s v kind) = none) (stop : Int) :
    allowedIn p s v stop calls l ≤ limit.toNat :=
  (allowedIn_spares hlimit hcalls (congrArg (·.getD ⟨0, 0⟩) hnew) (Nat.zero_le _)).any

theorem window_limit_kept_daily : allowedIn "p" "caller" "1001" 86399
    [(1, .checkDailyLimit 1), (2, .checkDailyLimit 1)] new ≤ 1 :=
  window_limit_kept _ _ _ "daily" 1 (by decide) (by decide) rfl 86399

/-- The first call of a window is allowed under a limit of zero. -/
theorem zero_limit_exceeded :
    allowedIn "p" "caller" "1001" 86399 [(1, .checkDailyLimit 0)] new = 1 := by
  decide

/-! ## Cleanup -/

def LimiterOp.isCall : LimiterOp → Bool
  | .call _ => true
  | _ => false

def answers (chrono : Chrono) : List (Int × LimiterOp) → InMemoryFrequencyLimiter →
    List LimiterResult
  | [], _ => []
  | (now, op) :: ops, l =>
    let r := l.run chrono now op
    if op.isCall then r.1 :: answers chrono ops r.2 else answers chrono ops r.2

/-- No call comes in the second of an earlier cleanup, and the clock is that of the present age. -/
structure Apart (ops : List (Int × LimiterOp)) : Prop where
  later : ops.Pairwise fun a b => a.2 = .cleanup → b.2.isCall → a.1 < b.1
  times : ∀ op ∈ ops, 0 < op.1 ∧ op.1 < i64Max

/-- `l'` is `l` without counters whose windows are over before the next call. -/
structure Hides (ops : List (Int × LimiterOp)) (l l' : InMemoryFrequencyLimiter) : Prop where
  rows : ∀ key, l'.counts.lookup key = l.counts.lookup key ∨ l'.counts.lookup key = none ∧
    isConcurrencyKey key = false ∧
    ∀ c ∈ l.counts.lookup key, ∀ op ∈ ops, op.2.isCall → c.windowEnd < op.1
  slots : ∀ key, isConcurrencyKey key → ∀ c ∈ l'.counts.lookup key, c.windowEnd = i64Max

theorem visit_over {check : LimitCheck}
    (hkey : isConcurrencyKey (getKey p s v check.limitType) = false) (hnow : 0 < now)
    {row : Option Counter} (hrow : ∀ c ∈ row, c.windowEnd < now) :
    check.visit now row = check.visit now none := by
  cases row with
  | none => rfl
  | some c =>
    have hover := hrow c rfl
    cases check with
    | checkConcurrency | releaseConcurrency => cases hkey.symm.trans (isConcurrencyKey_getKey ..)
    | _ => simp [LimitCheck.visit, evaluateWindow, hover, hnow]

theorem visit_slots {check : LimitCheck} (hkey : isConcurrencyKey (getKey p s v check.limitType))
    {row : Option Counter} (hrow : ∀ c ∈ row, c.windowEnd = i64Max) :
    ∀ c ∈ (check.visit now row).2, c.windowEnd = i64Max := by
  cases check with
  | checkAndIncrement =>
    change isConcurrencyKey (getKey p s v "frequency") = true at hkey
    cases hkey.symm.trans (not_isConcurrencyKey_getKey (by decide) (by decide) p s v)
  | checkDailyLimit =>
    change isConcurrencyKey (getKey p s v "daily") = true at hkey
    cases hkey.symm.trans (not_isConcurrencyKey_getKey (by decide) (by decide) p s v)
  | checkConcurrency =>
    dsimp only [LimitCheck.visit]
    split <;> simp
  | releaseConcurrency =>
    cases row with
    | none => simp [LimitCheck.visit]
    | some c =>
      have := hrow c rfl
      simp [LimitCheck.visit]
      split <;> exact this

theorem lookup_clearLimits (filter : LimitFilter) :
    (l.clearLimits filter).2.counts.lookup key =
      if (parseLimitKey key).any (keyMatchesFilters · filter) then none
      else l.counts.lookup key := by
  simp only [clearLimits, lookup_eraseAll]
  by_cases hmem : key ∈ l.counts.keys
  · simp [hmem]
  · simp [AList.lookup_eq_none.mpr hmem]

/-- The same change of a row, or none, on both sides. -/
theorem Hides.change (h : Hides (op :: ops) l l') {m m' : InMemoryFrequencyLimiter}
    (hrows : ∀ key, m'.counts.lookup key = m.counts.lookup key ∧
        (isConcurrencyKey key → ∀ c ∈ m.counts.lookup key, c.windowEnd = i64Max) ∨
      m'.counts.lookup key = l'.counts.lookup key ∧ m.counts.lookup key = l.counts.lookup key) :
    Hides ops m m' := by
  refine ⟨fun key => ?_, fun key hkey => ?_⟩
  · obtain ⟨heq, -⟩ | ⟨heq', heq⟩ := hrows key
    · exact .inl heq
    · rw [heq', heq]
      obtain hsame | ⟨hnone, hkey, hover⟩ := h.rows key
      · exact .inl hsame
      · exact .inr ⟨hnone, hkey, fun c hc op hop => hover c hc op (mem_cons_of_mem _ hop)⟩
  · obtain ⟨heq, hslots⟩ | ⟨heq', -⟩ := hrows key
    · rw [heq]
      exact hslots hkey
    · rw [heq']
      exact h.slots key hkey

theorem Hides.perform (h : Hides ((now, .call call) :: ops) l l') (hnow : 0 < now) :
    (l'.perform now call).1 = (l.perform now call).1 ∧
      Hides ops (l.perform now call).2 (l'.perform now call).2 := by
  obtain ⟨hresult, hlookup⟩ := perform_visit l now call
  obtain ⟨hresult', hlookup'⟩ := perform_visit l' now call
  have hvisit : call.check.visit now (l'.counts.lookup call.id.key) =
      call.check.visit now (l.counts.lookup call.id.key) := by
    obtain heq | ⟨hnone, hkey, hover⟩ := h.rows call.id.key
    · rw [heq]
    · rw [hnone]
      exact (visit_over hkey hnow fun c hc => hover c hc _ mem_cons_self rfl).symm
  refine ⟨by rw [hresult, hresult', hvisit], h.change fun key => ?_⟩
  rw [hlookup, hlookup']
  split
  next heq =>
    refine .inl ⟨by rw [hvisit], fun hkey => ?_⟩
    rw [← hvisit]
    exact visit_slots (heq ▸ hkey) (heq ▸ h.slots key hkey)
  · exact .inr ⟨rfl, rfl⟩

theorem Hides.clearLimits (h : Hides (op :: ops) l l') (filter : LimitFilter) :
    Hides ops (l.clearLimits filter).2 (l'.clearLimits filter).2 := by
  refine h.change fun key => ?_
  rw [lookup_clearLimits, lookup_clearLimits]
  split
  · exact .inl ⟨rfl, fun _ => nofun⟩
  · exact .inr ⟨rfl, rfl⟩

theorem Hides.cleanup (h : Hides ops l l') (hmax : now < i64Max)
    (hlater : ∀ op ∈ ops, op.2.isCall → now < op.1) : Hides ops l (l'.cleanup now) := by
  refine ⟨fun key => ?_, fun key hkey c hc => ?_⟩
  · have hrows := h.rows key
    rw [InMemoryFrequencyLimiter.cleanup, lookup_retain]
    cases hrow : l'.counts.lookup key with
    | none => simpa [hrow] using hrows
    | some c =>
      by_cases hkept : c.windowEnd > now
      · simpa [hrow, hkept, Option.filter] using hrows
      · -- The counter is dropped: its window is over for every call in a later second.
        have heq : some c = l.counts.lookup key := by simpa [hrow] using hrows
        refine .inr ⟨by simp [Option.filter, hkept], ?_, fun c' hc op hop hcall => ?_⟩
        · rw [Bool.eq_false_iff]
          intro hkey
          have := h.slots key hkey c hrow
          omega
        · obtain rfl : c = c' := some.inj (heq.trans hc)
          have := hlater op hop hcall
          omega
  · rw [InMemoryFrequencyLimiter.cleanup, lookup_retain, mem_def,
      filter_eq_some_iff] at hc
    exact h.slots key hkey c hc.1

theorem answers_hides (hops : Apart ops) (h : Hides ops l l') :
    answers chrono ops l' = answers chrono (ops.filter (·.2 ≠ .cleanup)) l := by
  induction ops generalizing l l' with
  | nil => rfl
  | cons op ops ih =>
    obtain ⟨now, op⟩ := op
    obtain ⟨hlater, hrest⟩ := pairwise_cons.mp hops.later
    obtain ⟨⟨hpos, hmax⟩, htimes⟩ := forall_mem_cons.mp hops.times
    have htail : Hides ops l l' := h.change fun _ => .inr ⟨rfl, rfl⟩
    have ih {l l'} (h : Hides ops l l') := ih ⟨hrest, htimes⟩ h
    cases op with
    | call call =>
      obtain ⟨hresult, hnext⟩ := h.perform hpos
      exact congrArg₂ cons hresult (ih hnext)
    | listLimits filter => exact ih htail
    | clearLimits filter => exact ih (h.clearLimits filter)
    | cleanup => exact ih (htail.cleanup hmax fun op hop => hlater op hop rfl)

/-- **Cleanup is not observed** by calls in later seconds. -/
theorem cleanup_unobserved (chrono : Chrono) (ops : List (Int × LimiterOp)) (hops : Apart ops) :
    answers chrono ops new = answers chrono (ops.filter (·.2 ≠ .cleanup)) new :=
  answers_hides hops ⟨fun _ => .inl rfl, fun _ _ => nofun⟩

def callTwice (cleanup next : Int) : List (Int × LimiterOp) :=
  let call : LimiterOp := .call ⟨"p", "caller", "1001", .checkDailyLimit 1⟩
  [(86399, call), (cleanup, .cleanup), (next, call)]

theorem cleanup_unobserved_next_day :
    answers ⟨fun _ => true⟩ (callTwice 86399 86400) new = [.allowed true, .allowed true] :=
  cleanup_unobserved _ _ ⟨by decide, by decide⟩

/-- In the last second of its window, a counter is forgotten. -/
theorem cleanup_observed :
    answers ⟨fun _ => true⟩ (callTwice 86399 86399) new = [.allowed true, .allowed true] ∧
    answers ⟨fun _ => true⟩ ((callTwice 86399 86399).filter (·.2 ≠ .cleanup)) new =
      [.allowed true, .allowed false] := by
  decide

end RustPbx.Call
