import RustPbx.Call.LimitKeys

/-!
The limiter that keeps its counters in a database.

Its checks have branches of their own for a row that is missing. `Same` says when a row and a
counter are the same; from there on calls get the same answer, except where the branches differ: the
first concurrency check under a limit of zero, a clock at or before the epoch, the end of a window
that the date library cannot represent, and keys that the in-memory limiter takes for one.
-/

namespace RustPbx.Call

open InMemoryFrequencyLimiter Option

structure DbRow where
  count : UInt32
  windowEnd : Option Int
  updatedAt : Int

/-- At most one row for each key: a call that finds none inserts one in the same transaction. -/
structure DbFrequencyLimiter where
  rows : Table LimitId DbRow

/-- A time some hours later; there is a panic if it cannot be represented. -/
def Chrono.addHours (chrono : Chrono) (now : Int) (hours : UInt32) : Option Int :=
  let time := now + hours.toNat * 3600
  if chrono.representable time then some time else none

namespace DbFrequencyLimiter

variable (chrono : Chrono) (now : Int)

variable (db : DbFrequencyLimiter)

def set (id : LimitId) (row : DbRow) : DbFrequencyLimiter :=
  ⟨db.rows.insert id row⟩

def startWindow (id : LimitId) (newWindowEnd : Option Int) : Option (Bool × DbFrequencyLimiter) :=
  newWindowEnd.map fun windowEnd => (true, db.set id ⟨1, some windowEnd, now⟩)

def checkWindow (id : LimitId) (newWindowEnd : Option Int) (limit : UInt32) :
    Option (Bool × DbFrequencyLimiter) :=
  match db.rows.lookup id with
  | some model =>
    match model.windowEnd with
    | some windowEnd =>
      if now > windowEnd then db.startWindow now id newWindowEnd
      else if model.count ≥ limit then some (false, db)
      else some (true, db.set id { model with count := model.count + 1, updatedAt := now })
    | none => db.startWindow now id newWindowEnd
  | none => db.startWindow now id newWindowEnd

def checkAndIncrement (policyId scope scopeValue : String) (limit windowHours : UInt32) :
    Option (Bool × DbFrequencyLimiter) :=
  db.checkWindow now ⟨policyId, scope, scopeValue, "frequency"⟩ (chrono.addHours now windowHours)
    limit

def checkDailyLimit (policyId scope scopeValue : String) (limit : UInt32) :
    Option (Bool × DbFrequencyLimiter) :=
  db.checkWindow now ⟨policyId, scope, scopeValue, "daily"⟩ (some (todayEnd now)) limit

def checkConcurrency (policyId scope scopeValue : String) (maxConcurrency : UInt32) :
    Bool × DbFrequencyLimiter :=
  let id : LimitId := ⟨policyId, scope, scopeValue, "concurrency"⟩
  match db.rows.lookup id with
  | some model =>
    if model.count ≥ maxConcurrency then (false, db)
    else (true, db.set id { model with count := model.count + 1, updatedAt := now })
  | none => (true, db.set id ⟨1, none, now⟩)

def releaseConcurrency (policyId scope scopeValue : String) : DbFrequencyLimiter :=
  let id : LimitId := ⟨policyId, scope, scopeValue, "concurrency"⟩
  match db.rows.lookup id with
  | some model =>
    if model.count > 0 then
      db.set id { model with count := model.count - 1, updatedAt := now }
    else db
  | none => db

/-- A call that counts. Without a result there is a panic, and the transaction is rolled back. -/
def perform (call : LimitCall) : Option (LimiterResult × DbFrequencyLimiter) :=
  let (p, s, v) := (call.policyId, call.scope, call.scopeValue)
  match call.check with
  | .checkAndIncrement limit windowHours =>
    (db.checkAndIncrement chrono now p s v limit windowHours).map (·.map .allowed id)
  | .checkDailyLimit limit => (db.checkDailyLimit now p s v limit).map (·.map .allowed id)
  | .checkConcurrency maxConcurrency =>
    some ((db.checkConcurrency now p s v maxConcurrency).map .allowed id)
  | .releaseConcurrency => some (.done, db.releaseConcurrency now p s v)

def results : List (Int × LimitCall) → DbFrequencyLimiter → List (Option LimiterResult)
  | [], _ => []
  | (now, call) :: calls, db =>
    match db.perform chrono now call with
    | some (result, db) => some result :: results calls db
    | none => none :: results calls db

end DbFrequencyLimiter

def InMemoryFrequencyLimiter.results :
    List (Int × LimitCall) → InMemoryFrequencyLimiter → List (Option LimiterResult)
  | [], _ => []
  | (now, call) :: calls, l =>
    let (result, l) := l.perform now call
    some result :: results calls l

/-! ## Rows and counters -/

def Same (id : LimitId) : Option Counter → Option DbRow → Prop
  | none, none => True
  | some c, some row => row.count = c.count ∧
      row.windowEnd = if id.limitType = "concurrency" then none else some c.windowEnd
  | _, _ => False

def SameRows (t : TupleLimiter) (db : DbFrequencyLimiter) : Prop :=
  ∀ id, Same id (t.counts.lookup id) (db.rows.lookup id)

section SameRows

variable {id : LimitId}

theorem SameRows.set (h : SameRows t db) (hsame : Same id (some c) (some row)) :
    SameRows ⟨t.counts.insert id c⟩ (db.set id row) := by
  intro id'
  rw [DbFrequencyLimiter.set, Table.lookup_insert_eq, Table.lookup_insert_eq]
  split
  next heq =>
    rw [heq]
    exact hsame
  · exact h id'

theorem SameRows.keep (h : SameRows t db) (hsame : Same id (some c) (db.rows.lookup id)) :
    SameRows ⟨t.counts.insert id c⟩ db := by
  intro id'
  rw [Table.lookup_insert_eq]
  split
  next heq =>
    rw [heq]
    exact hsame
  · exact h id'

theorem SameRows.lookup (h : SameRows t db) (id : LimitId) :
    (t.counts.lookup id = none ∧ db.rows.lookup id = none) ∨
      ∃ c row, t.counts.lookup id = some c ∧ db.rows.lookup id = some row ∧
        Same id (some c) (some row) := by
  have hsame := h id
  cases hcounter : t.counts.lookup id with
  | none =>
    cases hrow : db.rows.lookup id with
    | none => exact .inl ⟨rfl, rfl⟩
    | some row =>
      rw [hcounter, hrow] at hsame
      exact hsame.elim
  | some c =>
    cases hrow : db.rows.lookup id with
    | none =>
      rw [hcounter, hrow] at hsame
      exact hsame.elim
    | some row =>
      rw [hcounter, hrow] at hsame
      exact .inr ⟨c, row, rfl, rfl, hsame⟩

def DbFrequencyLimiter.WindowOver (now : Int) (db : DbFrequencyLimiter) (id : LimitId) : Prop :=
  ∀ row ∈ db.rows.lookup id, ∀ windowEnd ∈ row.windowEnd, windowEnd < now

theorem SameRows.startWindow (h : SameRows t db) (hid : id.limitType ≠ "concurrency")
    (now windowEnd : Int) : SameRows ⟨t.counts.insert id ⟨1, windowEnd⟩⟩
      (db.set id ⟨1, some windowEnd, now⟩) :=
  h.set ⟨rfl, (if_neg hid).symm⟩

theorem checkWindow_same (h : SameRows t db) (hid : id.limitType ≠ "concurrency")
    (hnow : db.rows.lookup id = none → 0 < now)
    (hend : db.WindowOver now id → newWindowEnd = some windowEnd) (limit : UInt32) :
    let entry := t.entry id ⟨0, 0⟩ fun c => evaluateWindow c now windowEnd limit
    ∃ db', db.checkWindow now id newWindowEnd limit = some (entry.1, db') ∧
      SameRows entry.2 db' := by
  unfold DbFrequencyLimiter.checkWindow TupleLimiter.entry
  dsimp only
  unfold DbFrequencyLimiter.WindowOver at hend
  obtain ⟨hcounter, hrow⟩ | ⟨c, row, hcounter, hrow, hcount, hwindow⟩ := h.lookup id
  · rw [hrow] at hnow hend
    rw [hcounter, hrow, hend nofun, getD_none, evaluateWindow, if_pos (hnow rfl)]
    exact ⟨_, rfl, h.startWindow hid now _⟩
  · rw [if_neg hid] at hwindow
    rw [hrow] at hend
    rw [hcounter, hrow, getD_some, evaluateWindow]
    dsimp only
    rw [hwindow, hcount]
    dsimp only
    split
    next hover =>
      have hsome : newWindowEnd = some windowEnd := by
        apply hend
        rintro _ ⟨⟩ e he
        rw [hwindow] at he
        obtain rfl := mem_some.mp he
        exact hover
      rw [hsome]
      exact ⟨_, rfl, h.startWindow hid now _⟩
    · split
      · refine ⟨_, rfl, h.keep ?_⟩
        rw [hrow]
        exact ⟨hcount, hwindow.trans (if_neg hid).symm⟩
      · exact ⟨_, rfl, h.set ⟨rfl, (if_neg hid).symm⟩⟩

theorem checkConcurrency_same (h : SameRows t db) (now : Int)
    (hzero : maxConcurrency = 0 → db.rows.lookup ⟨p, s, v, "concurrency"⟩ ≠ none) :
    let entry := t.entry ⟨p, s, v, "concurrency"⟩ ⟨0, i64Max⟩ fun c =>
      if c.count ≥ maxConcurrency then (false, { c with windowEnd := i64Max })
      else (true, ⟨c.count + 1, i64Max⟩)
    (db.checkConcurrency now p s v maxConcurrency).1 = entry.1 ∧
      SameRows entry.2 (db.checkConcurrency now p s v maxConcurrency).2 := by
  unfold DbFrequencyLimiter.checkConcurrency TupleLimiter.entry
  dsimp only
  obtain ⟨hcounter, hrow⟩ | ⟨c, row, hcounter, hrow, hcount, hwindow⟩ :=
    h.lookup ⟨p, s, v, "concurrency"⟩
  · have hpos : ¬ (0 : UInt32) ≥ maxConcurrency :=
      fun hle => hzero (UInt32.le_zero_iff.mp hle) hrow
    rw [hcounter, hrow, getD_none, if_neg hpos]
    exact ⟨rfl, h.set ⟨rfl, (if_pos rfl).symm⟩⟩
  · rw [hcounter, hrow, getD_some]
    dsimp only
    rw [hcount]
    split
    · refine ⟨rfl, h.keep ?_⟩
      rw [hrow]
      exact ⟨hcount, hwindow⟩
    · exact ⟨rfl, h.set ⟨rfl, hwindow⟩⟩

theorem releaseConcurrency_same (h : SameRows t db) :
    SameRows (t.release ⟨p, s, v, "concurrency"⟩) (db.releaseConcurrency now p s v) := by
  unfold DbFrequencyLimiter.releaseConcurrency TupleLimiter.release
  dsimp only
  obtain ⟨hcounter, hrow⟩ | ⟨c, row, hcounter, hrow, hcount, hwindow⟩ :=
    h.lookup ⟨p, s, v, "concurrency"⟩
  · rw [hcounter, hrow]
    exact h
  · rw [hcounter, hrow]
    dsimp only
    rw [hcount]
    split
    · exact h.set ⟨rfl, hwindow⟩
    · exact h

/-- Calls on which the branches agree: those that find no row have a clock after the epoch or a
limit other than zero, and the end of a new window can be represented. -/
def LimitCall.Alike (chrono : Chrono) (now : Int) (db : DbFrequencyLimiter) (call : LimitCall) :
    Prop :=
  match call.check with
  | .checkAndIncrement _ windowHours =>
    (db.rows.lookup call.id = none → 0 < now) ∧
      (db.WindowOver now call.id → chrono.representable (now + windowHours.toNat * 3600))
  | .checkDailyLimit _ => db.rows.lookup call.id = none → 0 < now
  | .checkConcurrency maxConcurrency => maxConcurrency = 0 → db.rows.lookup call.id ≠ none
  | .releaseConcurrency => True

/-- **One call** has the same result on both sides, and the counters are the same after it. -/
theorem perform_same (h : SameRows t db) (halike : call.Alike chrono now db) :
    ∃ db', db.perform chrono now call = some ((t.perform now call).1, db') ∧
      SameRows (t.perform now call).2 db' := by
  obtain ⟨p, s, v, check⟩ := call
  cases check with
  | checkAndIncrement limit windowHours =>
    obtain ⟨hnow, hrep⟩ := halike
    have hid : LimitId.limitType ⟨p, s, v, "frequency"⟩ ≠ "concurrency" := by simp
    obtain ⟨db', hcheck, hsame⟩ :=
      checkWindow_same h hid hnow (fun hover => if_pos (hrep hover)) limit
    refine ⟨db', ?_, hsame⟩
    rw [DbFrequencyLimiter.perform]
    dsimp only
    rw [DbFrequencyLimiter.checkAndIncrement, Chrono.addHours, hcheck]
    rfl
  | checkDailyLimit limit =>
    have hid : LimitId.limitType ⟨p, s, v, "daily"⟩ ≠ "concurrency" := by simp
    obtain ⟨db', hcheck, hsame⟩ := checkWindow_same h hid halike (fun _ => rfl) limit
    refine ⟨db', ?_, hsame⟩
    rw [DbFrequencyLimiter.perform]
    dsimp only
    rw [DbFrequencyLimiter.checkDailyLimit, hcheck]
    rfl
  | checkConcurrency maxConcurrency =>
    obtain ⟨hresult, hsame⟩ := checkConcurrency_same h now halike
    refine ⟨_, ?_, hsame⟩
    exact congrArg some (Prod.ext (congrArg LimiterResult.allowed hresult) rfl)
  | releaseConcurrency => exact ⟨_, rfl, releaseConcurrency_same h⟩

end SameRows

def DbFrequencyLimiter.AllAlike (chrono : Chrono) :
    List (Int × LimitCall) → DbFrequencyLimiter → Prop
  | [], _ => True
  | (now, call) :: calls, db => call.Alike chrono now db ∧
      ∀ r ∈ db.perform chrono now call, AllAlike chrono calls r.2

theorem results_same (hinj : ∀ id id', P id → P id' → id.key = id'.key → id = id')
    (hl : t.counts.Relabels LimitId.key P l.counts) (hdb : SameRows t db)
    (hids : ∀ e ∈ calls, P e.2.id) (halike : db.AllAlike chrono calls) :
    results calls l = DbFrequencyLimiter.results chrono calls db := by
  induction calls generalizing t l db with
  | nil => rfl
  | cons e calls ih =>
    obtain ⟨now, call⟩ := e
    obtain ⟨hcall, hrest⟩ := halike
    obtain ⟨hresult, hcounts⟩ :=
      perform_relabels hinj hl (hids _ List.mem_cons_self)
    obtain ⟨db', hperform, hsame⟩ := perform_same hdb hcall
    have hcalls := ih hcounts hsame (fun e he => hids e (List.mem_cons_of_mem _ he))
      (hrest _ hperform)
    rw [results, DbFrequencyLimiter.results, hperform]
    dsimp only
    rw [hcalls, hresult]

/-- **The two limiters** answer calls alike, if no two keys are joined to one text and the branches
agree on each call. -/
theorem limiters_agree (chrono : Chrono) (calls : List (Int × LimitCall))
    (hkeys : ∀ e ∈ calls, ∀ e' ∈ calls, e.2.id.key = e'.2.id.key → e.2.id = e'.2.id)
    (halike : DbFrequencyLimiter.AllAlike chrono calls ⟨∅⟩) : results calls .new =
      DbFrequencyLimiter.results chrono calls ⟨∅⟩ := by
  have hinj : ∀ id id', (∃ e ∈ calls, e.2.id = id) → (∃ e ∈ calls, e.2.id = id') →
      id.key = id'.key → id = id' := by
    rintro _ _ ⟨e, he, rfl⟩ ⟨e', he', rfl⟩ heq
    exact hkeys e he e' he' heq
  have hempty : SameRows ⟨∅⟩ ⟨∅⟩ := by
    intro id
    trivial
  exact results_same hinj Table.relabels_empty hempty (fun e he => ⟨e, he, rfl⟩) halike

def allowedThenClosed : List (Int × LimitCall) :=
  [(1, ⟨"p", "caller", "1001", .checkConcurrency 1⟩),
    (2, ⟨"p", "caller", "1001", .releaseConcurrency⟩),
    (3, ⟨"p", "caller", "1001", .checkConcurrency 0⟩)]

theorem limiters_agree_closed : results allowedThenClosed .new =
      DbFrequencyLimiter.results ⟨fun _ => true⟩ allowedThenClosed ⟨∅⟩ := by
  refine limiters_agree ⟨fun _ => true⟩ allowedThenClosed (by decide) ⟨nofun, ?_⟩
  rintro _ ⟨⟩
  refine ⟨trivial, ?_⟩
  rintro _ ⟨⟩
  refine ⟨fun _ => by decide, ?_⟩
  rintro _ ⟨⟩
  trivial

/-- Under a limit of zero the first call is rejected by one limiter and allowed by the other, which
looks at the limit only when there is a row. -/
theorem first_call_differs : results [(1, ⟨"p", "caller", "1001", .checkConcurrency 0⟩)] .new =
      [some (.allowed false)] ∧
    DbFrequencyLimiter.results ⟨fun _ => true⟩
      [(1, ⟨"p", "caller", "1001", .checkConcurrency 0⟩)] ⟨∅⟩ = [some (.allowed true)] := by
  decide

end RustPbx.Call
