import RustPbx.Proxy.TrunkIndex

/-!
Lookups of trunks while the trunks are reloaded.

A reload clears the map of trunks one shard after the other, inserts the new trunks one after the
other, and then replaces the index. A lookup by an address loads the index once and reads the map
once for each candidate. `Between` is the part of a reload in which a name is missing from the map.
-/

namespace RustPbx.Proxy

open Routing Function

structure InboundQuery where
  addr : IpAddr
  fromUser : Option String
  toUser : Option String
  deriving DecidableEq

structure Resolving where
  query : InboundQuery
  rest : List (List String)
  matched : Option TrunkContext

inductive Lookup where
  | idle
  | got (name : String) (trunk : Option InboundTrunk)
  | resolving (r : Resolving)
  | resolved (query : InboundQuery) (trunk : Option TrunkContext)

inductive Reload where
  | idle
  | clearing (next : Nat) (trunks : Trunks)
  | inserting (left : List (Sigma fun _ : String => InboundTrunk)) (trunks : Trunks)

/-- The map of trunks, the index, and what the tasks are doing. -/
structure DataContext where
  trunks : Trunks
  aclInboundTrunks : NetworkMap String
  reloads : Nat → Reload
  lookups : Nat → Lookup

structure DataEnv where
  libs : TrunkLibs
  shards : Nat
  shard : String → Fin shards

variable (env : DataEnv)

def Resolving.next (r : Resolving) (getTrunk : String → Option InboundTrunk) : Lookup :=
  match r.rest with
  | [] => .resolved r.query r.matched
  | [] :: lists => .resolving { r with rest := lists }
  | (name :: names) :: lists =>
    match getTrunk name with
    | none => .resolving { r with rest := names :: lists }
    | some trunk =>
      if trunk.matchesIncomingUserPrefixes env.libs r.query.fromUser r.query.toUser then
        -- the loop over this network's names ends here, the one over the networks does not
        .resolving { r with rest := lists, matched := some ⟨trunk.id, name, trunk.didNumbers⟩ }
      else .resolving { r with rest := names :: lists }

inductive DataAction where
  | reloadTrunks (task : Nat) (trunks : Trunks)
  | publish (task : Nat)
  | getTrunk (task : Nat) (name : String)
  | resolveInboundTrunkByIp (task : Nat) (query : InboundQuery)
  | read (task : Nat)

namespace DataContext

def loaded (trunks : Trunks) : DataContext :=
  ⟨trunks, buildIndex env.libs trunks, fun _ => .idle, fun _ => .idle⟩

section

variable (s : DataContext)

def getTrunk (name : String) : Option InboundTrunk :=
  s.trunks.lookup name

def setReload (task : Nat) (reload : Reload) : DataContext :=
  { s with reloads := update s.reloads task reload }

def setLookup (task : Nat) (lookup : Lookup) : DataContext :=
  { s with lookups := update s.lookups task lookup }

def publish (task : Nat) : Reload → Option DataContext
  | .idle => none
  | .clearing next trunks =>
    if next < env.shards then
      let s := { s with trunks := s.trunks.retain fun name _ => env.shard name ≠ next }
      some (s.setReload task (.clearing (next + 1) trunks))
    else some (s.setReload task (.inserting trunks.entries trunks))
  | .inserting (row :: left) trunks =>
    let s := { s with trunks := s.trunks.insert row.1 row.2 }
    some (s.setReload task (.inserting left trunks))
  | .inserting [] trunks =>
    let s := { s with aclInboundTrunks := buildIndex env.libs trunks }
    some (s.setReload task .idle)

def step : DataAction → Option DataContext
  | .reloadTrunks task trunks =>
    match s.reloads task with
    | .idle => some (s.setReload task (.clearing 0 trunks))
    | _ => none
  | .publish task => s.publish env task (s.reloads task)
  | .getTrunk task name =>
    match s.lookups task with
    | .resolving _ => none
    | _ => some (s.setLookup task (.got name (s.getTrunk name)))
  | .resolveInboundTrunkByIp task query =>
    match s.lookups task with
    | .resolving _ => none
    | _ =>
      let lists := env.libs.trie.coverValues s.aclInboundTrunks query.addr
      some (s.setLookup task (.resolving ⟨query, lists, none⟩))
  | .read task =>
    match s.lookups task with
    | .resolving r => some (s.setLookup task (r.next env s.getTrunk))
    | _ => none

end

inductive Step (s : DataContext) : DataAction → DataContext → Prop where
  | reload {task trunks} (h : s.reloads task = .idle) :
    Step s (.reloadTrunks task trunks) (s.setReload task (.clearing 0 trunks))
  | clear {task next trunks} (h : s.reloads task = .clearing next trunks)
      (hnext : next < env.shards) :
    Step s (.publish task)
      ({ s with trunks := s.trunks.retain fun name _ => env.shard name ≠ next }.setReload task
        (.clearing (next + 1) trunks))
  | cleared {task next trunks} (h : s.reloads task = .clearing next trunks)
      (hnext : env.shards ≤ next) :
    Step s (.publish task) (s.setReload task (.inserting trunks.entries trunks))
  | insert {task row left trunks} (h : s.reloads task = .inserting (row :: left) trunks) :
    Step s (.publish task)
      ({ s with trunks := s.trunks.insert row.1 row.2 }.setReload task (.inserting left trunks))
  | store {task trunks} (h : s.reloads task = .inserting [] trunks) :
    Step s (.publish task)
      ({ s with aclInboundTrunks := buildIndex env.libs trunks }.setReload task .idle)
  | get {task name} :
    Step s (.getTrunk task name) (s.setLookup task (.got name (s.getTrunk name)))
  | load {task query} :
    Step s (.resolveInboundTrunkByIp task query)
      (s.setLookup task
        (.resolving ⟨query, env.libs.trie.coverValues s.aclInboundTrunks query.addr, none⟩))
  | read {task r} (h : s.lookups task = .resolving r) :
    Step s (.read task) (s.setLookup task (r.next env s.getTrunk))

variable {env}

theorem publish_cases (h : s.publish env task (s.reloads task) = some s') :
    Step env s (.publish task) s' := by
  cases hreload : s.reloads task with
  | idle =>
    rw [hreload] at h
    cases h
  | clearing next trunks =>
    rw [hreload, publish] at h
    split at h
    next hnext =>
      cases h
      exact .clear hreload hnext
    next hnext =>
      cases h
      exact .cleared hreload (Nat.le_of_not_lt hnext)
  | inserting left trunks =>
    rw [hreload] at h
    cases left with
    | nil =>
      cases h
      exact .store hreload
    | cons row left =>
      cases h
      exact .insert hreload

theorem step_cases (h : s.step env action = some s') : Step env s action s' := by
  cases action with
  | reloadTrunks task trunks =>
    rw [step] at h
    split at h
    next hidle =>
      cases h
      exact .reload hidle
    · cases h
  | publish task => exact publish_cases h
  | getTrunk task name =>
    rw [step] at h
    split at h
    · cases h
    · cases h
      exact .get
  | resolveInboundTrunkByIp task query =>
    rw [step] at h
    split at h
    · cases h
    · cases h
      exact .load
  | read task =>
    rw [step] at h
    split at h
    next r hr =>
      cases h
      exact .read hr
    · cases h

variable (env) in
def Runs (C : DataContext → DataAction → Prop) : DataContext → DataContext → Prop :=
  Relation.ReflTransGen fun s s' => ∃ action, C s action ∧ s.step env action = some s'

end DataContext

/-! ## Reading a name -/

variable (name : String)

/-- The part of a reload in which it has cleared the name and not inserted it. -/
def Reload.Between : Reload → Prop
  | .idle => False
  | .clearing next _ => env.shard name < next
  | .inserting left _ => ∃ row ∈ left, row.1 = name

def Lookup.Reads : Lookup → Prop
  | .resolving ⟨_, (first :: _) :: _, _⟩ => first = name
  | _ => False

/-- The configurations that are loaded have the property `P`. -/
def Loads (P : Trunks → Prop) (_ : DataContext) : DataAction → Prop
  | .reloadTrunks _ trunks => P trunks
  | _ => True

/-- No reload is between clearing and inserting the name when it is read. -/
def Settled (s : DataContext) : DataAction → Prop
  | .getTrunk _ n => n = name → ∀ task, ¬ (s.reloads task).Between env name
  | .read task => (s.lookups task).Reads name → ∀ task', ¬ (s.reloads task').Between env name
  | _ => True

def Configured (P : Trunks → Prop) (trunk : InboundTrunk) : Prop :=
  ∃ trunks, P trunks ∧ trunks.lookup name = some trunk

def Reload.From (P : Trunks → Prop) : Reload → Prop
  | .idle => True
  | .clearing _ trunks => P trunks
  | .inserting left trunks => P trunks ∧ ∀ row ∈ left, trunks.lookup row.1 = some row.2

/-- **The map and the index** come from configurations with the property, and the name is missing
only while a reload is `Between`. -/
structure DataContext.Sourced (P : Trunks → Prop) (s : DataContext) : Prop where
  configured : ∀ trunk, s.getTrunk name = some trunk → Configured name P trunk
  missing : s.getTrunk name = none → ∃ task, (s.reloads task).Between env name
  index : ∃ trunks, P trunks ∧ s.aclInboundTrunks = buildIndex env.libs trunks
  reloads : ∀ task, (s.reloads task).From P

section Sourced

variable {env name} {P : Trunks → Prop} {s : DataContext}
  (hP : ∀ trunks, P trunks → ∃ trunk, trunks.lookup name = some trunk)

theorem DataContext.Sourced.from_of (h : s.Sourced env name P) (hreload : s.reloads task = reload) :
    reload.From P :=
  hreload ▸ h.reloads task

theorem Reload.from_update (h : ∀ task, (s.reloads task).From P)
    (hreload : reload.From P) (task' : Nat) : ((s.setReload task reload).reloads task').From P :=
  (forall_update_iff s.reloads fun _ r => r.From P).mpr ⟨hreload, fun task _ => h task⟩ task'

theorem Reload.between_update (h : ∃ task, (s.reloads task).Between env name)
    (hold : s.reloads task = old) (hreload : old.Between env name → reload.Between env name) :
    ∃ task', ((s.setReload task reload).reloads task').Between env name := by
  obtain ⟨task', hbetween⟩ := h
  apply (exists_update_iff s.reloads fun _ r => r.Between env name).mpr
  by_cases heq : task' = task
  · rw [heq, hold] at hbetween
    exact .inl (hreload hbetween)
  · exact .inr ⟨task', heq, hbetween⟩

include hP in
theorem DataContext.Step.sourced (hstep : DataContext.Step env s action s')
    (h : s.Sourced env name P) (hloads : Loads P s action) : s'.Sourced env name P := by
  cases hstep with
  | @reload task trunks hidle =>
    refine ⟨h.configured, fun hnone => ?_, h.index, Reload.from_update h.reloads hloads⟩
    exact Reload.between_update (h.missing hnone) hidle False.elim
  | @clear task next trunks hreload hnext =>
    have hfrom := h.from_of hreload
    refine ⟨fun trunk htrunk => ?_, fun hnone => ?_, h.index, Reload.from_update h.reloads hfrom⟩
    · change (s.trunks.retain _).lookup name = some trunk at htrunk
      rw [Table.lookup_retain, Option.filter_eq_some_iff] at htrunk
      exact h.configured trunk htrunk.1
    · change (s.trunks.retain _).lookup name = none at hnone
      rw [Table.lookup_retain] at hnone
      by_cases hshard : (env.shard name).val = next
      · refine ⟨task, ?_⟩
        change (update s.reloads task _ task).Between env name
        rw [update_self]
        exact Nat.lt_succ_of_le hshard.le
      · have hold : s.getTrunk name = none := by
          rw [Option.filter_eq_none_iff] at hnone
          apply Option.eq_none_iff_forall_not_mem.mpr
          intro trunk htrunk
          exact hnone trunk htrunk (decide_eq_true hshard)
        exact Reload.between_update (h.missing hold) hreload Nat.lt_succ_of_lt
  | @cleared task next trunks hreload hnext =>
    have hfrom := h.from_of hreload
    have hrows : ∀ row ∈ trunks.entries, trunks.lookup row.1 = some row.2 :=
      fun row hrow => Table.Row.lookup hrow
    refine ⟨h.configured, fun hnone => ?_, h.index, Reload.from_update h.reloads ⟨hfrom, hrows⟩⟩
    refine Reload.between_update (h.missing hnone) hreload fun _ => ?_
    obtain ⟨trunk, htrunk⟩ := hP trunks hfrom
    exact ⟨⟨name, trunk⟩, Table.row_of_lookup htrunk, rfl⟩
  | @insert task row left trunks hreload =>
    have hfrom := h.from_of hreload
    obtain ⟨htrunks, hrows⟩ := hfrom
    have hleft : Reload.From P (.inserting left trunks) :=
      ⟨htrunks, fun row hrow => hrows row (List.mem_cons_of_mem _ hrow)⟩
    refine ⟨fun trunk htrunk => ?_, fun hnone => ?_, h.index, Reload.from_update h.reloads hleft⟩
    · change (s.trunks.insert row.1 row.2).lookup name = some trunk at htrunk
      rw [Table.lookup_insert_eq] at htrunk
      split at htrunk
      next heq =>
        cases htrunk
        refine ⟨trunks, htrunks, ?_⟩
        rw [heq]
        exact hrows row List.mem_cons_self
      · exact h.configured trunk htrunk
    · change (s.trunks.insert row.1 row.2).lookup name = none at hnone
      rw [Table.lookup_insert_eq] at hnone
      split at hnone
      · cases hnone
      next hne =>
        refine Reload.between_update (h.missing hnone) hreload fun ⟨row', hrow', heq⟩ => ?_
        rcases List.mem_cons.mp hrow' with rfl | hmem
        · exact absurd heq.symm hne
        · exact ⟨row', hmem, heq⟩
  | @store task trunks hreload =>
    have hfrom := h.from_of hreload
    refine ⟨h.configured, fun hnone => ?_, ⟨trunks, hfrom.1, rfl⟩,
      Reload.from_update h.reloads trivial⟩
    refine Reload.between_update (h.missing hnone) hreload fun ⟨_, hmem, _⟩ => ?_
    exact absurd hmem List.not_mem_nil
  | get | load | read _ => exact ⟨h.configured, h.missing, h.index, h.reloads⟩

theorem DataContext.Sourced.getTrunk (h : s.Sourced env name P)
    (hsettled : ∀ task, ¬ (s.reloads task).Between env name) :
    ∃ trunk, s.getTrunk name = some trunk ∧ Configured name P trunk := by
  cases htrunk : s.getTrunk name with
  | none =>
    obtain ⟨task, hbetween⟩ := h.missing htrunk
    exact absurd hbetween (hsettled task)
  | some trunk => exact ⟨trunk, rfl, h.configured trunk htrunk⟩

theorem DataContext.sourced_loaded {trunks : Trunks} (h : P trunks)
    (hpresent : ∃ trunk, trunks.lookup name = some trunk) :
    (DataContext.loaded env trunks).Sourced env name P where
  configured trunk htrunk := ⟨trunks, h, htrunk⟩
  missing hnone := by
    obtain ⟨trunk, htrunk⟩ := hpresent
    change trunks.lookup name = none at hnone
    rw [htrunk] at hnone
    cases hnone
  index := ⟨trunks, h, rfl⟩
  reloads _ := trivial

end Sourced

/-! ## What lookups return -/

def Lookup.Got (P : Trunks → Prop) : Lookup → Prop
  | .got n trunk => n = name → ∃ t, trunk = some t ∧ Configured name P t
  | _ => True

/-- A lookup by the address has found the name, or has it among its candidates still to read. -/
def Lookup.Resolves (query : InboundQuery) : Lookup → Prop
  | .resolving r => r.query = query →
      (∀ names ∈ r.rest, ∀ n ∈ names, n = name) ∧ (∀ ctx ∈ r.matched, ctx.name = name) ∧
        (r.matched.isSome ∨ ∃ names ∈ r.rest, name ∈ names)
  | .resolved q trunk => q = query → ∃ ctx, trunk = some ctx ∧ ctx.name = name
  | _ => True

def Alone (addr : IpAddr) (trunks : Trunks) : Prop :=
  ∀ other trunk, trunks.lookup other = some trunk → trunk.Covers env.libs addr → other = name

def InboundQuery.Admitted (query : InboundQuery) (trunks : Trunks) : Prop :=
  ∀ trunk, trunks.lookup name = some trunk →
    trunk.matchesIncomingUserPrefixes env.libs query.fromUser query.toUser = true

def Present (networks : List Network) (trunks : Trunks) : Prop :=
  ∃ trunk, trunks.lookup name = some trunk ∧ trunk.networks env.libs = networks

section Lookups

variable {env name} {P : Trunks → Prop} {s s' : DataContext} {action : DataAction}
  {query : InboundQuery}

theorem Resolving.next_resolves (h : (Lookup.resolving r).Resolves name query)
    (hread : (Lookup.resolving r).Reads name → ∃ trunk, getTrunk name = some trunk ∧
      trunk.matchesIncomingUserPrefixes env.libs query.fromUser query.toUser = true) :
    (r.next env getTrunk).Resolves name query := by
  obtain ⟨q, rest, matched⟩ := r
  unfold Resolving.next
  match rest, h, hread with
  | [], h, _ =>
    intro hquery
    obtain ⟨-, hname, hfound⟩ := h hquery
    obtain hsome | ⟨names, hmem, -⟩ := hfound
    · obtain ⟨ctx, hctx⟩ := Option.isSome_iff_exists.mp hsome
      exact ⟨ctx, hctx, hname ctx hctx⟩
    · exact absurd hmem List.not_mem_nil
  | [] :: lists, h, _ =>
    intro hquery
    obtain ⟨honly, hname, hfound⟩ := h hquery
    refine ⟨fun names hmem => honly names (List.mem_cons_of_mem _ hmem), hname, ?_⟩
    obtain hsome | ⟨names, hmem, hn⟩ := hfound
    · exact .inl hsome
    · rcases List.mem_cons.mp hmem with rfl | hmem
      · exact absurd hn List.not_mem_nil
      · exact .inr ⟨names, hmem, hn⟩
  | (first :: names) :: lists, h, hread =>
    by_cases hquery : q = query
    · obtain ⟨honly, hname, -⟩ := h hquery
      have hfirst : first = name := honly _ List.mem_cons_self first List.mem_cons_self
      obtain ⟨trunk, htrunk, hmatches⟩ := hread hfirst
      dsimp only
      rw [hfirst, htrunk]
      dsimp only
      rw [hquery, if_pos hmatches]
      intro _
      refine ⟨fun names hmem => honly names (List.mem_cons_of_mem _ hmem), ?_, .inl rfl⟩
      rintro _ ⟨⟩
      rfl
    · -- a lookup of something else is not looked at
      dsimp only
      split
      · exact fun heq => absurd heq hquery
      · split
        · exact fun heq => absurd heq hquery
        · exact fun heq => absurd heq hquery

theorem Lookup.of_update {Q : Lookup → Prop} (h : ∀ task, Q (s.lookups task)) (hlookup : Q lookup)
    (task' : Nat) : Q ((s.setLookup task lookup).lookups task') :=
  (forall_update_iff s.lookups fun _ => Q).mpr ⟨hlookup, fun task _ => h task⟩ task'

theorem DataContext.Step.got (hstep : DataContext.Step env s action s')
    (hs : s.Sourced env name P) (hsettled : Settled env name s action)
    (h : ∀ task, (s.lookups task).Got name P) (task : Nat) : (s'.lookups task).Got name P := by
  cases hstep with
  | reload _ | clear _ _ | cleared _ _ | insert _ | store _ => exact h task
  | @get task' n =>
    apply Lookup.of_update h
    intro heq
    rw [heq]
    exact hs.getTrunk (hsettled heq)
  | load =>
    apply Lookup.of_update h
    trivial
  | @read task' r _ =>
    apply Lookup.of_update h
    unfold Resolving.next
    split
    · trivial
    · trivial
    · split
      · trivial
      · split
        · trivial
        · trivial

theorem DataContext.Step.resolves (hstep : DataContext.Step env s action s')
    (hs : s.Sourced env name P) (hsettled : Settled env name s action)
    (hcovers : ∀ trunks, P trunks →
      ∃ trunk, trunks.lookup name = some trunk ∧ trunk.Covers env.libs query.addr)
    (halone : ∀ trunks, P trunks → Alone env name query.addr trunks)
    (hadmitted : ∀ trunks, P trunks → query.Admitted env name trunks)
    (h : ∀ task, (s.lookups task).Resolves name query) (task : Nat) :
    (s'.lookups task).Resolves name query := by
  cases hstep with
  | reload _ | clear _ _ | cleared _ _ | insert _ | store _ => exact h task
  | get =>
    apply Lookup.of_update h
    trivial
  | @load task' q =>
    apply Lookup.of_update h
    intro hquery
    obtain ⟨trunks, htrunks, hindex⟩ := hs.index
    dsimp only at hquery ⊢
    rw [hquery, hindex]
    refine ⟨fun names hmem n hn => ?_, nofun, .inr ?_⟩
    · obtain ⟨trunk, htrunk, hcover⟩ := candidate_iff.mp ⟨names, hmem, hn⟩
      exact halone trunks htrunks n trunk htrunk hcover
    · exact candidate_iff.mpr (hcovers trunks htrunks)
  | @read task' r hr =>
    apply Lookup.of_update h
    have hlookup := h task'
    rw [hr] at hlookup
    apply Resolving.next_resolves hlookup
    intro hreads
    change (s.lookups task').Reads name → _ at hsettled
    rw [hr] at hsettled
    obtain ⟨trunk, htrunk, trunks, htrunks, hconfigured⟩ := hs.getTrunk (hsettled hreads)
    exact ⟨trunk, htrunk, hadmitted trunks htrunks trunk hconfigured⟩

end Lookups

section Runs

variable {env name} {P : Trunks → Prop} {s s' : DataContext}
  (hP : ∀ trunks, P trunks → ∃ trunk, trunks.lookup name = some trunk)
include hP

theorem DataContext.Runs.sourced (hold : P old) (hC : ∀ s action, C s action → Loads P s action)
    (h : DataContext.Runs env C (.loaded env old) s) : s.Sourced env name P := by
  induction h with
  | refl => exact DataContext.sourced_loaded hold (hP old hold)
  | tail _ hstep ih =>
    obtain ⟨action, hcond, hstep⟩ := hstep
    exact (DataContext.step_cases hstep).sourced hP ih (hC _ action hcond)

/-- **In every `Settled` run**, lookups by the name find it. -/
theorem DataContext.Runs.got (hold : P old)
    (h : DataContext.Runs env (fun s action => Loads P s action ∧ Settled env name s action)
      (.loaded env old) s) (task : Nat) : (s.lookups task).Got name P := by
  induction h generalizing task with
  | refl => trivial
  | tail hruns hstep ih =>
    have hsourced := DataContext.Runs.sourced hP hold (fun _ _ hcond => hcond.1) hruns
    obtain ⟨action, ⟨_, hsettled⟩, hstep⟩ := hstep
    exact (DataContext.step_cases hstep).got hsourced hsettled ih task

theorem DataContext.Runs.resolves (hold : P old) (hcovers : ∀ trunks, P trunks →
      ∃ trunk, trunks.lookup name = some trunk ∧ trunk.Covers env.libs query.addr)
    (halone : ∀ trunks, P trunks → Alone env name query.addr trunks)
    (hadmitted : ∀ trunks, P trunks → query.Admitted env name trunks)
    (h : DataContext.Runs env (fun s action => Loads P s action ∧ Settled env name s action)
      (.loaded env old) s) (task : Nat) : (s.lookups task).Resolves name query := by
  induction h generalizing task with
  | refl => trivial
  | tail hruns hstep ih =>
    have hsourced := DataContext.Runs.sourced hP hold (fun _ _ hcond => hcond.1) hruns
    obtain ⟨action, ⟨_, hsettled⟩, hstep⟩ := hstep
    exact (DataContext.step_cases hstep).resolves hsourced hsettled hcovers halone hadmitted ih task

end Runs

/-- The configurations that keep the trunk, alone in covering the address of a lookup whose users it
admits. -/
structure Keeps (networks : List Network) (query : InboundQuery) (trunks : Trunks) : Prop where
  present : Present env name networks trunks
  alone : Alone env name query.addr trunks
  admitted : query.Admitted env name trunks

variable {env name} in
theorem Present.lookup (h : Present env name networks trunks) :
    ∃ trunk, trunks.lookup name = some trunk := by
  obtain ⟨trunk, htrunk, -⟩ := h
  exact ⟨trunk, htrunk⟩

/-- **A trunk is found during reloads** that keep it, by its name and by an address that only it
covers, if it is not read while a reload is `Between`. -/
theorem trunk_found_during_reloads (networks : List Network) (old : Trunks) :
    (Present env name networks old → ∀ s : DataContext, DataContext.Runs env (fun s action =>
        Loads (Present env name networks) s action ∧ Settled env name s action)
        (.loaded env old) s → ∀ task trunk, s.lookups task = .got name trunk →
        ∃ t, trunk = some t ∧ t.networks env.libs = networks) ∧
    ∀ query : InboundQuery, (∃ n ∈ networks, n.Covers query.addr) →
      Keeps env name networks query old → ∀ s : DataContext,
      DataContext.Runs env (fun s action =>
        Loads (Keeps env name networks query) s action ∧ Settled env name s action)
        (.loaded env old) s → ∀ task trunk, s.lookups task = .resolved query trunk →
        ∃ ctx, trunk = some ctx ∧ ctx.name = name := by
  constructor
  · intro hold s h task trunk htask
    have hgot := DataContext.Runs.got (fun _ => Present.lookup) hold h task
    rw [htask] at hgot
    obtain ⟨t, rfl, trunks, ⟨t', ht', hnetworks⟩, ht⟩ := hgot rfl
    obtain rfl : t' = t := Option.some.inj (ht'.symm.trans ht)
    exact ⟨t', rfl, hnetworks⟩
  · intro query hcovered hold s h task trunk htask
    have hcovers : ∀ trunks, Keeps env name networks query trunks →
        ∃ trunk, trunks.lookup name = some trunk ∧ trunk.Covers env.libs query.addr := by
      intro trunks htrunks
      obtain ⟨t, ht, hnetworks⟩ := htrunks.present
      obtain ⟨n, hn, hcover⟩ := hcovered
      exact ⟨t, ht, n, hnetworks ▸ hn, hcover⟩
    have hresolves := DataContext.Runs.resolves (fun _ hkeeps => hkeeps.present.lookup) hold hcovers
      (fun _ hkeeps => hkeeps.alone) (fun _ hkeeps => hkeeps.admitted) h task
    rw [htask] at hresolves
    exact hresolves rfl

variable {env} in
theorem DataContext.Runs.next (action : DataAction)
    (h : DataContext.Runs env C s s') (hstep : s'.step env action = some s'') (hC : C s' action) :
    DataContext.Runs env C s s'' :=
  h.tail ⟨action, hC, hstep⟩

def oneShard : DataEnv where
  libs := ⟨⟨fun _ => .error "", Str.lower⟩, fun _ => none, .sorted⟩
  shards := 1
  shard := fun _ => 0

def carrier : InboundTrunk where
  dest := "10.0.0.1"

def oneTrunk : Trunks :=
  (∅ : Trunks).insert "carrier" carrier

def carrierNetworks : List Network :=
  [⟨false, 32, 167772161⟩]

def fromCarrier : InboundQuery :=
  ⟨.v4 10 0 0 1, none, none⟩

theorem keeps_oneTrunk : Keeps oneShard "carrier" carrierNetworks fromCarrier oneTrunk where
  present := ⟨carrier, rfl, by decide⟩
  alone other trunk h _ := by
    rw [oneTrunk, Table.lookup_insert_eq] at h
    split at h
    next heq => exact heq
    · cases h
  admitted trunk h := by
    cases h
    rfl

theorem trunk_found_during_reloads_renewed : ∃ s, DataContext.Runs oneShard (fun s action =>
        Loads (Keeps oneShard "carrier" carrierNetworks fromCarrier) s action ∧
          Settled oneShard "carrier" s action) (.loaded oneShard oneTrunk) s ∧
      ∃ ctx, s.lookups 1 = .resolved fromCarrier (some ctx) ∧ ctx.name = "carrier" := by
  have h0 : DataContext.Runs oneShard (fun s action =>
      Loads (Keeps oneShard "carrier" carrierNetworks fromCarrier) s action ∧
        Settled oneShard "carrier" s action) (.loaded oneShard oneTrunk)
      (.loaded oneShard oneTrunk) := .refl
  have h1 := h0.next (.reloadTrunks 0 oneTrunk) rfl ⟨keeps_oneTrunk, trivial⟩
  have h2 := h1.next (.publish 0) rfl ⟨trivial, trivial⟩
  have h3 := h2.next (.publish 0) rfl ⟨trivial, trivial⟩
  have h4 := h3.next (.publish 0) rfl ⟨trivial, trivial⟩
  have h5 := h4.next (.publish 0) rfl ⟨trivial, trivial⟩
  have h6 := h5.next (.resolveInboundTrunkByIp 1 fromCarrier) rfl ⟨trivial, trivial⟩
  have h7 := h6.next (.read 1) rfl ⟨trivial, fun _ task hbetween => by
    -- the reload is over, so that all of them are idle again
    simp [DataContext.setReload, DataContext.setLookup, DataContext.loaded,
      Reload.Between] at hbetween⟩
  have h8 := h7.next (.read 1) rfl ⟨trivial, nofun⟩
  refine ⟨_, h8, ?_⟩
  obtain ⟨ctx, hctx, hname⟩ :=
    (trunk_found_during_reloads oneShard "carrier" carrierNetworks oneTrunk).2 fromCarrier
      (by decide) keeps_oneTrunk _ h8 1 _ rfl
  exact ⟨ctx, congrArg _ hctx, hname⟩

/-- A reload has cleared the trunk and not inserted it again, and it is not found by its name nor by
its address. -/
theorem trunk_missing_during_reload : ∃ s, DataContext.Runs oneShard
        (Loads (Keeps oneShard "carrier" carrierNetworks fromCarrier))
        (.loaded oneShard oneTrunk) s ∧
      s.lookups 1 = .got "carrier" none ∧ s.lookups 2 = .resolved fromCarrier none := by
  have h0 : DataContext.Runs oneShard
      (Loads (Keeps oneShard "carrier" carrierNetworks fromCarrier)) (.loaded oneShard oneTrunk)
      (.loaded oneShard oneTrunk) := .refl
  have h1 := h0.next (.reloadTrunks 0 oneTrunk) rfl keeps_oneTrunk
  have h2 := h1.next (.publish 0) rfl trivial
  have h3 := h2.next (.getTrunk 1 "carrier") rfl trivial
  have h4 := h3.next (.resolveInboundTrunkByIp 2 fromCarrier) rfl trivial
  have h5 := h4.next (.read 2) rfl trivial
  have h6 := h5.next (.read 2) rfl trivial
  have h7 := h6.next (.read 2) rfl trivial
  exact ⟨_, h7, rfl, rfl⟩

end RustPbx.Proxy
