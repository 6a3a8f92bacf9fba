import RustPbx.Proxy.Acl
import RustPbx.Proxy.TrunkReload
import RustPbx.Routing.Selection

/-!
Trunks that are marked as disabled.

Neither the index of the addresses nor the selection of a trunk for a call looks at the mark.
`resolve_eq_some` says which trunk a request is taken to come from, out of all those that have its
address and its users.
-/

namespace RustPbx.Proxy

open Routing DataContext List

/-! ## The trunk of a request -/

def candidate? (libs : TrunkLibs) (getTrunk : String → Option InboundTrunk) (query : InboundQuery)
    (name : String) : Option TrunkContext :=
  match getTrunk name with
  | none => none
  | some trunk =>
    if trunk.matchesIncomingUserPrefixes libs query.fromUser query.toUser then
      some ⟨trunk.id, name, trunk.didNumbers⟩
    else none

def DataContext.resolveInboundTrunkByIp (env : DataEnv) (s : DataContext) (query : InboundQuery) :
    Option TrunkContext :=
  env.libs.trie.longestMatch s.aclInboundTrunks query.addr (candidate? env.libs s.getTrunk query)

section

variable (env : DataEnv) (getTrunk : String → Option InboundTrunk)

/-- What the lookup comes to, if the trunks stay as they are. -/
def Resolving.outcome (r : Resolving) : Option TrunkContext :=
  r.rest.foldl (fun matched names =>
    (names.findSome? (candidate? env.libs getTrunk r.query)).or matched) r.matched

variable (s : DataContext) (task : Nat)

/-- The task reads some times, and no other task takes a step. -/
def DataContext.Reads : DataContext → DataContext → Prop :=
  Relation.ReflTransGen fun s s' => s.step env (.read task) = some s'

theorem Resolving.reads (r : Resolving) : Reads env task (s.setLookup task (.resolving r))
    (s.setLookup task (.resolved r.query (r.outcome env s.getTrunk))) := by
  have hread (r : Resolving) : (s.setLookup task (.resolving r)).step env (.read task) =
      some (s.setLookup task (r.next env s.getTrunk)) := by
    simp only [step, setLookup, Function.update_self, Function.update_idem]
    rfl
  obtain ⟨query, lists, matched⟩ := r
  induction lists generalizing matched with
  | nil => exact .single (hread _)
  | cons names lists ih =>
    induction names with
    | nil => exact (ih matched).head (hread _)
    | cons name names ihn =>
      have hnext : Resolving.next env ⟨query, (name :: names) :: lists, matched⟩ s.getTrunk =
          .resolving ((candidate? env.libs s.getTrunk query name).elim
            ⟨query, names :: lists, matched⟩ fun ctx => ⟨query, lists, some ctx⟩) := by
        rw [Resolving.next, candidate?]
        dsimp only
        cases s.getTrunk name with
        | none => rfl
        | some trunk =>
          dsimp only
          split <;> rfl
      rw [Resolving.outcome, foldl_cons, findSome?_cons]
      cases hctx : candidate? env.libs s.getTrunk query name with
      | none => exact ihn.head (by rw [hread, hnext, hctx]; rfl)
      | some ctx => exact (ih (some ctx)).head (by rw [hread, hnext, hctx]; rfl)

/-- **The steps of a lookup**: while the trunks stay as they are, they come to what the lookup gives
at one moment. -/
theorem DataContext.reads_lookup (query : InboundQuery) : ∃ s',
    (s.setLookup task .idle).step env (.resolveInboundTrunkByIp task query) = some s' ∧
      Reads env task s' (s.setLookup task
        (.resolved query (s.resolveInboundTrunkByIp env query))) :=
  ⟨_, by simp [step, setLookup], Resolving.reads env s task ⟨query, _, none⟩⟩

end

/-- The trunk has an address and the users of the request, with the address under this network. -/
structure Candidate (libs : TrunkLibs) (trunks : Trunks) (query : InboundQuery) (name : String)
    (trunk : InboundTrunk) (n : Network) : Prop where
  present : trunks.lookup name = some trunk
  network : trunk.HasNetwork libs n
  covers : n.Covers query.addr
  users : trunk.matchesIncomingUserPrefixes libs query.fromUser query.toUser = true

section

variable {env : DataEnv} {trunks : Trunks}

theorem candidate?_eq_some :
    candidate? env.libs (loaded env trunks).getTrunk query name = some ctx ↔
      ∃ trunk, trunks.lookup name = some trunk ∧
        trunk.matchesIncomingUserPrefixes env.libs query.fromUser query.toUser = true ∧
        ctx = ⟨trunk.id, name, trunk.didNumbers⟩ := by
  rw [candidate?, getTrunk, loaded]
  cases trunks.lookup name with
  | none =>
    constructor
    · intro h
      cases h
    · rintro ⟨_, h, _⟩
      cases h
  | some trunk =>
    dsimp only
    constructor
    · intro h
      split at h
      next hmatches => exact ⟨trunk, rfl, hmatches, (Option.some.inj h).symm⟩
      · cases h
    · rintro ⟨_, ⟨⟩, hmatches, rfl⟩
      exact if_pos hmatches

section

variable (h : Candidate env.libs trunks query name trunk n)
include h

theorem Candidate.candidate?_isSome :
    candidate? env.libs (loaded env trunks).getTrunk query name =
      some ⟨trunk.id, name, trunk.didNumbers⟩ :=
  candidate?_eq_some.mpr ⟨trunk, h.present, h.users, rfl⟩

theorem Candidate.mem_valuesOf :
    name ∈ (buildIndex env.libs trunks).valuesOf n :=
  mem_buildIndex.mpr ⟨trunk, h.present, InboundTrunk.mem_networks_iff.mpr h.network⟩

theorem Candidate.mem_candidateRows :
    ⟨name, trunk⟩ ∈ candidateRows trunks :=
  Proxy.mem_candidateRows.mpr ⟨h.present, h.network.1⟩

end

theorem not_candidate_of_findSome? (h : ((buildIndex env.libs trunks).valuesOf n).findSome?
      (candidate? env.libs (loaded env trunks).getTrunk query) = none) :
    ¬ Candidate env.libs trunks query name trunk n := by
  intro hcandidate
  have hnone := findSome?_eq_none_iff.mp h name hcandidate.mem_valuesOf
  rw [hcandidate.candidate?_isSome] at hnone
  cases hnone

theorem resolve_eq_none (h : (loaded env trunks).resolveInboundTrunkByIp env query = none) :
    ¬ Candidate env.libs trunks query name trunk n := by
  intro hcandidate
  have hnone := PrefixTrie.findSome?_of_longestMatch_eq_none h hcandidate.covers
  exact not_candidate_of_findSome? hnone hcandidate

/-- **The trunk of a request** has its address and its users, under a network not shorter than that
of any other, and goes before the others under it. -/
theorem resolve_eq_some (h : (loaded env trunks).resolveInboundTrunkByIp env query = some ctx) :
    ∃ trunk n, ctx = ⟨trunk.id, ctx.name, trunk.didNumbers⟩ ∧
      Candidate env.libs trunks query ctx.name trunk n ∧
      ∀ name' trunk' n', Candidate env.libs trunks query name' trunk' n' →
        n'.prefixLen < n.prefixLen ∨ n' = n ∧
          (name' = ctx.name ∨ trunks.Precedes ⟨ctx.name, trunk⟩ ⟨name', trunk'⟩) := by
  obtain ⟨n, hcovers, hfound, hlonger⟩ := PrefixTrie.exists_of_longestMatch_eq_some h
  change ((buildIndex env.libs trunks).valuesOf n).findSome? _ = _ at hfound
  rw [valuesOf_buildIndex, findSome?_map, findSome?_eq_some_iff] at hfound
  obtain ⟨earlier, ⟨first, trunk⟩, later, hsplit, hfirst, hearlier⟩ := hfound
  have hmem : ∀ row, row ∈ earlier ++ ⟨first, trunk⟩ :: later ↔
      row ∈ candidateRows trunks ∧ n ∈ row.2.networks env.libs := by
    intro row
    rw [← hsplit, mem_filter, decide_eq_true_iff]
  obtain ⟨hrow, hnetwork⟩ :=
    (hmem ⟨first, trunk⟩).mp (mem_append_right _ mem_cons_self)
  have hlookup := (mem_candidateRows.mp hrow).1
  obtain ⟨trunk', hlookup', husers, rfl⟩ := candidate?_eq_some.mp hfirst
  obtain rfl : trunk = trunk' := Option.some.inj (hlookup.symm.trans hlookup')
  have horder : (earlier ++ ⟨first, trunk⟩ :: later).Pairwise trunks.Precedes := by
    rw [← hsplit]
    exact pairwise_candidateRows.filter _
  refine ⟨trunk, n, rfl,
    ⟨hlookup, InboundTrunk.mem_networks_iff.mp hnetwork, hcovers, husers⟩, ?_⟩
  intro name' trunk' n' hcandidate
  obtain hlt | heq | hgt := Nat.lt_trichotomy n'.prefixLen n.prefixLen
  · exact .inl hlt
  · obtain rfl := hcandidate.covers.eq_of_prefixLen hcovers heq
    refine .inr ⟨rfl, ?_⟩
    have hrow' : ⟨name', trunk'⟩ ∈ earlier ++ ⟨first, trunk⟩ :: later :=
      (hmem _).mpr
        ⟨hcandidate.mem_candidateRows, InboundTrunk.mem_networks_iff.mpr hcandidate.network⟩
    obtain hin | hin := mem_append.mp hrow'
    · have hnone := hearlier _ hin
      rw [Function.comp_apply, hcandidate.candidate?_isSome] at hnone
      cases hnone
    · obtain hsame | hin := mem_cons.mp hin
      · cases hsame
        exact .inl rfl
      · exact .inr (rel_of_pairwise_cons (pairwise_append.mp horder).2.1 hin)
  · exact absurd hcandidate (not_candidate_of_findSome? (hlonger n' hcandidate.covers hgt))

/-- **The best trunk**: the longest network with a trunk for the users, and among its trunks the
longest prefixes and the lowest identifier. Without a result there is no such network. -/
theorem resolves_best_trunk (env : DataEnv) (trunks : Trunks) (query : InboundQuery) :
    (∀ ctx, (loaded env trunks).resolveInboundTrunkByIp env query = some ctx →
      ∃ t n, ctx = ⟨t.id, ctx.name, t.didNumbers⟩ ∧ Candidate env.libs trunks query ctx.name t n ∧
        ∀ name' t' n', Candidate env.libs trunks query name' t' n' →
          n'.prefixLen < n.prefixLen ∨ n' = n ∧
            (prefixLength t'.incomingFromUserPrefix < prefixLength t.incomingFromUserPrefix ∨
              prefixLength t'.incomingFromUserPrefix = prefixLength t.incomingFromUserPrefix ∧
            (prefixLength t'.incomingToUserPrefix < prefixLength t.incomingToUserPrefix ∨
              prefixLength t'.incomingToUserPrefix = prefixLength t.incomingToUserPrefix ∧
              t.id.getD (2 ^ 63 - 1) ≤ t'.id.getD (2 ^ 63 - 1)))) ∧
    ((loaded env trunks).resolveInboundTrunkByIp env query = none →
      ∀ name t n, ¬ Candidate env.libs trunks query name t n) := by
  refine ⟨fun ctx hresolve => ?_, fun hresolve name t n => resolve_eq_none hresolve⟩
  obtain ⟨t, n, hctx, hcandidate, hbest⟩ := resolve_eq_some hresolve
  refine ⟨t, n, hctx, hcandidate, fun name' t' n' hother => (hbest name' t' n' hother).imp_right ?_⟩
  rintro ⟨rfl, hname | hbefore⟩
  · subst hname
    obtain rfl : t' = t := Option.some.inj (hother.present.symm.trans hcandidate.present)
    simp
  · have hbefore := hbefore.1
    simp only [InboundTrunk.before, Bool.or_eq_true, Bool.and_eq_true, decide_eq_true_eq,
      beq_iff_eq] at hbefore
    exact ⟨rfl, by omega⟩

/-- Two trunks of one address, and a caller with the prefix of the second one. -/
theorem resolves_best_trunk_carriers :
    let a : InboundTrunk := { dest := "", inboundHosts := ["<10.0.0.1>"], id := some 7 }
    let b : InboundTrunk :=
      { dest := "sip:10.0.0.1:5060", id := some 9, incomingFromUserPrefix := some "+1",
        didNumbers := ["100"] }
    let trunks := ((∅ : Trunks).insert "a" a).insert "b" b
    let query : InboundQuery := ⟨.v4 10 0 0 1, some "+155", none⟩
    (loaded oneShard trunks).resolveInboundTrunkByIp oneShard query = some ⟨some 9, "b", ["100"]⟩ ∧
      ∃ t n, t.didNumbers = ["100"] ∧ Candidate oneShard.libs trunks query "b" t n ∧
        ∀ t' n', Candidate oneShard.libs trunks query "a" t' n' → n'.prefixLen ≤ n.prefixLen := by
  intro a b trunks query
  have hresolve : (loaded oneShard trunks).resolveInboundTrunkByIp oneShard query =
      some ⟨some 9, "b", ["100"]⟩ := by decide
  obtain ⟨t, n, hctx, hcandidate, hbest⟩ := (resolves_best_trunk oneShard trunks query).1 _ hresolve
  refine ⟨hresolve, t, n, (congrArg TrunkContext.didNumbers hctx).symm, hcandidate, ?_⟩
  intro t' n' hother
  obtain hlt | ⟨rfl, -⟩ := hbest _ _ _ hother
  · exact hlt.le
  · exact Nat.le_refl _

end

/-! ## The mark -/

/-- A trunk with the mark that it is not to be used. -/
structure MarkedTrunk extends InboundTrunk where
  disabled : Option Bool := none

abbrev MarkedTrunks := Table String MarkedTrunk

namespace MarkedTrunks

variable (trunks : MarkedTrunks)

def inbound : Trunks :=
  trunks.mapRows fun _ trunk => trunk.toInboundTrunk

def configs : Table String TrunkConfig :=
  trunks.mapRows fun _ trunk => trunk.toTrunkConfig

def Disabled (name : String) : Prop :=
  ∃ trunk, trunks.lookup name = some trunk ∧ trunk.disabled = some true

/-- Every disabled trunk of the request is behind one that is not disabled: one with a longer
network, or one that goes before it under the same network. -/
def Shadowed (env : DataEnv) (trunks : MarkedTrunks) (query : InboundQuery) : Prop :=
  ∀ name trunk n, Candidate env.libs trunks.inbound query name trunk n → trunks.Disabled name →
    ∃ name' trunk' n', Candidate env.libs trunks.inbound query name' trunk' n' ∧
      ¬ trunks.Disabled name' ∧
      (n.prefixLen < n'.prefixLen ∨ n' = n ∧ trunks.inbound.Precedes ⟨name', trunk'⟩ ⟨name, trunk⟩)

theorem not_disabled_iff_shadowed (trunks : MarkedTrunks) :
    (∀ ctx, (loaded env trunks.inbound).resolveInboundTrunkByIp env query = some ctx →
      ¬ trunks.Disabled ctx.name) ↔ trunks.Shadowed env query := by
  constructor
  · intro hunused name trunk n hcandidate hdisabled
    cases hresolve : (loaded env trunks.inbound).resolveInboundTrunkByIp env query with
    | none => exact absurd hcandidate (resolve_eq_none hresolve)
    | some ctx =>
      have hctx := hunused ctx hresolve
      obtain ⟨trunk', n', -, hfirst, hbehind⟩ := resolve_eq_some hresolve
      refine ⟨ctx.name, trunk', n', hfirst, hctx, ?_⟩
      obtain hlt | ⟨hn, hname | hbefore⟩ := hbehind name trunk n hcandidate
      · exact .inl hlt
      · exact absurd (hname ▸ hdisabled) hctx
      · exact .inr ⟨hn.symm, hbefore⟩
  · intro hshadowed ctx hresolve hdisabled
    obtain ⟨trunk, n, -, hfirst, hbehind⟩ := resolve_eq_some hresolve
    obtain ⟨name', trunk', n', hcandidate, henabled, hother⟩ :=
      hshadowed ctx.name trunk n hfirst hdisabled
    obtain hlt | ⟨hn, hname | hbefore⟩ := hbehind name' trunk' n' hcandidate
    · obtain hlt' | ⟨rfl, -⟩ := hother
      · exact absurd hlt' (Nat.lt_asymm hlt)
      · exact absurd hlt (Nat.lt_irrefl _)
    · exact henabled (hname ▸ hdisabled)
    · obtain hlt' | ⟨-, hbefore'⟩ := hother
      · exact absurd hlt' (hn ▸ Nat.lt_irrefl _)
      · exact hbefore.asymm hbefore'

def matchInput (trunks : MarkedTrunks) (inp : MatchInput ω) : MatchInput ω :=
  { inp with trunks := some trunks.configs }

/-- **Disabled trunks** are used neither as the source nor as the destination of a call if and only
if each is behind another one for the request, and the method of the rule does not reach any. -/
theorem disabled_unused_iff (env : Env ω) (hdraw : ∀ n, ∃ w, (env.random w).1 = n)
    (data : DataEnv) (trunks : MarkedTrunks) (query : InboundQuery) (inp : MatchInput ω)
    (m : Matched) : ((∀ ctx,
        (loaded data trunks.inbound).resolveInboundTrunkByIp data query = some ctx →
        ¬ trunks.Disabled ctx.name) ∧
      (∀ name, SendsTo env (trunks.matchInput inp) m name → ¬ trunks.Disabled name)) ↔
    trunks.Shadowed data query ∧
      ∀ name, Routing.Reaches env (trunks.matchInput inp) m name → ¬ trunks.Disabled name := by
  rw [not_disabled_iff_shadowed]
  simp only [sendsTo_iff hdraw]

def gateway (disabled : Option Bool) : MarkedTrunks :=
  (∅ : MarkedTrunks).insert "gw" { dest := "sip:10.0.0.1", disabled := disabled }

def drawEnv : Env Nat where
  regex := ⟨fun _ => .error "", Str.lower⟩
  uris := ⟨fun _ => .ok ⟨some .sip, none, ⟨.domain "gw".toList, none⟩, []⟩, fun _ => "",
    fun _ => .error ""⟩
  policy :=
    ⟨fun _ => none, fun _ => .error "", fun w => (0, w), fun _ => .error "", fun w => (0, w)⟩
  amdOverlay a _ := a
  hash _ := 0
  debug := quotedText
  random w := (w, w)
  cpsTryAcquire _ w := (none, w)

def plainData : DataEnv where
  libs := ⟨⟨fun _ => .error "", Str.lower⟩, fun _ => none, .sorted⟩
  shards := 1
  shard _ := ⟨0, Nat.one_pos⟩

def gatewayQuery : InboundQuery := ⟨.v4 10 0 0 1, none, none⟩

def callInput : MatchInput Nat where
  trunks := none
  sourceTrunk := none
  policyGuard := false
  mode := .execute

def toGateway : Matched where
  rule := { action := { dest := some (.single "gw") } }
  option := ⟨⟨some .sip, none, ⟨.domain "a".toList, none⟩, []⟩,
    ⟨some .sip, none, ⟨.domain "b".toList, none⟩, []⟩, none, none, none⟩
  hints := none

/-- An old gateway that is disabled, behind the one that has its address now. -/
def replaced : MarkedTrunks :=
  ((∅ : MarkedTrunks).insert "gw" { dest := "sip:10.0.0.1", id := some 1 }).insert "old"
    { dest := "sip:10.0.0.1", id := some 2, disabled := some true }

theorem enabled_gateway_used : replaced.Disabled "old" ∧
    (∀ ctx, (loaded plainData replaced.inbound).resolveInboundTrunkByIp plainData
        gatewayQuery = some ctx → ¬ replaced.Disabled ctx.name) ∧
      ∀ name, SendsTo drawEnv (replaced.matchInput callInput) toGateway name →
        ¬ replaced.Disabled name := by
  have hdraw : ∀ n, ∃ w, (drawEnv.random w).1 = n := fun n => ⟨n, rfl⟩
  have hgw : ¬ replaced.Disabled "gw" := by
    rintro ⟨trunk, hlookup, hdisabled⟩
    cases hlookup
    cases hdisabled
  refine ⟨⟨_, rfl, rfl⟩, (disabled_unused_iff drawEnv hdraw plainData replaced gatewayQuery
    callInput toGateway).mpr ⟨?_, ?_⟩⟩
  · intro name trunk n hcandidate hdisabled
    have hname : name = "old" := by
      obtain ⟨marked, hlookup, hmark⟩ := hdisabled
      by_contra hne
      rw [replaced, Table.lookup_insert_eq, if_neg hne, Table.lookup_insert_eq] at hlookup
      split at hlookup
      · cases hlookup
        cases hmark
      · cases hlookup
    subst hname
    have hpresent := hcandidate.present
    cases hpresent
    refine ⟨"gw", _, n, ⟨rfl, hcandidate.network, hcandidate.covers, rfl⟩, hgw, .inr ⟨rfl, ?_⟩⟩
    exact ⟨by decide, fun h => absurd h (by decide)⟩
  · rintro name ⟨dest, ⟨⟩, -, rfl⟩
    exact hgw

theorem forwardAction_selected_gateway : ∃ option hints s',
    (forwardAction drawEnv ((gateway none).matchInput callInput) toGateway).run (stateWith 0 ∅) =
      (.ok (.forward [⟨option, hints⟩]), s') ∧ (stampedTrunk hints = stampedTrunk toGateway.hints ∨
        ∃ trunk, stampedTrunk hints = some trunk ∧
          SendsTo drawEnv ((gateway none).matchInput callInput) toGateway trunk.name) :=
  ⟨_, _, _, rfl, forwardAction_selected rfl⟩

/-- A disabled gateway is let through where all addresses are denied, and is called. -/
theorem disabled_gateway_used : (gateway (some true)).Disabled "gw" ∧
      (∃ ctx, (loaded plainData (gateway (some true)).inbound).resolveInboundTrunkByIp
          plainData gatewayQuery = some ctx ∧ ctx.name = "gw" ∧
        Acl.checkIp ["deny all"] (some ctx) ⟨none, .missing, some gatewayQuery.addr⟩ = .ok none) ∧
      SendsTo drawEnv ((gateway (some true)).matchInput callInput) toGateway "gw" ∧
      ∃ option hints s', (forwardAction drawEnv ((gateway (some true)).matchInput callInput)
          toGateway).run (stateWith 0 ∅) = (.ok (.forward [⟨option, hints⟩]), s') ∧
        stampedTrunk hints = some ⟨none, "gw", "sip:10.0.0.1"⟩ := by
  refine ⟨⟨_, rfl, rfl⟩, ⟨⟨none, "gw", []⟩, ?_, rfl, rfl⟩, ?_, _, _, _, rfl, rfl⟩
  · decide
  · exact ⟨.single "gw", rfl, rfl, stateWith 0 ∅, stateWith 0 ∅, rfl⟩

end MarkedTrunks

end RustPbx.Proxy
