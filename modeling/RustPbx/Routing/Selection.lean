import Mathlib.Data.Int.CardIntervalMod
import RustPbx.Routing.Trunk

/-!
Which trunks a rule can send a call to.

`Selectable` says for each method which of the trunks of a destination it can select, over all
states of the counters and all numbers that can be drawn.
-/

namespace RustPbx.Routing

open Sip Call Option Except Prod Finset Eff

/-- What weights add up to, as far as 32 bits go. -/
def capped (n : Nat) : Nat :=
  min n (2 ^ 32 - 1)

theorem saturatingAdd_capped (n w : Nat) : saturatingAdd (capped n) w = capped (n + w) := by
  rw [saturatingAdd, capped, capped]
  omega

theorem foldl_saturatingAdd (weights : List Nat) (n : Nat) :
    weights.foldl saturatingAdd (capped n) = capped (n + weights.sum) := by
  induction weights generalizing n with
  | nil => rfl
  | cons w weights ih =>
    rw [List.foldl_cons, saturatingAdd_capped, ih, List.sum_cons, Nat.add_assoc]

section

variable (env : Env ω) (inp : MatchInput ω)

/-! ## What can be selected -/

/-- A trunk that a draw by the weights can select. Those behind a total weight of 32 bits are out of
reach, and so are those of no weight, unless none has any. -/
def SelectableByWeight (trunks : List String) (name : String) : Prop :=
  ∃ before after, trunks = before ++ name :: after ∧
    ((∀ trunk ∈ trunks, trunkWeight inp trunk = 0) ∨
      0 < trunkWeight inp name ∧ (before.map (trunkWeight inp)).sum < 2 ^ 32 - 1)

def Selectable (dest : DestConfig) (select : String) (hashKey : Option String)
    (option : InviteOption) (name : String) : Prop :=
  match dest.trunks with
  | [] => False
  | [trunk] => name = trunk
  | trunks =>
    match select with
    | "hash" =>
      trunks[(env.hash (hashValue env hashKey option)).toNat % trunks.length]? = some name
    | "weighted" => SelectableByWeight inp trunks name
    | _ => name ∈ trunks

def Selects (x : Eff (State ω) Failure String) (name : String) : Prop :=
  ∃ s s', x.run s = (.ok name, s')

def stateWith (world : ω) (roundRobin : Table String Nat) : State ω :=
  ⟨⟨∅⟩, ∅, roundRobin, world, none, [], []⟩

variable {env inp} {trunks : List String}

theorem getD_eq_of_getElem? (h : trunks[i]? = some name) : trunks.getD i "" = name := by
  rw [List.getD_eq_getElem?_getD, h, getD_some]

theorem getD_mod_mem (hne : trunks ≠ []) :
    trunks.getD (n % trunks.length) "" ∈ trunks := by
  have hlt : n % trunks.length < trunks.length := Nat.mod_lt _ (List.length_pos_of_ne_nil hne)
  rw [getD_eq_of_getElem? (List.getElem?_eq_getElem hlt)]
  exact List.getElem_mem hlt

theorem exists_getD_mod (hmem : name ∈ trunks) :
    ∃ n, ∀ m, m = n → trunks.getD (m % trunks.length) "" = name := by
  obtain ⟨i, hi⟩ := List.mem_iff_getElem?.mp hmem
  refine ⟨i, fun m hm => ?_⟩
  rw [hm, Nat.mod_eq_of_lt (List.getElem?_eq_some_iff.mp hi).1]
  exact getD_eq_of_getElem? hi

theorem selects_random (hdraw : ∀ n, ∃ w, (env.random w).1 = n) (hne : trunks ≠ []) :
    Selects (do return trunks.getD (← randomRange env trunks.length) "") name ↔ name ∈ trunks := by
  constructor
  · rintro ⟨s, s', hrun⟩
    have hname := ok.inj (mk.inj hrun).1
    rw [← hname]
    exact getD_mod_mem hne
  · intro hmem
    obtain ⟨n, hn⟩ := exists_getD_mod hmem
    obtain ⟨w, hw⟩ := hdraw n
    exact ⟨stateWith w ∅, _, Prod.ext (congrArg ok (hn _ hw)) rfl⟩

theorem selects_roundRobin (world : ω) (key : String) (hne : trunks ≠ []) :
    Selects (ω := ω) (do return trunks.getD (← nextRoundRobinIndex key trunks.length) "") name ↔
      name ∈ trunks := by
  have hlength := List.length_pos_iff.mpr hne |>.ne'
  have hrun : ∀ s : State ω, ((do return trunks.getD (← nextRoundRobinIndex key trunks.length) "" :
        Eff (State ω) Failure String).run s).1 =
      .ok (trunks.getD ((s.roundRobin.lookup key).getD 0 % trunks.length) "") := by
    intro s
    simp [nextRoundRobinIndex, hlength]
  constructor
  · rintro ⟨s, s', hs⟩
    have hname := (congrArg fst hs).symm.trans (hrun s)
    rw [ok.inj hname]
    exact getD_mod_mem hne
  · intro hmem
    obtain ⟨n, hn⟩ := exists_getD_mod hmem
    let s := stateWith world ((∅ : Table String Nat).insert key n)
    refine ⟨s, _, Prod.ext ((hrun s).trans (congrArg ok (hn _ ?_))) rfl⟩
    change (AList.lookup key ((∅ : Table String Nat).insert key n)).getD 0 = n
    rw [AList.lookup_insert, getD_some]

variable (inp) in
def totalWeight (trunks : List String) : Nat :=
  (trunks.map (trunkWeight inp)).sum

theorem totalWeight_append (after : List String) :
    totalWeight inp (before ++ after) = totalWeight inp before + totalWeight inp after := by
  rw [totalWeight, List.map_append, List.sum_append, ← totalWeight, ← totalWeight]

theorem totalWeight_cons (t : String) (trunks : List String) :
    totalWeight inp (t :: trunks) = trunkWeight inp t + totalWeight inp trunks :=
  List.sum_cons

theorem totalWeight_eq_zero : totalWeight inp trunks = 0 ↔ ∀ t ∈ trunks, trunkWeight inp t = 0 := by
  induction trunks with
  | nil => simp [totalWeight]
  | cons t trunks ih =>
    rw [totalWeight_cons, Nat.add_eq_zero_iff, ih, List.forall_mem_cons]

def weightedPick (inp : MatchInput ω) (trunks : List String) (drawn : Nat) : String :=
  trunks.getD ((weightedIndex drawn 0 0 (trunks.map (trunkWeight inp))).getD (trunks.length - 1)) ""

/-- The trunk whose share of the weights the drawn number falls into. -/
theorem weightedIndex_eq_some (index : Nat) (hlow : capped (n + totalWeight inp before) ≤ drawn)
    (hhigh : drawn < capped (n + totalWeight inp before + trunkWeight inp name)) :
    weightedIndex drawn index (capped n) ((before ++ name :: after).map (trunkWeight inp)) =
      some (index + before.length) := by
  induction before generalizing n index with
  | nil =>
    rw [List.nil_append, List.map_cons, weightedIndex, saturatingAdd_capped]
    exact if_pos hhigh
  | cons t before ih =>
    rw [totalWeight_cons, ← Nat.add_assoc] at hlow hhigh
    have hpast : ¬ drawn < capped (n + trunkWeight inp t) := by
      rw [capped] at *
      omega
    rw [List.cons_append, List.map_cons, weightedIndex, saturatingAdd_capped, if_neg hpast,
      ih (index + 1) hlow hhigh, List.length_cons]
    congr 1
    omega

theorem weightedIndex_trunks (hlow : capped (totalWeight inp before) ≤ drawn)
    (hhigh : drawn < capped (totalWeight inp before + trunkWeight inp name)) :
    weightedIndex drawn 0 0 ((before ++ name :: after).map (trunkWeight inp)) =
      some before.length := by
  rw [← Nat.zero_add (totalWeight inp before)] at hlow hhigh
  exact (weightedIndex_eq_some 0 hlow hhigh).trans (congrArg some (Nat.zero_add _))

theorem weightedPick_eq (hlow : capped (totalWeight inp before) ≤ drawn)
    (hhigh : drawn < capped (totalWeight inp before + trunkWeight inp name)) :
    weightedPick inp (before ++ name :: after) drawn = name := by
  rw [weightedPick, weightedIndex_trunks hlow hhigh, getD_some]
  apply getD_eq_of_getElem?
  rw [List.getElem?_append_right (Nat.le_refl _), Nat.sub_self, List.getElem?_cons_zero]

theorem exists_share (hlow : capped n ≤ drawn)
    (hhigh : drawn < capped (n + totalWeight inp trunks)) :
    ∃ before name after, trunks = before ++ name :: after ∧
      capped (n + totalWeight inp before) ≤ drawn ∧
      drawn < capped (n + totalWeight inp before + trunkWeight inp name) := by
  induction trunks generalizing n with
  | nil => exact absurd hhigh (Nat.not_lt_of_le hlow)
  | cons t trunks ih =>
    by_cases hfirst : drawn < capped (n + trunkWeight inp t)
    · exact ⟨[], t, trunks, rfl, hlow, hfirst⟩
    · rw [totalWeight_cons, ← Nat.add_assoc] at hhigh
      obtain ⟨before, name, after, rfl, hshare⟩ := ih (Nat.le_of_not_lt hfirst) hhigh
      refine ⟨t :: before, name, after, rfl, ?_⟩
      rw [totalWeight_cons, ← Nat.add_assoc]
      exact hshare

theorem exists_weightedPick (h : drawn < capped (totalWeight inp trunks)) :
    ∃ before name after, trunks = before ++ name :: after ∧
      capped (totalWeight inp before) ≤ drawn ∧
      drawn < capped (totalWeight inp before + trunkWeight inp name) := by
  rw [← Nat.zero_add (totalWeight inp trunks)] at h
  simpa only [Nat.zero_add] using exists_share (Nat.zero_le drawn) h

theorem selectTrunkWeighted_eq (htrunks : trunks = first :: second :: rest) :
    selectTrunkWeighted env inp trunks =
      if capped (totalWeight inp trunks) = 0 then do
        return trunks.getD (← randomRange env trunks.length) ""
      else do
        return weightedPick inp trunks (← randomRange env (capped (totalWeight inp trunks))) := by
  have hfold := foldl_saturatingAdd (trunks.map (trunkWeight inp)) 0
  rw [Nat.zero_add] at hfold
  rw [totalWeight, ← hfold, htrunks]
  rfl

/-- The numbers that select the trunk at a position. -/
def drawsOf (inp : MatchInput ω) (trunks : List String) (i : Nat) : Finset Nat :=
  (Finset.range (totalWeight inp trunks)).filter fun drawn =>
    weightedIndex drawn 0 0 (trunks.map (trunkWeight inp)) = some i

theorem card_drawsOf (hlt : totalWeight inp (before ++ name :: after) < 2 ^ 32) :
    (drawsOf inp (before ++ name :: after) before.length).card = trunkWeight inp name := by
  have hshare : totalWeight inp before + trunkWeight inp name ≤
      totalWeight inp (before ++ name :: after) := by
    rw [totalWeight_append]
    exact Nat.add_le_add_left (Nat.le_add_right _ _) _
  have hdraws : drawsOf inp (before ++ name :: after) before.length = Finset.Ico
      (totalWeight inp before) (totalWeight inp before + trunkWeight inp name) := by
    ext drawn
    rw [drawsOf, mem_filter, mem_range, mem_Ico]
    constructor
    · rintro ⟨hdrawn, hindex⟩
      have hcapped : drawn < capped (totalWeight inp (before ++ name :: after)) := by
        rw [capped]
        omega
      obtain ⟨before', t, after', hsplit, hlow, hhigh⟩ := exists_weightedPick hcapped
      rw [hsplit, weightedIndex_trunks hlow hhigh, some_inj] at hindex
      obtain ⟨rfl, hrest⟩ := List.append_inj hsplit hindex.symm
      obtain ⟨rfl, rfl⟩ := List.cons.inj hrest
      rw [capped] at hlow hhigh
      omega
    · intro hdrawn
      refine ⟨by omega, weightedIndex_trunks ?_ ?_⟩ <;> rw [capped] <;> omega
  rw [hdraws, Nat.card_Ico, Nat.add_sub_cancel_left]

/-- **Trunks are drawn by their weights**: every draw selects a trunk before the loop is over, and
as many select the trunk at a position as it has weight. -/
theorem weighted_draws (hpos : 0 < totalWeight inp trunks)
    (hlt : totalWeight inp trunks < 2 ^ 32) :
    (∀ (env : Env ω) (s : State ω), ((selectTrunkWeighted env inp trunks).run s).1 =
      .ok (weightedPick inp trunks ((env.random s.world).1 % totalWeight inp trunks))) ∧
    (∀ drawn < totalWeight inp trunks, ∃ i < trunks.length, drawn ∈ drawsOf inp trunks i) ∧
    ∀ before name after, trunks = before ++ name :: after →
      (drawsOf inp trunks before.length).card = trunkWeight inp name := by
  have hcapped : capped (totalWeight inp trunks) = totalWeight inp trunks := by
    rw [capped]
    omega
  have hpick : ∀ drawn < totalWeight inp trunks, ∃ before name after,
      trunks = before ++ name :: after ∧ weightedPick inp trunks drawn = name ∧
      drawn ∈ drawsOf inp trunks before.length := by
    intro drawn hdrawn
    obtain ⟨before, name, after, rfl, hlow, hhigh⟩ := exists_weightedPick (hcapped ▸ hdrawn)
    exact ⟨before, name, after, rfl, weightedPick_eq hlow hhigh, mem_filter.mpr
      ⟨mem_range.mpr hdrawn, weightedIndex_trunks hlow hhigh⟩⟩
  refine ⟨fun env s => ?_, fun drawn hdrawn => ?_, fun before name after hsplit => ?_⟩
  · obtain ⟨before, name, after, hsplit, hname, -⟩ :=
      hpick _ (Nat.mod_lt (env.random s.world).1 hpos)
    cases htrunks : trunks with
    | nil => simp [htrunks] at hsplit
    | cons first rest =>
      cases rest with
      | nil =>
        have hone : name = first := by
          have hmem : name ∈ trunks := by simp [hsplit]
          simpa [htrunks] using hmem
        rw [← htrunks, hname, hone, htrunks]
        rfl
      | cons second rest =>
        rw [← htrunks, selectTrunkWeighted_eq htrunks, hcapped, if_neg hpos.ne']
        rfl
  · obtain ⟨before, name, after, rfl, -, hmem⟩ := hpick drawn hdrawn
    exact ⟨before.length, by simp, hmem⟩
  · subst hsplit
    exact card_drawsOf hlt

theorem weighted_draws_even : ∃ inp : MatchInput Unit, (drawsOf inp ["a", "b"] 1).card = 100 :=
  ⟨⟨none, none, false, .execute⟩, (weighted_draws (by decide) (by decide)).2.2 ["a"] "b" [] rfl⟩

theorem selects_weighted (hdraw : ∀ n, ∃ w, (env.random w).1 = n)
    (htrunks : trunks = first :: second :: rest) :
    Selects (selectTrunkWeighted env inp trunks) name ↔ SelectableByWeight inp trunks name := by
  have hne : trunks ≠ [] := htrunks ▸ List.cons_ne_nil _ _
  rw [selectTrunkWeighted_eq htrunks]
  split
  next hzero =>
    have hnone : ∀ t ∈ trunks, trunkWeight inp t = 0 := by
      apply totalWeight_eq_zero.mp
      rw [capped] at hzero
      omega
    rw [selects_random hdraw hne]
    constructor
    · intro hmem
      obtain ⟨before, after, hsplit⟩ := List.append_of_mem hmem
      exact ⟨before, after, hsplit, .inl hnone⟩
    · rintro ⟨before, after, rfl, -⟩
      simp
  next hsome =>
    constructor
    · rintro ⟨s, s', hrun⟩
      have hname := ok.inj (mk.inj hrun).1
      have hdrawn := Nat.mod_lt (env.random s.world).1 (Nat.pos_of_ne_zero hsome)
      generalize (env.random s.world).1 % capped (totalWeight inp trunks) = drawn at hname hdrawn
      obtain ⟨before, t, after, rfl, hlow, hhigh⟩ := exists_weightedPick hdrawn
      obtain rfl : t = name := (weightedPick_eq hlow hhigh).symm.trans hname
      refine ⟨before, after, rfl, .inr ?_⟩
      rw [← totalWeight]
      rw [capped] at hlow hhigh
      omega
    · rintro ⟨before, after, hsplit, hnone | ⟨hweight, hreach⟩⟩
      · rw [totalWeight_eq_zero.mpr hnone] at hsome
        exact absurd rfl hsome
      · -- The number at which the share of the trunk begins.
        obtain ⟨w, hw⟩ := hdraw (totalWeight inp before)
        have hreach : totalWeight inp before < 2 ^ 32 - 1 := hreach
        have htotal : totalWeight inp before + trunkWeight inp name ≤ totalWeight inp trunks := by
          rw [hsplit, totalWeight_append]
          exact Nat.add_le_add_left (Nat.le_add_right _ _) _
        have hlt : totalWeight inp before < capped (totalWeight inp trunks) := by
          rw [capped]
          omega
        have hpick : weightedPick inp trunks (totalWeight inp before) = name := by
          rw [hsplit]
          apply weightedPick_eq
          · rw [capped]
            omega
          · rw [capped]
            omega
        refine ⟨stateWith w ∅, _, Prod.ext (congrArg ok ?_) rfl⟩
        change weightedPick inp trunks ((env.random w).1 % capped (totalWeight inp trunks)) = name
        rw [hw, Nat.mod_eq_of_lt hlt, hpick]

/-- **What is selected.** Where any number can be drawn, a method selects the trunks that it can
select, and no other. -/
theorem selectTrunk_iff (hdraw : ∀ n, ∃ w, (env.random w).1 = n) :
    Selects (selectTrunk env inp dest select hashKey option) name ↔
      Selectable env inp dest select hashKey option name := by
  obtain ⟨world, -⟩ := hdraw 0
  have hone : ∀ trunk, Selects (pure trunk : Eff (State ω) Failure String) name ↔ name = trunk := by
    intro trunk
    constructor
    · rintro ⟨s, s', hrun⟩
      exact (ok.inj (mk.inj hrun).1).symm
    · rintro rfl
      exact ⟨stateWith world ∅, _, rfl⟩
  rw [selectTrunk, Selectable]
  rcases dest.trunks with _ | ⟨first, _ | ⟨second, rest⟩⟩
  · exact ⟨fun ⟨_, _, hrun⟩ => (nomatch hrun), False.elim⟩
  · exact hone first
  · have hne : first :: second :: rest ≠ [] := List.cons_ne_nil _ _
    by_cases hrandom : select = "random"
    · subst hrandom
      exact selects_random hdraw hne
    by_cases hhash : select = "hash"
    · subst hhash
      have hlt := Nat.mod_lt (env.hash (hashValue env hashKey option)).toNat
        (List.length_pos_of_ne_nil hne)
      have hget := List.getElem?_eq_getElem hlt
      refine (hone _).trans ?_
      rw [getD_eq_of_getElem? hget]
      change _ ↔ (first :: second :: rest)[_]? = some name
      rw [hget, some_inj, eq_comm]
    by_cases hweighted : select = "weighted"
    · subst hweighted
      exact selects_weighted hdraw rfl
    simp only
    exact selects_roundRobin world _ hne

/-! ## Forwarding -/

def stampedTrunk (hints : Option DialplanHints) : Option OutboundTrunkContext :=
  hints.bind (·.outboundTrunk)

theorem stampedTrunk_allowCodecs : stampedTrunk (allowCodecs rule hints) = stampedTrunk hints := by
  unfold allowCodecs
  cases hints <;> split <;> rfl

theorem stampedTrunk_attached :
    stampedTrunk (attachConcurrentCallLease (attachHolds hints holds) lease) =
      stampedTrunk hints := by
  unfold attachConcurrentCallLease attachHolds
  cases hints <;> split <;> split <;> rfl

theorem chooseTrunk_selects (h : (chooseTrunk env inp m dest).run s = (.ok name, s')) :
    Selects (selectTrunk env inp dest m.rule.action.select m.rule.action.hashKey m.option)
      name := by
  obtain ⟨selected, t, hselect, h⟩ := bind_ok h
  obtain rfl : selected = name := ok.inj (mk.inj h).1
  exact ⟨s, t, hselect⟩

theorem stampTrunk_stamped (h : stampTrunk env option hints name trunk = .ok (option', hints')) :
    stampedTrunk hints' = some ⟨trunk.id, name, trunk.dest⟩ := by
  unfold stampTrunk at h
  cases happly : applyTrunkConfig env option trunk with
  | error e =>
    rw [happly] at h
    cases h
  | ok applied =>
    rw [happly] at h
    cases h
    rfl

theorem dialTrunk_selected (h : (dialTrunk env inp m dest).run s = (.ok (option, hints), s')) :
    stampedTrunk hints = stampedTrunk m.hints ∨ ∃ trunk, stampedTrunk hints = some trunk ∧
        Selects (chooseTrunk env inp m dest) trunk.name := by
  obtain ⟨selected, t, hchoose, h⟩ := bind_ok h
  split at h
  · cases h
    exact .inl rfl
  next trunk htrunk =>
    obtain ⟨_, t₁, -, h⟩ := bind_ok h
    obtain ⟨_, t₂, -, h⟩ := bind_ok h
    have hstamp := congrArg fst (mapError_ok h)
    exact .inr ⟨_, stampTrunk_stamped hstamp, s, t, mapError_ok hchoose⟩

variable (env inp) in
/-- The rule sends calls to the trunk. -/
def SendsTo (m : Matched) (name : String) : Prop :=
  ∃ dest, m.rule.action.dest = some dest ∧ inp.mode = .execute ∧
    Selects (chooseTrunk env inp m dest) name

variable (env inp) in
/-- The trunk is one that the rule can select. -/
def Reaches (m : Matched) (name : String) : Prop :=
  ∃ dest, m.rule.action.dest = some dest ∧ inp.mode = .execute ∧
    Selectable env inp dest m.rule.action.select m.rule.action.hashKey m.option name

theorem sendsTo_iff (hdraw : ∀ n, ∃ w, (env.random w).1 = n) :
    SendsTo env inp m name ↔ Reaches env inp m name := by
  refine exists_congr fun dest => and_congr_right fun _ => and_congr_right fun _ => ?_
  rw [← selectTrunk_iff hdraw]
  constructor
  · rintro ⟨s, s', hrun⟩
    exact chooseTrunk_selects hrun
  · rintro ⟨s, s', hrun⟩
    refine ⟨s, { s' with trace := s'.trace.map fun t => { t with selectedTrunk := name } }, ?_⟩
    rw [chooseTrunk, run_bind, hrun]
    rfl

/-- **What a forwarded call is stamped with**, if it was not stamped before, is a trunk that the
rule sends calls to. -/
theorem forwardAction_selected
    (h : (forwardAction env inp m).run s = (.ok (.forward [⟨option, hints⟩]), s')) :
    stampedTrunk hints = stampedTrunk m.hints ∨
      ∃ trunk, stampedTrunk hints = some trunk ∧ SendsTo env inp m trunk.name := by
  have hattached : ∀ {option' : InviteOption} {hints' : Option DialplanHints} {t : State ω},
      (attach (allowCodecs m.rule hints') >>= fun hints =>
        pure (RouteResult.forward [⟨option', hints⟩])).run t =
        (.ok (.forward [⟨option, hints⟩]), s') → stampedTrunk hints = stampedTrunk hints' := by
    intro option' hints' t h
    cases h
    rw [stampedTrunk_attached, stampedTrunk_allowCodecs]
  unfold forwardAction at h
  cases hdest : m.rule.action.dest with
  | none =>
    rw [hdest] at h
    exact .inl (hattached h)
  | some dest =>
    rw [hdest] at h
    cases hmode : inp.mode with
    | inspect =>
      rw [hmode] at h
      exact .inl (hattached h)
    | execute =>
      rw [hmode] at h
      obtain ⟨⟨option', hints'⟩, t, hdial, h⟩ := bind_ok h
      rw [hattached h]
      obtain hsame | ⟨trunk, hstamped, hselects⟩ := dialTrunk_selected hdial
      · exact .inl hsame
      · exact .inr ⟨trunk, hstamped, dest, hdest, hmode, hselects⟩

end

/-- How often selections of the destinations `ds`, one after the other, take the trunk of `dest` at
position `i`. -/
def chosen (debug : DestConfig ↪ String) (dest : DestConfig) (i : Nat) :
    List DestConfig → State ω → Nat
  | [], _ => 0
  | d :: ds, s =>
    let (index, s') := (nextRoundRobinIndex (debug d) d.trunks.length).run s
    chosen debug dest i ds s' + if d = dest ∧ index.toOption = some i then 1 else 0

theorem chosen_eq {debug : DestConfig ↪ String} (hi : i < dest.trunks.length)
    (hs : (s.roundRobin.lookup (debug dest)).getD 0 = c % 2 ^ 64) : chosen debug dest i ds s =
      Nat.count (fun k => (c + k) % 2 ^ 64 % dest.trunks.length = i) (ds.count dest) := by
  -- The counter of `dest` says how many turns were taken, whatever other counters say.
  induction ds generalizing s c with
  | nil => rfl
  | cons d ds ih =>
    by_cases hd : d = dest
    · subst hd
      have hlength : d.trunks.length ≠ 0 := by omega
      have hnext : (AList.lookup (debug d)
          (s.roundRobin.insert (debug d) ((c % 2 ^ 64 + 1) % 2 ^ 64))).getD 0 =
          (c + 1) % 2 ^ 64 := by
        rw [AList.lookup_insert, getD_some, Nat.mod_add_mod]
      simp only [chosen, nextRoundRobinIndex, run_modifyGet, if_neg hlength, hs]
      rw [ih hnext, List.count_cons_self, Nat.count_succ']
      simp [Except.toOption, Nat.add_assoc, Nat.add_comm 1]
    · simp only [chosen, hd, List.count_cons_of_ne hd]
      refine ih (Eq.trans ?_ hs)
      simp only [nextRoundRobinIndex, run_modifyGet]
      split
      · rfl
      · rw [AList.lookup_insert_ne fun h => hd (debug.injective h.symm)]

theorem count_turns (hi : i < n) (h : m ≤ 2 ^ 64 ∨ n ∣ 2 ^ 64) :
    Nat.count (fun k => (0 + k) % 2 ^ 64 % n = i) m = m / n + if i < m % n then 1 else 0 := by
  rw [← Nat.mod_eq_of_lt hi, ← Nat.count_modEq_card m (by omega) i, Nat.count_eq_card_filter_range,
    Nat.count_eq_card_filter_range]
  congr 1
  refine filter_congr fun k hk => ?_
  rw [Nat.zero_add, Nat.ModEq]
  rcases h with hm | hn
  · have hsmall : k % 2 ^ 64 = k := Nat.mod_eq_of_lt ((mem_range.mp hk).trans_le hm)
    rw [hsmall]
  · rw [Nat.mod_mod_of_dvd k hn]

/-- **Trunks take turns**: however the selections of other destinations come between, each trunk is
selected as often as the others, up to one time, while the counter has not wrapped around or if
that makes no difference. -/
theorem round_robin_fair {s : State ω} (debug : DestConfig ↪ String) (ds : List DestConfig)
    (hi : i < dest.trunks.length) (hs : s.roundRobin.lookup (debug dest) = none)
    (h : ds.count dest ≤ 2 ^ 64 ∨ dest.trunks.length ∣ 2 ^ 64) :
    let (m, n) := (ds.count dest, dest.trunks.length)
    chosen debug dest i ds s = m / n ∨ chosen debug dest i ds s = (m + n - 1) / n := by
  dsimp only
  rw [chosen_eq hi (by rw [hs, getD_none, Nat.zero_mod]), count_turns hi h]
  generalize ds.count dest = m
  generalize dest.trunks.length = n at hi
  split
  next hrest =>
    have hm := Nat.div_add_mod m n
    have hlt := Nat.mod_lt m (Nat.zero_lt_of_lt hi)
    refine .inr (Nat.div_eq_of_lt_le ?_ ?_).symm
    · rw [Nat.add_mul, Nat.mul_comm]
      omega
    · rw [Nat.add_mul, Nat.add_mul, Nat.mul_comm]
      omega
  · exact .inl rfl

/-- A name in which every character is escaped, up to its closing quote. -/
def quoted : List Char → List Char
  | [] => ['"']
  | c :: name => '\\' :: c :: quoted name

theorem quoted_append_inj (h : quoted a ++ x = quoted b ++ y) : a = b ∧ x = y := by
  induction a generalizing b with
  | nil => cases b <;> simp_all [quoted]
  | cons c a ih =>
    cases b with
    | nil => simp [quoted] at h
    | cons c' b =>
      simp only [quoted, List.cons_append, List.cons.injEq, true_and] at h
      exact ⟨by rw [h.1, (ih h.2).1], (ih h.2).2⟩

def quotedNames (names : List String) : List Char :=
  names.flatMap (quoted ·.toList)

theorem quotedNames_injective : Function.Injective quotedNames := by
  intro names names' h
  induction names generalizing names' with
  | nil =>
    cases names' with
    | nil => rfl
    | cons name' _ => cases hname : name'.toList <;> simp [quotedNames, quoted, hname] at h
  | cons name names ih =>
    cases names' with
    | nil => cases hname : name.toList <;> simp [quotedNames, quoted, hname] at h
    | cons name' names' =>
      obtain ⟨hname, hnames⟩ := quoted_append_inj h
      rw [String.toList_inj.mp hname, ih hnames]

def quotedText : DestConfig ↪ String where
  toFun
    | .single name => String.ofList ('S' :: quotedNames [name])
    | .multiple names => String.ofList ('M' :: quotedNames names)
  inj' := by
    rintro (_ | _) (_ | _) h <;> have h := List.cons.inj (String.ofList_injective h)
    · exact congrArg _ (List.singleton_inj.mp (quotedNames_injective h.2))
    · cases h.1
    · cases h.1
    · exact congrArg _ (quotedNames_injective h.2)

def threeTrunks : DestConfig := .multiple ["a", "b", "c"]

theorem round_robin_fair_three :
    let ds := [threeTrunks, .multiple ["a", "d"], threeTrunks, threeTrunks, threeTrunks]
    chosen quotedText threeTrunks 0 ds (stateWith () ∅) = 4 / 3 ∨
      chosen quotedText threeTrunks 0 ds (stateWith () ∅) = (4 + 3 - 1) / 3 :=
  round_robin_fair quotedText _ (by decide) rfl (.inl (by decide))

/-- When the counter has wrapped around, the first trunk gets its turn once more. -/
theorem turn_taken_twice :
    chosen quotedText threeTrunks 0 (.replicate (2 ^ 64 + 1) threeTrunks) (stateWith () ∅) =
      (2 ^ 64 + 1) / 3 + 2 := by
  have hs : ((stateWith () ∅).roundRobin.lookup (quotedText threeTrunks)).getD 0 = 0 % 2 ^ 64 := by
    rfl
  have hturns : ∀ m ≤ 2 ^ 64, chosen quotedText threeTrunks 0 (.replicate (m + 1) threeTrunks)
      (stateWith () ∅) = m / 3 + (if 0 < m % 3 then 1 else 0) +
        if (0 + m) % 2 ^ 64 % 3 = 0 then 1 else 0 := by
    intro m hm
    rw [← count_turns (by decide) (.inl hm), ← Nat.count_succ,
      chosen_eq (by decide) hs, List.count_replicate_self]
    rfl
  rw [hturns _ (Nat.le_refl _)]
  norm_num

end RustPbx.Routing
