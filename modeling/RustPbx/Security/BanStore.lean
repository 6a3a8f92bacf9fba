import RustPbx.Lib.IpAddrText
import RustPbx.Lib.Table
import RustPbx.Lib.Time

/-!
The addresses that are banned after too many authentication failures.

A ban is kept in memory, as the moment it ends, and in a row of the database, in whole seconds. When
an address is banned again, its row keeps the mark that it has been released
(`banned_again_after_release`). Times are in nanoseconds since 1970, on a wall clock and a monotonic
clock that read the same. The alerts are left out.
-/

namespace RustPbx.Security

open Time Table Option Int

structure BanConfig where
  enabled : Bool := true
  maxFailures : Nat := 5
  windowSecs : Nat := 600
  banDurationsSecs : List Nat := [3600, 86400, 604800]
  protectedCidrs : List String := []

structure BanRecord where
  ip : String
  reason : String
  lastUsername : Option String
  lastMethod : Option String
  offenseCount : Nat
  bannedUntil : Int
  createdAt : Int
  releasedAt : Option Int
  releasedBy : Option String

structure BanStore where
  rows : Table String BanRecord := ∅
  banned : Table IpAddr Int := ∅
  failures : Table IpAddr (List Nat) := ∅

def ipText (ip : IpAddr) : String :=
  String.ofList ip.print

def timestamp (now : Nat) : Int :=
  (now / 10 ^ 9 : Nat)

def wrapI64 (n : Int) : Int :=
  (n + 2 ^ 63) % 2 ^ 64 - 2 ^ 63

namespace BanStore

variable (config : BanConfig) (store : BanStore) (now : Nat)

def instantFromUnix (ts : Int) : Int :=
  now + max (wrapI64 (ts - timestamp now)) 0 * 10 ^ 9

def isBanned (ip : IpAddr) : Bool :=
  match store.banned.lookup ip with
  | some untilInstant => now < untilInstant
  | none => false

def isActive (record : BanRecord) : Bool :=
  timestamp now < record.bannedUntil && record.releasedAt.isNone

def reloadFromDb : BanStore :=
  { store with
    banned := store.rows.reindex fun _ record =>
      if isActive now record then
        (IpAddr.parse record.ip.toList).map fun ip => (ip, instantFromUnix now record.bannedUntil)
      else none }

def v4Number (a b c d : UInt8) : Nat :=
  ((a.toNat * 256 + b.toNat) * 256 + c.toNat) * 256 + d.toNat

/-- The address lies in a network that is never banned, of IPv4 only. -/
def protects (ip : IpAddr) (cidr : String) : Bool :=
  match Str.splitOnce '/' cidr.toList with
  | none => false
  | some (net, bits) =>
    match IpAddr.parse net, Str.parseUnsigned (2 ^ 32) bits, ip with
    | some (.v4 a b c d), some bits, .v4 a' b' c' d' =>
      0 < bits && bits ≤ 32 &&
        v4Number a b c d / 2 ^ (32 - bits) == v4Number a' b' c' d' / 2 ^ (32 - bits)
    | _, _, _ => false

def isProtected (ip : IpAddr) : Bool :=
  config.protectedCidrs.any (protects ip)

def recentFailures (ip : IpAddr) : List Nat :=
  ((store.failures.lookup ip).getD []).dropWhile
    (fun front => secs config.windowSecs < now - front) ++ [now]

def durationFor (offenseCount : Nat) : Nat :=
  let durations := if config.banDurationsSecs.isEmpty then [3600, 86400, 604800]
    else config.banDurationsSecs
  durations.getD (min (offenseCount - 1) (durations.length - 1)) 0

/-- When a ban that starts now ends, by the number of bans the address has had with it. -/
def untilTs (offenseCount : Nat) : Int :=
  wrapI64 (timestamp now + wrapI64 (durationFor config offenseCount))

def nextOffense (ip : IpAddr) : Nat :=
  ((store.rows.lookup (ipText ip)).map (·.offenseCount + 1)).getD 1

/-- The row of an address after it is banned. A row that is there keeps its creation and its
release. -/
def banRecord (ip : IpAddr) (username method : String) : BanRecord :=
  let offenseCount := store.nextOffense ip
  match store.rows.lookup (ipText ip) with
  | some existing =>
    { existing with
      reason := "auth_failures"
      lastUsername := some username
      lastMethod := some method
      offenseCount
      bannedUntil := untilTs config now offenseCount }
  | none =>
    { ip := ipText ip
      reason := "auth_failures"
      lastUsername := some username
      lastMethod := some method
      offenseCount
      bannedUntil := untilTs config now offenseCount
      createdAt := timestamp now
      releasedAt := none
      releasedBy := none }

def applyBan (ip : IpAddr) (username method : String) : BanStore :=
  let record := banRecord config store now ip username method
  { store with
    rows := store.rows.insert (ipText ip) record
    banned := store.banned.insert ip (instantFromUnix now record.bannedUntil) }

/-- The failure is one too many. -/
def reaches (ip : IpAddr) : Bool :=
  config.enabled && !isProtected config ip &&
    config.maxFailures ≤ (recentFailures config store now ip).length

def recordAuthFailure (ip : IpAddr) (username method : String) : BanStore :=
  if !config.enabled || isProtected config ip then store
  else if store.reaches config now ip then
    applyBan config { store with failures := store.failures.erase ip } now ip username method
  else
    { store with failures := store.failures.insert ip (recentFailures config store now ip) }

def release (ip releasedBy : String) : Bool × BanStore :=
  match store.rows.lookup ip with
  | none => (false, store)
  | some existing =>
    if existing.releasedAt.isSome || existing.bannedUntil ≤ timestamp now then (false, store)
    else
      let record :=
        { existing with releasedAt := some (timestamp now), releasedBy := some releasedBy }
      let banned := match IpAddr.parse ip.toList with
        | some parsed => store.banned.erase parsed
        | none => store.banned
      (true, { store with rows := store.rows.insert ip record, banned })

/-! ## What the operations leave -/

theorem parse_ipText (ip : IpAddr) : IpAddr.parse (ipText ip).toList = some ip := by
  rw [ipText, String.toList_ofList, IpAddr.parse_print]

theorem ipText_injective (h : ipText ip = ipText ip') : ip = ip' := by
  have hparse := parse_ipText ip
  rw [h, parse_ipText] at hparse
  exact (some.inj hparse).symm

/-- A ban in memory is that of a row that has not been released, to the second or because both have
ended, and without one the row is not active. -/
def Kept (now : Nat) : Option Int → Option BanRecord → Prop
  | some ends, some record =>
    record.releasedAt = none ∧
      (record.bannedUntil * 10 ^ 9 ≤ ends ∧ ends < (record.bannedUntil + 1) * 10 ^ 9 ∨
        ends ≤ now ∧ record.bannedUntil ≤ timestamp now)
  | some _, none => False
  | none, some record => isActive now record = false
  | none, none => True

theorem timestamp_mono {now : Nat} (h : now ≤ later) : timestamp now ≤ timestamp later := by
  have hdiv : now / 10 ^ 9 ≤ later / 10 ^ 9 := Nat.div_le_div_right h
  exact ofNat_le.mpr hdiv

theorem Kept.mono {now : Nat} (hle : now ≤ later) (h : Kept now ends record) :
    Kept later ends record := by
  have htime := timestamp_mono hle
  cases ends with
  | none =>
    cases record with
    | none => trivial
    | some record =>
      simp only [Kept, isActive, Bool.and_eq_false_iff, decide_eq_false_iff_not] at h ⊢
      exact h.imp_left fun hover hactive => hover (lt_of_le_of_lt htime hactive)
  | some ends =>
    cases record with
    | none => exact h
    | some record =>
      refine ⟨h.1, h.2.imp_right fun hover => ⟨?_, le_trans hover.2 htime⟩⟩
      exact le_trans hover.1 (ofNat_le.mpr hle)

/-- Memory and database agree, and the rows are those of addresses, under their texts. -/
structure Stored (store : BanStore) (now : Nat) : Prop where
  keyed : ∀ text record, store.rows.Row text record →
    record.ip = text ∧ (∃ ip, text = ipText ip) ∧ record.bannedUntil < 2 ^ 63
  kept : ∀ ip, Kept now (store.banned.lookup ip) (store.rows.lookup (ipText ip))

variable {config} {store} {now}

theorem Stored.mono (h : Stored store now) (hle : now ≤ later) : Stored store later :=
  ⟨h.keyed, fun ip => (h.kept ip).mono hle⟩

/-- The end of a ban, as it is kept in memory: within the second of its row. -/
theorem instantFromUnix_spec (hlow : timestamp now ≤ ts) (hhigh : ts < 2 ^ 63) :
    ts * 10 ^ 9 ≤ instantFromUnix now ts ∧ instantFromUnix now ts < (ts + 1) * 10 ^ 9 := by
  rw [instantFromUnix, wrapI64]
  rw [timestamp] at *
  omega

theorem Stored.lookup_reload (h : Stored store now) :
    (store.reloadFromDb later).banned.lookup ip =
      ((store.rows.lookup (ipText ip)).filter (isActive later)).map fun record =>
        instantFromUnix later record.bannedUntil := by
  have hname : ∀ text record, store.rows.Row text record → ∀ new : IpAddr × Int,
      (if isActive later record then
        (IpAddr.parse record.ip.toList).map fun ip =>
          (ip, instantFromUnix later record.bannedUntil)
      else none) = some new → text = ipText new.1 := by
    intro text record hrow new hnew
    obtain ⟨hip, ⟨ip, rfl⟩, -⟩ := h.keyed text record hrow
    rw [hip, parse_ipText] at hnew
    split at hnew
    · cases hnew
      rfl
    · cases hnew
  rw [reloadFromDb, lookup_reindex hname]
  cases hrow : store.rows.lookup (ipText ip) with
  | none => rfl
  | some record =>
    obtain ⟨hip, -, -⟩ := h.keyed _ record (row_of_lookup hrow)
    rw [bind_some, filter_some, hip, parse_ipText]
    cases isActive later record <;> simp

theorem Stored.reload (h : Stored store now) : Stored (store.reloadFromDb now) now := by
  refine ⟨h.keyed, fun ip => ?_⟩
  rw [h.lookup_reload]
  change Kept now _ (store.rows.lookup (ipText ip))
  cases hrow : store.rows.lookup (ipText ip) with
  | none => trivial
  | some record =>
    obtain ⟨-, -, hbound⟩ := h.keyed _ record (row_of_lookup hrow)
    rw [filter_some]
    cases hactive : isActive now record with
    | false => exact hactive
    | true =>
      rw [isActive, Bool.and_eq_true, decide_eq_true_eq, isNone_iff_eq_none] at hactive
      exact ⟨hactive.2, .inl (instantFromUnix_spec (le_of_lt hactive.1) hbound)⟩

theorem Stored.release (h : Stored store now) (text releasedBy : String) :
    Stored (store.release now text releasedBy).2 now := by
  rw [BanStore.release]
  cases hrow : store.rows.lookup text with
  | none => exact h
  | some existing =>
    dsimp only
    split
    · exact h
    · obtain ⟨hip, ⟨ip, rfl⟩, hbound⟩ := h.keyed _ existing (row_of_lookup hrow)
      rw [parse_ipText]
      constructor
      · intro text' record hrow'
        rcases row_of_insert hrow' with ⟨rfl, rfl⟩ | hold
        · exact ⟨hip, ⟨ip, rfl⟩, hbound⟩
        · exact h.keyed text' record hold
      · intro ip'
        rw [lookup_erase_eq, lookup_insert_eq]
        by_cases heq : ip' = ip
        · subst heq
          simp [Kept, isActive]
        · rw [if_neg heq, if_neg fun htext => heq (ipText_injective htext)]
          exact h.kept ip'

/-- The ban of an address ends within 64 bits, and its row has not been released. -/
structure Bans (config : BanConfig) (store : BanStore) (now : Nat) (ip : IpAddr) : Prop where
  fits : timestamp now + durationFor config (store.nextOffense ip) < 2 ^ 63
  unreleased : ∀ record, store.rows.lookup (ipText ip) = some record → record.releasedAt = none

theorem untilTs_of_fits (h : timestamp now + durationFor config offenseCount < 2 ^ 63) :
    untilTs config now offenseCount = timestamp now + durationFor config offenseCount := by
  have hnow : 0 ≤ timestamp now := natCast_nonneg _
  rw [untilTs, wrapI64, wrapI64]
  omega

theorem Stored.banRecord (h : Stored store now) (hban : Bans config store now ip)
    (username method : String) : (store.banRecord config now ip username method).ip = ipText ip ∧
      (store.banRecord config now ip username method).bannedUntil =
        timestamp now + durationFor config (store.nextOffense ip) ∧
      (store.banRecord config now ip username method).releasedAt = none := by
  rw [BanStore.banRecord, untilTs_of_fits hban.fits]
  cases hrow : store.rows.lookup (ipText ip) with
  | none => exact ⟨rfl, rfl, rfl⟩
  | some existing =>
    exact ⟨(h.keyed _ existing (row_of_lookup hrow)).1, rfl, hban.unreleased existing hrow⟩

theorem Stored.applyBan (h : Stored store now) (hban : Bans config store now ip)
    (username method : String) :
    Stored (store.applyBan config now ip username method) now := by
  obtain ⟨hip, huntil, hreleased⟩ := h.banRecord hban username method
  have hlow : timestamp now ≤ (store.banRecord config now ip username method).bannedUntil := by
    omega
  have hhigh : (store.banRecord config now ip username method).bannedUntil < 2 ^ 63 :=
    huntil ▸ hban.fits
  constructor
  · intro text record hrow
    rcases row_of_insert hrow with ⟨rfl, rfl⟩ | hold
    · exact ⟨hip, ⟨ip, rfl⟩, hhigh⟩
    · exact h.keyed text record hold
  · intro ip'
    dsimp only [BanStore.applyBan]
    rw [lookup_insert_eq, lookup_insert_eq]
    by_cases heq : ip' = ip
    · subst heq
      rw [if_pos rfl, if_pos rfl]
      exact ⟨hreleased, .inl (instantFromUnix_spec hlow hhigh)⟩
    · rw [if_neg heq, if_neg fun htext => heq (ipText_injective htext)]
      exact h.kept ip'

theorem Stored.recordAuthFailure (h : Stored store now)
    (hban : store.reaches config now ip = true → Bans config store now ip)
    (username method : String) :
    Stored (store.recordAuthFailure config now ip username method) now := by
  rw [BanStore.recordAuthFailure]
  split
  · exact h
  split
  next hreached =>
    obtain ⟨hfits, hunreleased⟩ := hban hreached
    have herased : Stored { store with failures := store.failures.erase ip } now :=
      ⟨h.keyed, h.kept⟩
    exact herased.applyBan ⟨hfits, hunreleased⟩ username method
  · exact ⟨h.keyed, h.kept⟩

end BanStore

inductive BanOp where
  | authFailure (ip : IpAddr) (username method : String)
  | release (ip releasedBy : String)
  | reload

namespace BanOp

open BanStore

def run (config : BanConfig) (store : BanStore) (now : Nat) : BanOp → BanStore
  | .authFailure ip username method => store.recordAuthFailure config now ip username method
  | .release ip releasedBy => (store.release now ip releasedBy).2
  | .reload => store.reloadFromDb now

/-- The operation does not ban an address that has been released. -/
def Permitted (config : BanConfig) (store : BanStore) (now : Nat) : BanOp → Prop
  | .authFailure ip _ _ => store.reaches config now ip = true → Bans config store now ip
  | _ => True

/-- The runs of a store, with the time of the last operation, in which every operation is so. -/
abbrev Runs (config : BanConfig) : BanStore × Nat → BanStore × Nat → Prop :=
  Relation.ReflTransGen fun s s' =>
    s.2 ≤ s'.2 ∧ ∃ op, Permitted config s.1 s'.2 op ∧ s'.1 = op.run config s.1 s'.2

theorem run_stored (h : Stored store now) {op : BanOp} (hop : op.Permitted config store now) :
    Stored (op.run config store now) now := by
  cases op with
  | authFailure ip username method => exact h.recordAuthFailure hop username method
  | release ip releasedBy => exact h.release ip releasedBy
  | reload => exact h.reload

theorem stored_empty : Stored {} now :=
  ⟨fun _ _ hrow => absurd hrow List.not_mem_nil, fun _ => trivial⟩

theorem Runs.stored (hruns : Runs config ({}, start) s) : Stored s.1 s.2 := by
  induction hruns with
  | refl => exact stored_empty
  | tail _ hstep ih =>
    obtain ⟨htime, op, hop, hrun⟩ := hstep
    rw [hrun]
    exact run_stored (ih.mono htime) hop

/-! ## What the rows say -/

def hasActiveRow (store : BanStore) (now : Nat) (ip : IpAddr) : Bool :=
  (store.rows.lookup (ipText ip)).any (isActive now)

theorem isBanned_reload (h : Stored store now) :
    (store.reloadFromDb later).isBanned later ip = hasActiveRow store later ip := by
  rw [isBanned, h.lookup_reload, hasActiveRow]
  cases hrow : store.rows.lookup (ipText ip) with
  | none => rfl
  | some record =>
    obtain ⟨-, -, hbound⟩ := h.keyed _ record (row_of_lookup hrow)
    rw [filter_some, any_some]
    cases hactive : isActive later record with
    | false => rfl
    | true =>
      rw [isActive, Bool.and_eq_true, decide_eq_true_eq] at hactive
      have hlow := (instantFromUnix_spec (le_of_lt hactive.1) hbound).1
      have hnow : (later : Int) < (timestamp later + 1) * 10 ^ 9 := by
        rw [timestamp]
        omega
      simp only [if_true, map_some, decide_eq_true_eq]
      omega

theorem release_eq_hasActiveRow :
    (store.release now (ipText ip) releasedBy).1 = hasActiveRow store now ip := by
  rw [BanStore.release, hasActiveRow]
  cases store.rows.lookup (ipText ip) with
  | none => rfl
  | some record =>
    dsimp only
    rw [any_some, isActive]
    have hover : record.bannedUntil ≤ timestamp now ↔ ¬ timestamp now < record.bannedUntil :=
      not_lt.symm
    cases record.releasedAt <;> by_cases htime : timestamp now < record.bannedUntil <;>
      simp [hover, htime]

/-- No ban is in memory still in the very second in which its row has ended. -/
def NoneEnding (store : BanStore) (now : Nat) : Prop :=
  ∀ ip ends record, store.banned.lookup ip = some ends →
    store.rows.lookup (ipText ip) = some record → now < ends → record.bannedUntil ≠ timestamp now

theorem isBanned_iff (h : Stored store now) :
    store.isBanned now ip = hasActiveRow store now ip ↔
      ∀ ends record, store.banned.lookup ip = some ends →
        store.rows.lookup (ipText ip) = some record → now < ends →
          record.bannedUntil ≠ timestamp now := by
  have hkept := h.kept ip
  rw [isBanned, hasActiveRow]
  cases hends : store.banned.lookup ip with
  | none =>
    cases hrow : store.rows.lookup (ipText ip) with
    | none => simp
    | some record =>
      rw [hends, hrow] at hkept
      have hinactive : isActive now record = false := hkept
      simp [hinactive]
  | some ends =>
    cases hrow : store.rows.lookup (ipText ip) with
    | none =>
      rw [hends, hrow] at hkept
      exact hkept.elim
    | some record =>
      rw [hends, hrow] at hkept
      obtain ⟨hreleased, htimes⟩ := hkept
      have hlow : timestamp now * 10 ^ 9 ≤ now ∧ now < (timestamp now + 1) * 10 ^ 9 := by
        rw [timestamp]
        omega
      have hactive : isActive now record = decide (timestamp now < record.bannedUntil) := by
        simp [isActive, hreleased]
      rw [any_some, hactive, decide_eq_decide]
      constructor
      · rintro hiff ends record ⟨⟩ ⟨⟩ hbanned heq
        omega
      · intro hnot
        have hending := hnot ends record rfl rfl
        omega

/-- **The bans are as they are stored.** In every run that bans no released address, loading the
bans changes no address and exactly the banned addresses are released, if and only if no ban is in
memory still in the second in which its row has ended. -/
theorem banned_as_stored {start : Nat} (hruns : Runs config ({}, start) (store, now)) {moment : Nat}
    (hmoment : now ≤ moment) :
    ((∀ ip, (store.reloadFromDb moment).isBanned moment ip = store.isBanned moment ip) ∧
        ∀ ip releasedBy,
          (store.release moment (ipText ip) releasedBy).1 = store.isBanned moment ip) ↔
      NoneEnding store moment := by
  have hstored : Stored store moment := hruns.stored.mono hmoment
  constructor
  · intro h ip
    rw [← isBanned_iff hstored, ← h.1 ip, isBanned_reload hstored]
  · intro h
    have hactive : ∀ ip, store.isBanned moment ip = hasActiveRow store moment ip :=
      fun ip => (isBanned_iff hstored).mpr (h ip)
    constructor
    · intro ip
      rw [isBanned_reload hstored, hactive]
    · intro ip releasedBy
      rw [release_eq_hasActiveRow, hactive]

def strict : BanConfig := { maxFailures := 1 }

def attacker : IpAddr := .v4 10 0 0 9

def bannedOnce : BanStore :=
  (authFailure attacker "100" "REGISTER").run strict {} (secs 1)

/-- A second after the ban it is there before and after a reload, and can be released. -/
theorem banned_as_stored_once : bannedOnce.isBanned (secs 2) attacker = true ∧
      (bannedOnce.reloadFromDb (secs 2)).isBanned (secs 2) attacker =
        bannedOnce.isBanned (secs 2) attacker ∧
      (bannedOnce.release (secs 2) (ipText attacker) "admin").1 =
        bannedOnce.isBanned (secs 2) attacker := by
  refine ⟨by decide, ?_⟩
  have hpermitted : (authFailure attacker "100" "REGISTER").Permitted strict {} (secs 1) :=
    fun _ => ⟨by decide, fun record hrow => by cases hrow⟩
  have hruns : Runs strict ({}, 0) (bannedOnce, secs 1) :=
    .single ⟨Nat.zero_le _, _, hpermitted, rfl⟩
  have hending : NoneEnding bannedOnce (secs 2) := by
    intro ip ends record _ hrow _
    have hall : ∀ row ∈ bannedOnce.rows.entries, row.2.bannedUntil ≠ timestamp (secs 2) := by
      decide
    exact hall _ (row_of_lookup hrow)
  obtain ⟨hreload, hrelease⟩ :=
    (banned_as_stored hruns (show secs 1 ≤ secs 2 by decide)).mpr hending
  exact ⟨hreload attacker, hrelease attacker "admin"⟩

/-- **Banned again after a release.** The new row is still marked as released: a reload forgets the
ban, and it cannot be released. -/
theorem banned_again_after_release :
    let store := (bannedOnce.release (secs 2) (ipText attacker) "admin").2
    let store := (authFailure attacker "100" "REGISTER").run strict store (secs 3)
    store.isBanned (secs 4) attacker = true ∧
      (store.reloadFromDb (secs 4)).isBanned (secs 4) attacker = false ∧
      (store.release (secs 4) (ipText attacker) "admin").1 = false := by
  decide

end BanOp

end RustPbx.Security
