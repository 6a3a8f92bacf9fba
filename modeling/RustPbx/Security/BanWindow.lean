import RustPbx.Lib.IpNet
import RustPbx.Security.BanStore

/-!
When an address is banned, by the failures it has had since its last ban.

Only networks of IPv4 with a positive length protect their addresses.
-/

namespace RustPbx.Security.BanStore

open Time Table List

/-- The network of a text, of either family and of any length. -/
def cidrNetwork (cidr : String) : Option Network := do
  let (net, bits) ← Str.splitOnce '/' cidr.toList
  let ip ← IpAddr.parse net
  let bits ← Str.parseUnsigned (2 ^ 32) bits
  if h : bits ≤ ip.width then some (IpNet.trunc ⟨ip, bits, h⟩) else none

theorem protects_iff : protects ip cidr = true ↔ ∃ n, cidrNetwork cidr = some n ∧
    n.Covers ip ∧ n.v6 = false ∧ 0 < n.prefixLen := by
  rw [protects, cidrNetwork]
  cases Str.splitOnce '/' cidr.toList with
  | none => simp
  | some parts =>
    dsimp only [Option.bind_eq_bind, Option.bind_some]
    cases IpAddr.parse parts.1 with
    | none => simp
    | some net =>
      cases Str.parseUnsigned (2 ^ 32) parts.2 with
      | none => cases net <;> simp
      | some bits =>
        by_cases hbits : bits ≤ net.width
        · rw [Option.bind_some, Option.bind_some, dif_pos hbits]
          cases net <;> cases ip <;>
            simp_all [Network.Covers, IpNet.trunc, IpAddr.isV6, IpAddr.width, IpAddr.bits, v4Number]
          rw [and_assoc, and_comm]
        · rw [Option.bind_some, Option.bind_some, dif_neg hbits]
          cases net <;> cases ip <;> simp_all [IpAddr.width]

/-- The address is in one of the networks that are to be protected. -/
def Covered (config : BanConfig) (ip : IpAddr) : Prop :=
  ∃ cidr ∈ config.protectedCidrs, ∃ n, cidrNetwork cidr = some n ∧ n.Covers ip

/-- One of the networks that have the address is of IPv4 and not of all addresses. -/
def Shielded (config : BanConfig) (ip : IpAddr) : Prop :=
  ∃ cidr ∈ config.protectedCidrs, ∃ n, cidrNetwork cidr = some n ∧ n.Covers ip ∧
    n.v6 = false ∧ 0 < n.prefixLen

theorem isProtected_iff : isProtected config ip = true ↔ Shielded config ip := by
  rw [isProtected, any_eq_true]
  exact exists_congr fun _ => and_congr_right' protects_iff

def inWindow (config : BanConfig) (now t : Nat) : Bool :=
  now - t ≤ secs config.windowSecs

/-- The failures of an address since its last ban: a ban starts as soon as enough of them are within
one window. -/
def sinceBan (config : BanConfig) (times : List Nat) : List Nat :=
  times.foldl (fun kept now =>
    if config.maxFailures ≤ ((kept ++ [now]).filter (inWindow config now)).length then []
    else kept ++ [now]) []

/-- A list of stored times counts like all times since the last ban, from some moment on. -/
structure Tracks (config : BanConfig) (last : Nat) (stored since : List Nat) : Prop where
  sorted : stored.Pairwise (· ≤ ·)
  past : ∀ t ∈ stored, t ≤ last
  same : ∀ now, last ≤ now →
    stored.filter (inWindow config now) = since.filter (inWindow config now)

theorem Tracks.nil (config : BanConfig) (last : Nat) : Tracks config last [] [] :=
  ⟨.nil, by simp, fun _ _ => rfl⟩

theorem Tracks.mono (h : Tracks config last stored since) (hle : last ≤ later) :
    Tracks config later stored since :=
  ⟨h.sorted, fun t ht => Nat.le_trans (h.past t ht) hle,
    fun now hnow => h.same now (Nat.le_trans hle hnow)⟩

theorem dropWhile_eq_filter {l : List Nat} (h : l.Pairwise (· ≤ ·)) :
    l.dropWhile (window < now - ·) = l.filter (now - · ≤ window) := by
  induction h with
  | nil => rfl
  | @cons t l hfirst _ ih =>
    by_cases ht : now - t ≤ window
    · have hall : ∀ t' ∈ t :: l, decide (now - t' ≤ window) = true := by
        intro t' ht'
        have hle : t ≤ t' := (mem_cons.mp ht').elim (fun h => h ▸ Nat.le_refl t) (hfirst t')
        exact decide_eq_true (by omega)
      rw [filter_eq_self.mpr hall, dropWhile_cons_of_neg (by simpa using ht)]
    · rw [filter_cons_of_neg (by simpa using ht), dropWhile_cons_of_pos, ih]
      exact decide_eq_true (Nat.lt_of_not_le ht)

/-- What is stored with a failure counts like all failures since the last ban with it. -/
theorem Tracks.record (h : Tracks config last stored since) (hnow : last ≤ now) :
    stored.dropWhile (secs config.windowSecs < now - ·) ++ [now] =
        (since ++ [now]).filter (inWindow config now) ∧
      Tracks config now ((since ++ [now]).filter (inWindow config now)) (since ++ [now]) := by
  have hself : inWindow config now now = true := by simp [inWindow]
  have hrecent : stored.filter (inWindow config now) ++ [now] =
      (since ++ [now]).filter (inWindow config now) := by
    rw [h.same now hnow, filter_append, filter_cons_of_pos hself, filter_nil]
  have hpast : ∀ t ∈ stored.filter (inWindow config now), t ≤ now := fun t ht =>
    Nat.le_trans (h.past t (mem_filter.mp ht).1) hnow
  refine ⟨by rw [dropWhile_eq_filter h.sorted, ← hrecent]; rfl, ?_, ?_, fun later hlater => ?_⟩
  · rw [← hrecent]
    refine pairwise_append.mpr ⟨h.sorted.filter _, pairwise_singleton _ _, fun t ht t' ht' => ?_⟩
    rw [mem_singleton.mp ht']
    exact hpast t ht
  · rw [← hrecent]
    exact forall_mem_append.mpr ⟨hpast, forall_mem_singleton.mpr (Nat.le_refl now)⟩
  · rw [filter_filter]
    refine filter_congr fun t _ => ?_
    rw [inWindow, inWindow, ← Bool.decide_and, decide_eq_decide]
    omega

/-! ## Runs -/

structure AuthFailure where
  now : Nat
  ip : IpAddr
  username : String
  method : String

def fail (config : BanConfig) (store : BanStore) (f : AuthFailure) : BanStore :=
  store.recordAuthFailure config f.now f.ip f.username f.method

def failAll (config : BanConfig) (fs : List AuthFailure) : BanStore :=
  fs.foldl (fail config) {}

def timesOf (ip : IpAddr) (fs : List AuthFailure) : List Nat :=
  (fs.filter (·.ip = ip)).map (·.now)

theorem fail_other (h : ip ≠ f.ip) :
    (fail config store f).failures.lookup ip = store.failures.lookup ip ∧
      (fail config store f).banned.lookup ip = store.banned.lookup ip := by
  rw [fail, recordAuthFailure]
  split
  · exact ⟨rfl, rfl⟩
  split
  · simp [applyBan, h]
  · simp [h]

section

variable {config : BanConfig} {store : BanStore} {ip : IpAddr} (henabled : config.enabled = true)
  (hip : isProtected config ip = false)
include henabled hip

theorem reaches_iff (h : Tracks config last ((store.failures.lookup ip).getD []) since)
    (hnow : last ≤ now) : store.reaches config now ip = true ↔
      config.maxFailures ≤ ((since ++ [now]).filter (inWindow config now)).length := by
  rw [reaches, henabled, hip, recentFailures, (h.record hnow).1]
  simp

theorem tracks_fail
    (h : Tracks config f.now ((store.failures.lookup ip).getD []) (sinceBan config times))
    (heq : f.ip = ip) : Tracks config f.now (((fail config store f).failures.lookup ip).getD [])
      (sinceBan config (times ++ [f.now])) := by
  subst heq
  have hreaches := reaches_iff henabled hip h (Nat.le_refl _)
  obtain ⟨hrecent, htracks⟩ := h.record (Nat.le_refl _)
  rw [sinceBan, foldl_append, foldl_cons, foldl_nil, ← sinceBan, fail, recordAuthFailure, henabled,
    hip]
  by_cases hfull : store.reaches config f.now f.ip = true
  · rw [if_pos (hreaches.mp hfull)]
    simp [hfull, applyBan, Tracks.nil]
  · rw [if_neg fun hcount => hfull (hreaches.mpr hcount)]
    simpa [hfull, recentFailures, hrecent] using htracks

theorem tracks_failAll (horder : (fs.map (·.now)).Pairwise (· ≤ ·))
    (hlast : ∀ f ∈ fs, f.now ≤ last) :
    Tracks config last (((failAll config fs).failures.lookup ip).getD [])
      (sinceBan config (timesOf ip fs)) := by
  induction fs using reverseRecOn generalizing last with
  | nil => exact .nil config last
  | append_singleton fs f ih =>
    rw [map_append, pairwise_append] at horder
    have hbefore := ih horder.1 fun f' hf' =>
      horder.2.2 _ (mem_map_of_mem hf') f.now (mem_singleton.mpr rfl)
    refine Tracks.mono ?_ (hlast f (mem_append_right _ (mem_singleton.mpr rfl)))
    rw [failAll, foldl_append, foldl_cons, foldl_nil, ← failAll, timesOf, filter_append, map_append,
      ← timesOf]
    by_cases heq : f.ip = ip
    · simpa [heq] using tracks_fail henabled hip hbefore heq
    · simpa [heq, (fail_other (Ne.symm heq)).1] using hbefore

end

theorem not_banned_of_isProtected (hip : isProtected config ip = true) :
    (failAll config fs).banned.lookup ip = none := by
  induction fs using reverseRecOn with
  | nil => rfl
  | append_singleton fs f ih =>
    rw [failAll, foldl_append, foldl_cons, foldl_nil, ← failAll]
    by_cases heq : ip = f.ip
    · rw [fail, recordAuthFailure, if_pos (by simp [← heq, hip]), ih]
    · rw [(fail_other heq).2, ih]

/-- Every ban lasts for some time, and its length fits into a signed number. -/
abbrev Lasting (config : BanConfig) : Prop :=
  ∀ secs ∈ config.banDurationsSecs, 0 < secs ∧ secs < 2 ^ 63

theorem Lasting.durationFor (h : Lasting config) (n : Nat) :
    0 < durationFor config n ∧ durationFor config n < 2 ^ 63 := by
  have hdefault : ∀ secs ∈ [3600, 86400, 604800], 0 < secs ∧ secs < 2 ^ 63 := by decide
  have hget {l : List Nat} (hne : l ≠ []) (hall : ∀ secs ∈ l, 0 < secs ∧ secs < 2 ^ 63) :
      0 < l.getD (min (n - 1) (l.length - 1)) 0 ∧
        l.getD (min (n - 1) (l.length - 1)) 0 < 2 ^ 63 := by
    have hlt : min (n - 1) (l.length - 1) < l.length := by
      have := length_pos_of_ne_nil hne
      omega
    rw [getD_eq_getElem?_getD, getElem?_eq_getElem hlt, Option.getD_some]
    exact hall _ (getElem_mem hlt)
  unfold BanStore.durationFor
  split
  · exact hget (by decide) hdefault
  next hne => exact hget (by simpa using hne) h

theorem isBanned_applyBan (h : Lasting config) :
    (applyBan config store now ip username method).isBanned now ip = true := by
  obtain ⟨hpos, hlt⟩ := h.durationFor (store.nextOffense ip)
  have huntil : (banRecord config store now ip username method).bannedUntil =
      untilTs config now (store.nextOffense ip) := by
    unfold banRecord
    split <;> rfl
  rw [isBanned, applyBan, AList.lookup_insert, huntil]
  dsimp only
  rw [instantFromUnix, untilTs, wrapI64, wrapI64, wrapI64]
  exact decide_eq_true (by omega)

theorem isBanned_fail (henabled : config.enabled = true) (hlasting : Lasting config)
    (hip : isProtected config f.ip = false) :
    (fail config store f).isBanned f.now f.ip = true ↔
      store.isBanned f.now f.ip = true ∨ store.reaches config f.now f.ip = true := by
  rw [fail, recordAuthFailure, henabled, hip]
  by_cases hfull : store.reaches config f.now f.ip = true
  · simp [hfull, isBanned_applyBan hlasting]
  · simp [hfull, isBanned]

theorem sinceBan_replicate (h : n < config.maxFailures) :
    sinceBan config (replicate n now) = replicate n now := by
  induction n with
  | zero => rfl
  | succ n ih =>
    rw [replicate_succ', sinceBan, foldl_append, ← sinceBan, ih (by omega), foldl_cons, foldl_nil,
      ← replicate_succ', if_neg]
    refine fun hle => Nat.not_le_of_lt h (hle.trans ?_)
    exact (length_filter_le ..).trans (length_replicate ..).le

section

variable {config : BanConfig} {ip : IpAddr} (henabled : config.enabled = true)
  (hlasting : Lasting config) (hip : isProtected config ip = false)
include henabled hlasting hip

theorem isBanned_failAll_concat (hf : f.ip = ip)
    (horder : ((fs ++ [f]).map (·.now)).Pairwise (· ≤ ·)) :
    (failAll config (fs ++ [f])).isBanned f.now ip = true ↔
      (failAll config fs).isBanned f.now ip = true ∨ config.maxFailures ≤
        ((sinceBan config (timesOf ip fs) ++ [f.now]).filter (inWindow config f.now)).length := by
  subst hf
  rw [map_append] at horder
  obtain ⟨hfs, -, hnow⟩ := pairwise_append.mp horder
  have hlast : ∀ f' ∈ fs, f'.now ≤ f.now := fun f' hf' =>
    hnow _ (mem_map_of_mem hf') f.now (mem_singleton.mpr rfl)
  rw [failAll, foldl_append, ← failAll, foldl_cons, foldl_nil, isBanned_fail henabled hlasting hip,
    reaches_iff henabled hip (tracks_failAll henabled hip hfs hlast) (Nat.le_refl _)]

theorem exists_isBanned : ∃ fs now, (failAll config fs).isBanned now ip = true := by
  let f : AuthFailure := ⟨0, ip, "", ""⟩
  have htimes : timesOf ip (replicate (config.maxFailures - 1) f) =
      replicate (config.maxFailures - 1) 0 := by
    simp [timesOf, f]
  refine ⟨replicate (config.maxFailures - 1) f ++ [f], 0,
    (isBanned_failAll_concat henabled hlasting hip rfl ?_).mpr (.inr ?_)⟩
  · rw [← replicate_succ', map_replicate]
    exact pairwise_replicate.mpr (.inr (Nat.le_refl _))
  · rw [htimes]
    rcases Nat.eq_zero_or_pos config.maxFailures with hzero | hpos
    · omega
    · rw [sinceBan_replicate (by omega), ← replicate_succ',
        filter_eq_self.mpr (by simp [inWindow, f]), length_replicate]
      omega

end

/-- **When a ban starts.** An address in one of the protected networks is never banned exactly if
one of those that have it is of IPv4 and not of all addresses. An address in none of them is banned
after a failure exactly if it was banned before, or had enough failures since its last ban within
one window. -/
theorem ban_starts_exactly (config : BanConfig) (ip : IpAddr) (henabled : config.enabled = true)
    (hlasting : Lasting config) :
    (Covered config ip →
      ((∀ fs now, (failAll config fs).isBanned now ip = false) ↔ Shielded config ip)) ∧
    (¬ Covered config ip → ∀ fs f, f.ip = ip → ((fs ++ [f]).map (·.now)).Pairwise (· ≤ ·) →
      ((failAll config (fs ++ [f])).isBanned f.now ip = true ↔
        (failAll config fs).isBanned f.now ip = true ∨ config.maxFailures ≤
          ((sinceBan config (timesOf ip fs) ++ [f.now]).filter
            (inWindow config f.now)).length)) := by
  refine ⟨fun _ => ⟨fun h => ?_, fun h fs now => ?_⟩, fun hnot fs f hf horder => ?_⟩
  · rw [← isProtected_iff]
    by_contra hip
    obtain ⟨fs, now, hbanned⟩ := exists_isBanned henabled hlasting (Bool.not_eq_true _ ▸ hip)
    exact Bool.false_ne_true ((h fs now).symm.trans hbanned)
  · rw [isBanned, not_banned_of_isProtected (isProtected_iff.mpr h)]
  · refine isBanned_failAll_concat henabled hlasting (Bool.eq_false_iff.mpr fun hip => hnot ?_) hf
      horder
    obtain ⟨cidr, hcidr, n, hn, hcovers, -⟩ := isProtected_iff.mp hip
    exact ⟨cidr, hcidr, n, hn, hcovers⟩

def guarded (cidr : String) : BanConfig := { maxFailures := 1, protectedCidrs := [cidr] }

def oneFailure (ip : IpAddr) : List AuthFailure := [⟨secs 1, ip, "100", "REGISTER"⟩]

/-- An address of the network after a failure, and one that is not in it. -/
theorem ban_starts_exactly_guarded :
    (failAll (guarded "10.0.0.0/8") (oneFailure (.v4 10 0 0 9))).isBanned (secs 2) (.v4 10 0 0 9) =
        false ∧
      (failAll (guarded "10.0.0.0/8") (oneFailure (.v4 11 0 0 9))).isBanned (secs 1)
        (.v4 11 0 0 9) = true := by
  have hnetwork : cidrNetwork "10.0.0.0/8" = some ⟨false, 8, 10⟩ := by decide
  have hlasting : Lasting (guarded "10.0.0.0/8") := by decide
  constructor
  · exact ((ban_starts_exactly _ _ rfl hlasting).1
      ⟨_, mem_singleton.mpr rfl, _, hnetwork, by decide⟩).mpr
      ⟨_, mem_singleton.mpr rfl, _, hnetwork, by decide⟩ _ _
  · refine ((ban_starts_exactly _ _ rfl hlasting).2 ?_ [] ⟨secs 1, .v4 11 0 0 9, "100", "REGISTER"⟩
      rfl (pairwise_singleton ..)).mpr (.inr (by decide))
    rintro ⟨cidr, hcidr, n, hn, hcovers⟩
    rw [mem_singleton.mp hcidr, hnetwork] at hn
    cases hn
    exact absurd hcovers (by decide)

/-- Networks of IPv6 and that of all addresses do not protect. -/
theorem covered_and_banned :
    let ip : IpAddr := .v6 0x2001 0xdb8 0 0 0 0 0 1
    (failAll (guarded "2001:db8::/32") (oneFailure ip)).isBanned (secs 2) ip = true ∧
      (failAll (guarded "0.0.0.0/0") (oneFailure (.v4 10 0 0 9))).isBanned (secs 2) (.v4 10 0 0 9) =
        true := by
  decide

end RustPbx.Security.BanStore
