import RustPbx.Proxy.DbLocator
import RustPbx.Proxy.MemoryRegistrations

/-!
The two locators side by side.

Both refine `Registrations`, so they say the same about who is registered after operations that both
of them take for the same. Memory and database part ways where one of two phones that share a
contact goes (`same_contact_parts`).
-/

namespace RustPbx.Proxy

open Sip Call MemoryLocator DbLocator Option

structure LocatorBackends where
  /-- In seconds. -/
  now : Nat
  memory : MemoryLocator
  db : DbLocator

inductive LocatorOp where
  | register (username : String) (realm : Option String) (location : Location)
  | unregister (username : String) (realm : Option String)
  | unregisterWithAddress (addr : SipAddr)
  | sweepExpired
  | pass (seconds : Nat)

def LocatorOp.run (lib : DbLib) (s : LocatorBackends) : LocatorOp → LocatorBackends
  | .register username realm location => { s with
      memory := s.memory.register lib.toUriLib (s.now * 10 ^ 9) username realm location
      db := (s.db.register lib s.now username realm location).toOption.getD s.db }
  | .unregister username realm => { s with
      memory := s.memory.unregister username realm
      db := s.db.unregister username realm }
  | .unregisterWithAddress addr => { s with
      memory := s.memory.unregisterWithAddress (s.now * 10 ^ 9) addr
      db := s.db.unregisterWithAddress lib s.now addr }
  | .sweepExpired => { s with
      memory := s.memory.sweepExpired (s.now * 10 ^ 9)
      db := s.db.sweepExpired s.now }
  | .pass seconds => { s with now := s.now + seconds }

section

variable {l : MemoryLocator} {d : DbLocator}

theorem getIdentifier_of_identity (hrealms : l.realmChecker = d.realmChecker)
    (hi : d.normalizeIdentity username realm = some i) :
    l.getIdentifier username realm = i.identifier ∧ i.identifier ≠ "" := by
  have hlocal : l.isLocalRealm = d.isLocalRealm := by
    funext r
    cases hchecker : d.realmChecker <;>
      simp only [MemoryLocator.isLocalRealm, DbLocator.isLocalRealm, hrealms, hchecker]
  rw [normalizeIdentity] at hi
  rw [getIdentifier, hlocal]
  split at hi
  · cases hi
  next hne =>
    rw [if_neg hne, ← some.inj hi, Identity.identifier]
    cases hrealm : (realm.map Str.trim).filter (· ≠ "") with
    | none => exact ⟨rfl, hne⟩
    | some r =>
      have hr : r ≠ "" := of_decide_eq_true (Option.filter_eq_some_iff.mp hrealm).2
      have hname : (if d.isLocalRealm r then "localhost" else Str.lower r) ≠ "" := by
        split
        · decide
        · exact Str.lower_ne_empty hr
      dsimp only [map_some, getD_some, elim_some]
      rw [if_neg hname]
      exact ⟨rfl, by simp⟩

theorem getIdentifier_of_none (h : d.normalizeIdentity username realm = none) :
    l.getIdentifier username realm = "" := by
  rw [normalizeIdentity] at h
  rw [getIdentifier]
  split at h
  next hempty => rw [if_pos hempty]
  · cases h

end

namespace LocatorBackends

variable {Known : Set Identity} {s : LocatorBackends}

/-! ## Operations that both take for the same -/

/-- What has to hold for an operation. `Known` are the users that take part. -/
def Permits (lib : DbLib) (Known : Set Identity) (s : LocatorBackends) : LocatorOp → Prop
  | .register username realm location =>
    ∀ i, s.db.normalizeIdentity username realm = some i →
      i ∈ Known ∧ location.destination.isSome = true ∧
      s.memory.Tells lib.toUriLib (s.now * 10 ^ 9) i.identifier
        (location.bindingKey lib.toUriLib) (lib.print location.aor) ∧
      (location.expires ≠ 0 →
        (∃ t addr, location.destination = some ⟨some t, addr⟩ ∧ lib.Readable addr) ∧
        (∀ modified, location.lastModified = some modified → modified = s.now * 10 ^ 9) ∧
        s.db.OneInstance s.now i (lib.print location.aor) location.instanceId)
  | .unregister username realm =>
    ∀ i, s.db.normalizeIdentity username realm = some i → i ∈ Known
  | .unregisterWithAddress addr => addr.transport.isSome = true ∧ lib.Readable addr.addr
  | .sweepExpired => True
  | .pass _ => True

/-- Both locators are sound, and have the same live bindings. -/
structure Agrees (lib : DbLib) (Known : Set Identity) (s : LocatorBackends) : Prop where
  memory : s.memory.Sound lib.toUriLib
  db : s.db.Sound lib
  realms : s.memory.realmChecker = s.db.realmChecker
  same : Registrations.SameLive Known s.now (s.memory.filed lib.toUriLib) (s.db.filed lib)

theorem onePhone_of_oneInstance {l : DbLocator} {now : Nat} {i : Identity} {new : Binding}
    (hsound : l.Sound lib) (h : l.OneInstance now i new.aor new.instanceId) :
    Registrations.OnePhone now i new (l.filed lib) := by
  rintro b b' ⟨row, hrow, hi, hshows⟩ ⟨row', hrow', hi', hshows'⟩ hlive - hphone hphone'
  obtain ⟨inst, hinst⟩ := isSome_iff_exists.mp hphone.1
  have hlive := (hshows.live (hsound.shown row hrow).1).mpr hlive
  have heq := h inst hinst row hrow ((hshows.sharesPhone hinst).mpr ⟨hi, hphone⟩) hlive row' hrow'
    ((hshows'.sharesPhone hinst).mpr ⟨hi', hphone'⟩)
  rw [← hshows.aor, ← hshows'.aor, heq]

theorem agrees_mk {now : Nat} {memory : MemoryLocator} {db : DbLocator}
    (hmemory : memory.Sound lib.toUriLib) (hdb : db.Sound lib)
    (hrealms : memory.realmChecker = db.realmChecker)
    (hsame : Registrations.SameLive Known now (memory.filed lib.toUriLib) (db.filed lib)) :
    Agrees lib Known ⟨now, memory, db⟩ :=
  ⟨hmemory, hdb, hrealms, hsame⟩

section

variable (h : s.Agrees lib Known)
include h

theorem Agrees.registered {db : DbLocator}
    (hdb : s.db.register lib s.now username realm location = .ok db) (hdbSound : db.Sound lib)
    (hmemory : (s.memory.register lib.toUriLib (s.now * 10 ^ 9) username realm location).Sound
      lib.toUriLib)
    (hsame : Registrations.SameLive Known s.now ((s.memory.register lib.toUriLib (s.now * 10 ^ 9)
      username realm location).filed lib.toUriLib) (db.filed lib)) :
    ((LocatorOp.register username realm location).run lib s).Agrees lib Known := by
  rw [LocatorOp.run, hdb]
  refine agrees_mk hmemory hdbSound ?_ hsame
  exact (MemoryLocator.register_realmChecker ..).trans
    (h.realms.trans (register_realmChecker hdb).symm)

theorem Agrees.register_nameless
    (hi : s.db.normalizeIdentity username realm = none) :
    ((LocatorOp.register username realm location).run lib s).Agrees lib Known := by
  have hmemory : s.memory.register lib.toUriLib (s.now * 10 ^ 9) username realm location =
      s.memory := by
    rw [MemoryLocator.register]
    simp only [getIdentifier_of_none hi, if_true]
  have hdb : s.db.register lib s.now username realm location =
      .error "Cannot register location without username" := by
    rw [DbLocator.register, hi]
  rw [LocatorOp.run, hmemory, hdb]
  exact h

theorem Agrees.register (hinj : Set.InjOn Identity.identifier Known)
    (hpermits : s.Permits lib Known (.register username realm location)) :
    ((LocatorOp.register username realm location).run lib s).Agrees lib Known := by
  cases hi : s.db.normalizeIdentity username realm with
  | none => exact h.register_nameless hi
  | some i =>
    obtain ⟨hknown, hdestination, htells, hregister⟩ := hpermits i hi
    obtain ⟨hid, hne⟩ := getIdentifier_of_identity h.realms hi
    by_cases hexpires : location.expires = 0
    · obtain ⟨db, hdb, hdbSound, hdbSame⟩ :=
        h.db.register_refines_remove Known s.now hi hdestination hexpires
      obtain ⟨hmemory, hsame⟩ :=
        h.memory.register_refines_remove hinj hknown hid hne hexpires htells
      exact h.registered hdb hdbSound hmemory ((hsame.trans (h.same.remove i _)).trans hdbSame.symm)
    · obtain ⟨⟨t, addr, hdestination, hreadable⟩, hmodified, hone⟩ := hregister hexpires
      have hphone : Registrations.OnePhone s.now i
          (.ofLocation lib.toUriLib s.now location t addr) (s.db.filed lib) :=
        onePhone_of_oneInstance h.db hone
      obtain ⟨db, hdb, hdbSound, hdbSame⟩ :=
        h.db.register_refines Known hi hdestination hreadable hexpires hone
      obtain ⟨hmemory, hsame⟩ := h.memory.register_refines hinj hknown hid hne hdestination
        hmodified hexpires htells (h.same.onePhone hknown hphone)
      exact h.registered hdb hdbSound hmemory
        ((hsame.trans (h.same.register i _)).trans hdbSame.symm)

theorem Agrees.unregister (hinj : Set.InjOn Identity.identifier Known)
    (hknown : ∀ i, s.db.normalizeIdentity username realm = some i → i ∈ Known) :
    ((LocatorOp.unregister username realm).run lib s).Agrees lib Known := by
  cases hi : s.db.normalizeIdentity username realm with
  | none =>
    have hmemory : s.memory.unregister username realm = s.memory := by
      rw [MemoryLocator.unregister]
      simp only [getIdentifier_of_none hi, if_true]
    have hdb : s.db.unregister username realm = s.db := by
      rw [DbLocator.unregister, hi]
    rw [LocatorOp.run, hmemory, hdb]
    exact h
  | some i =>
    obtain ⟨hid, hne⟩ := getIdentifier_of_identity h.realms hi
    have hmemory := h.memory.of_drop fun _ _ _ => binding?_unregister hid hne
    have hdb : (s.db.unregister username realm).Sound lib := by
      rw [DbLocator.unregister, hi]
      exact h.db.deleteWhere _
    refine agrees_mk hmemory hdb ?_ ?_
    · rw [MemoryLocator.unregister_realmChecker, DbLocator.unregister_realmChecker, h.realms]
    · exact ((unregister_refines hinj (hknown i hi) hid hne).trans
        (h.same.unregister i)).trans (unregister_refines hi).symm

theorem Agrees.unregisterWithAddress (hreadable : lib.Readable addr) :
    ((LocatorOp.unregisterWithAddress ⟨some t, addr⟩).run lib s).Agrees lib Known := by
  refine agrees_mk (h.memory.of_drop fun _ _ _ => binding?_dropBindings)
    (h.db.deleteWhere _) ?_ ?_
  · exact (dropBindings_realmChecker ..).trans h.realms
  · exact (unregisterWithAddress_refines.trans (h.same.close t addr)).trans
      (unregisterWithAddress_refines hreadable).symm

theorem Agrees.sweepExpired : (LocatorOp.sweepExpired.run lib s).Agrees lib Known := by
  refine agrees_mk (h.memory.of_drop fun _ _ _ => binding?_dropBindings)
    (h.db.deleteWhere _) ?_ ?_
  · exact (dropBindings_realmChecker ..).trans h.realms
  · exact (sweepExpired_refines.trans h.same).trans
      (sweepExpired_refines h.db).symm

theorem Agrees.run (hinj : Set.InjOn Identity.identifier Known)
    (hpermits : s.Permits lib Known op) : (op.run lib s).Agrees lib Known := by
  cases op with
  | register username realm location => exact h.register hinj hpermits
  | unregister username realm => exact h.unregister hinj hpermits
  | unregisterWithAddress addr =>
    obtain ⟨transport, addr⟩ := addr
    obtain ⟨htransport, hreadable⟩ := hpermits
    obtain ⟨t, rfl⟩ := isSome_iff_exists.mp htransport
    exact h.unregisterWithAddress hreadable
  | sweepExpired => exact h.sweepExpired
  | pass seconds => exact agrees_mk h.memory h.db h.realms (h.same.later (Nat.le_add_right ..))

end

def Runs (lib : DbLib) (C : LocatorBackends → LocatorOp → Prop) :
    LocatorBackends → LocatorBackends → Prop :=
  Relation.ReflTransGen fun s s' => ∃ op, C s op ∧ s' = LocatorOp.run lib s op

theorem Runs.agrees (h : Runs lib (Permits lib Known) s s')
    (hinj : Set.InjOn Identity.identifier Known) (hs : s.Agrees lib Known) :
    s'.Agrees lib Known := by
  induction h with
  | refl => exact hs
  | tail _ hstep ih =>
    obtain ⟨op, hpermits, rfl⟩ := hstep
    exact ih.run hinj hpermits

def initial (checker : Option (String → Bool)) (now : Nat) : LocatorBackends :=
  ⟨now, { realmChecker := checker }, { realmChecker := checker }⟩

theorem agrees_initial (lib : DbLib) (Known : Set Identity) (checker : Option (String → Bool))
    (now : Nat) : (initial checker now).Agrees lib Known := by
  refine agrees_mk (sound_empty _ checker) (sound_empty lib checker) rfl
    fun i _ b _ => ⟨?_, ?_⟩
  · rintro ⟨key, loc, hloc, -⟩
    cases hloc
  · rintro ⟨row, hrow, -⟩
    exact absurd hrow List.not_mem_nil

/-- **The same answer from both locators.** -/
theorem same_hasActiveBindings (hinj : Set.InjOn Identity.identifier Known)
    {checker : Option (String → Bool)} {now : Nat}
    (hruns : Runs lib (Permits lib Known) (initial checker now) s) (username : String)
    (realm : Option String)
    (hknown : ∀ i, s.db.normalizeIdentity username realm = some i → i ∈ Known) :
    s.memory.hasActiveBindings (s.now * 10 ^ 9) username realm =
      s.db.hasActiveBindings s.now username realm := by
  have h := hruns.agrees hinj (agrees_initial lib Known checker now)
  cases hi : s.db.normalizeIdentity username realm with
  | none =>
    have hmemory : s.memory.hasActiveBindings (s.now * 10 ^ 9) username realm = false := by
      rw [MemoryLocator.hasActiveBindings, getIdentifier_of_none hi]
      rfl
    rw [hmemory, DbLocator.hasActiveBindings, hi]
  | some i =>
    obtain ⟨hid, hne⟩ := getIdentifier_of_identity h.realms hi
    rw [Bool.eq_iff_iff, hasActiveBindings_filed h.memory hid hne,
      hasActiveBindings_iff h.db hi]
    exact exists_congr fun b => and_congr_right fun hlive => h.same i (hknown i hi) b hlive

def plainDb : DbLib where
  parse _ := .error ""
  print uri := uri.user.getD "" ++ "@" ++ uri.hostText
  parseHostWithPort text := .ok ⟨.domain text.toList, none⟩
  printSipAddr addr := String.ofList addr.addr.host.print
  sipAddrOfUri _ := .error ""
  printHostWithPort addr := String.ofList addr.host.print
  one := List.head?
  one_mem := List.mem_of_head?
  one_eq_none := List.head?_eq_none_iff.mp

def deskPhone (host inst : String) (expires : Nat) : Location where
  aor := ⟨some .sip, some ⟨"1001", none⟩, ⟨.domain host.toList, none⟩, []⟩
  expires
  destination := some ⟨some .udp, ⟨.domain host.toList, none⟩⟩
  instanceId := some inst

/-- A phone registers at its desk, and again from home. -/
theorem same_hasActiveBindings_phone :
    ∃ s, Runs plainDb (Permits plainDb {⟨"1001", ""⟩}) (initial none 0) s ∧
      s.db.rows.length = 2 ∧ s.memory.hasActiveBindings (s.now * 10 ^ 9) "1001" none = true ∧
      s.memory.hasActiveBindings (s.now * 10 ^ 9) "1001" none =
        s.db.hasActiveBindings s.now "1001" none := by
  let desk := (LocatorOp.register "1001" none (deskPhone "desk" "a" 60)).run plainDb
    (initial none 0)
  have hdesk : (initial none 0).Permits plainDb {⟨"1001", ""⟩}
      (.register "1001" none (deskPhone "desk" "a" 60)) := by
    intro i hi
    refine ⟨(some.inj hi).symm, rfl, ?_, fun _ => ⟨⟨_, _, rfl, rfl⟩, nofun, ?_⟩⟩
    · intro key loc hloc
      cases hloc
    · exact fun inst _ row hrow => absurd hrow List.not_mem_nil
  have hhome : desk.Permits plainDb {⟨"1001", ""⟩}
      (.register "1001" none (deskPhone "home" "a" 60)) := by
    intro i hi
    obtain rfl := some.inj hi
    refine ⟨rfl, rfl, ?_, fun _ => ⟨⟨_, _, rfl, rfl⟩, nofun, ?_⟩⟩
    · rintro key loc hloc -
      obtain ⟨bindings, hrow, hloc⟩ := bind_eq_some_iff.mp hloc
      obtain rfl := some.inj hrow
      have hloc := (Table.lookup_insert_eq _ _ _ _).symm.trans hloc
      split at hloc
      next hkey =>
        obtain rfl := some.inj hloc
        rw [hkey]
        decide
      · cases hloc
    · rintro inst - row (hrow : row ∈ [_]) - - row' (hrow' : row' ∈ [_]) -
      rw [List.mem_singleton.mp hrow, List.mem_singleton.mp hrow']
  let s := (LocatorOp.register "1001" none (deskPhone "home" "a" 60)).run plainDb desk
  have hruns : Runs plainDb (Permits plainDb {⟨"1001", ""⟩}) (initial none 0) s :=
    .tail (.single ⟨_, hdesk, rfl⟩) ⟨_, hhome, rfl⟩
  refine ⟨s, hruns, by decide, by decide, ?_⟩
  refine same_hasActiveBindings (Set.injOn_singleton _ _) hruns "1001" none fun i hi => ?_
  exact (some.inj hi).symm

/-- Two phones share a contact, and one of them goes. -/
theorem same_contact_parts : ∃ s, Runs plainDb (fun _ _ => True) (initial none 0) s ∧
      s.memory.hasActiveBindings (s.now * 10 ^ 9) "1001" none = true ∧
      s.db.hasActiveBindings s.now "1001" none = false := by
  have hruns : ∀ ops : List LocatorOp, ∀ s,
      Runs plainDb (fun _ _ => True) s (ops.foldl (LocatorOp.run plainDb) s) := by
    intro ops
    induction ops with
    | nil => exact fun s => .refl
    | cons op ops ih => exact fun s => .head ⟨op, trivial, rfl⟩ (ih _)
  refine ⟨_, hruns [.register "1001" none (deskPhone "phone" "a" 60),
    .register "1001" none (deskPhone "phone" "b" 60),
    .register "1001" none (deskPhone "phone" "b" 0)] _, ?_, ?_⟩
  · decide
  · decide

end LocatorBackends

end RustPbx.Proxy
