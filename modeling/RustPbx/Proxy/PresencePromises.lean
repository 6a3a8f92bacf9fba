import RustPbx.Proxy.LocatorEvents
import RustPbx.Proxy.Presence

/-!
What the events of the locator promise to the extensions with a live binding.

What the presence manager makes of the events that wait, as long as no extension goes offline for
the lack of a binding, is `promise`; a live extension is promised not to be offline (`Keeps`). Steps
of the locator that `Permits` allows keep this.
-/

namespace RustPbx.Proxy

open Sip Call List Option Bool MemoryLocator

/-! ## Live extensions -/

namespace MemoryLocator

variable {l l' : MemoryLocator} {id : String}

/-- An identifier has a live binding for an extension. -/
def Serves (l : MemoryLocator) (now : Nat) (extension id : String) : Prop :=
  ∃ loc, l.Holds id loc ∧ loc.isExpiredAt now = false ∧ getUser loc = some extension

theorem Serves.of_holds (hholds : ∀ id loc, l'.Holds id loc → l.Holds id loc)
    (h : l'.Serves now extension id) : l.Serves now extension id := by
  obtain ⟨loc, hloc, hlive⟩ := h
  exact ⟨loc, hholds id loc hloc, hlive⟩

theorem Serves.earlier (hle : now ≤ now') (h : l.Serves now' extension id) :
    l.Serves now extension id := by
  obtain ⟨loc, hloc, hlive, huser⟩ := h
  refine ⟨loc, hloc, ?_, huser⟩
  rw [eq_false_iff] at hlive ⊢
  exact fun hexpired => hlive (isExpiredAt_mono hle hexpired)

theorem Serves.active (hid : id ≠ "") (h : l.Serves now extension id) : l.Active now id := by
  obtain ⟨loc, hloc, hlive, -⟩ := h
  exact ⟨hid, loc, hloc, hlive⟩

theorem serves_of_register
    (h : (l.register uris now username realm location).Serves now' extension id) :
    l.Serves now' extension id ∨ location.expires ≠ 0 ∧ getUser location = some extension := by
  obtain ⟨loc, hholds, hlive, huser⟩ := h
  obtain hold | ⟨-, hnew | ⟨old, hold, hloc⟩⟩ := register_holds hholds
  · exact .inl ⟨loc, hold, hlive, huser⟩
  · rw [hnew] at hlive huser
    refine .inr ⟨fun hexpires => ?_, huser⟩
    rw [touch, stamp, hexpires] at hlive
    cases hlive
  · rw [hloc] at hlive huser
    exact .inl ⟨old, hold, hlive, huser⟩

/-- The users of a binding have no white space around them. -/
def Plain (loc : Location) : Prop :=
  ∀ user, loc.registeredAor.bind (·.user) = some user ∨ loc.aor.user = some user →
    Str.trim user = user

/-- What the locator holds: bindings under an identifier, with plain users. -/
def Filed (l : MemoryLocator) : Prop :=
  ∀ id loc, l.Holds id loc → id ≠ "" ∧ Plain loc

theorem Filed.of_holds (h : l.Filed) (hholds : ∀ id loc, l'.Holds id loc → l.Holds id loc) :
    l'.Filed :=
  fun id loc hloc => h id loc (hholds id loc hloc)

theorem Filed.register (h : l.Filed) (hplain : Plain location) :
    (l.register uris now username realm location).Filed := by
  intro id loc hloc
  by_cases hempty : l.getIdentifier username realm = ""
  · rw [MemoryLocator.register] at hloc
    simp only [hempty] at hloc
    exact h id loc hloc
  · obtain hold | ⟨hid, hnew | ⟨old, hold, hold'⟩⟩ := register_holds hloc
    · exact h id loc hold
    · rw [hid, hnew]
      exact ⟨hempty, hplain⟩
    · rw [hold']
      exact h id old hold

theorem Plain.user (h : Plain loc) (huser : getUser loc = some extension) :
    (loc.registeredAor.bind (·.user) = some extension ∨ loc.aor.user = some extension) ∧
      extension ≠ "" := by
  rw [getUser, or_eq_some_iff] at huser
  obtain huser | ⟨-, huser⟩ := huser
  · obtain ⟨huser, hne⟩ := filter_eq_some_iff.mp huser
    obtain ⟨user, hregistered, rfl⟩ := map_eq_some_iff.mp huser
    rw [h user (.inl hregistered)] at hne ⊢
    exact ⟨.inl hregistered, of_decide_eq_true hne⟩
  · obtain ⟨huser, hne⟩ := filter_eq_some_iff.mp huser
    exact ⟨.inr huser, of_decide_eq_true hne⟩

theorem Serves.hasActiveBindingForUser (h : l.Serves now extension id) (hfiled : l.Filed) :
    l.hasActiveBindingForUser now extension = true := by
  obtain ⟨loc, hholds, hlive, huser⟩ := h
  have hplain := (hfiled id loc hholds).2
  obtain ⟨bindings, key, hrow, hbinding⟩ := hholds
  obtain ⟨hnamed, hne⟩ := hplain.user huser
  have htrim := hplain extension hnamed
  have hsame : Str.eqIgnoreAsciiCase extension (Str.lower extension) = true := by
    rw [Str.eqIgnoreAsciiCase, Str.lower_lower, beq_self_eq_true]
  rw [MemoryLocator.hasActiveBindingForUser]
  dsimp only
  rw [htrim, and_eq_true, bne_iff_ne]
  refine ⟨Str.lower_ne_empty hne, any_eq_true.mpr ⟨⟨id, bindings⟩, hrow, ?_⟩⟩
  refine any_eq_true.mpr ⟨loc, mem_map_of_mem hbinding, ?_⟩
  rw [hlive, Bool.not_false, Bool.true_and, Bool.or_eq_true, Bool.or_eq_true]
  obtain hregistered | haor := hnamed
  · obtain ⟨aor, haor, hname⟩ := bind_eq_some_iff.mp hregistered
    refine .inr ?_
    rw [haor, any_some, hname]
    exact hsame
  · refine .inl (.inr ?_)
    rw [haor]
    exact hsame

end MemoryLocator

/-! ## What waiting events promise -/

/-- What an event makes of the extensions that are not offline, if none goes offline for the lack of
a binding. -/
def LocatorEvent.after (event : LocatorEvent) (P : String → Prop) (extension : String) : Prop :=
  match event with
  | .registered loc => getUser loc = some extension ∨ P extension
  | .refreshed _ => P extension
  | .unregistered loc => getUser loc ≠ some extension ∧ P extension
  | .offline .. => P extension

/-- What events in a row make of them. -/
def promise (pending : List LocatorEvent) (P : String → Prop) : String → Prop :=
  pending.foldl (fun P event => event.after P) P

theorem LocatorEvent.after_mono (h : P extension → Q extension) (event : LocatorEvent) :
    event.after P extension → event.after Q extension := by
  cases event with
  | registered loc => exact Or.imp_right h
  | refreshed | offline => exact h
  | unregistered loc => exact And.imp_right h

theorem promise_mono (h : P extension → Q extension) :
    promise pending P extension → promise pending Q extension := by
  induction pending generalizing P Q with
  | nil => exact h
  | cons event pending ih => exact ih (event.after_mono h)

theorem promise_append : promise (pending ++ published) P = promise published (promise pending P) :=
  foldl_append

/-- An event about a registration asks for no presence of its own. -/
def LocatorEvent.Headerless (event : LocatorEvent) : Prop :=
  event.isUp = true → ∀ loc ∈ event.locations, presenceHeader loc = none

/-- A REGISTER without a presence of its own, with plain users. -/
def ContactRequest.Ordinary (srv : RegistrarServer) (c : ContactRequest) : Prop :=
  MemoryLocator.Plain (c.location srv) ∧ presenceHeader (c.location srv) = none

theorem ContactRequest.Ordinary.headerless {c : ContactRequest} (h : c.Ordinary srv)
    (isRefresh : Bool) : LocatorEvent.Headerless
      (if isRefresh then .refreshed (c.location srv) else .registered (c.location srv)) := by
  intro _ loc hloc
  cases isRefresh with
  | false | true =>
    rw [mem_singleton.mp hloc]
    exact h.2

namespace LocatorSystem

/-- The live bindings of the extension of a binding all belong to the user of that binding. -/
def OnlyUnder (s : LocatorSystem) (loc : Location) : Prop :=
  ∀ extension id id', getUser loc = some extension → s.locator.ownerOf loc = some id →
    s.locator.Serves s.now extension id' → id' = id

/-- An extension is taken back by the user that has all its live bindings, and a user with a live
binding registers an extension with one, by an ordinary REGISTER. -/
def Permits (srv : RegistrarServer) (s : LocatorSystem) : LocatorTask → Prop
  | .unregisterAll user registeredAor => s.OnlyUnder (wildcardLocation user registeredAor)
  | .register c => c.Ordinary srv ∧
    (c.expires = 0 → s.OnlyUnder (c.location srv)) ∧
    (c.expires ≠ 0 → s.locator.Active s.now (s.locator.getIdentifier c.user.username c.user.realm) →
      ∀ extension, getUser (c.location srv) = some extension →
        ∃ id, s.locator.Serves s.now extension id)
  | .transportClosed _ => True
  | .sweep => True

def HolderKeeps (srv : RegistrarServer) (P : String → Prop) (s : LocatorSystem) : LockHolder → Prop
  | .start (.unregisterAll user registeredAor) => s.OnlyUnder (wildcardLocation user registeredAor)
  | .start (.register c) => c.Ordinary srv ∧
    (c.expires = 0 → s.OnlyUnder (c.location srv)) ∧
    (c.expires ≠ 0 → s.locator.Active s.now (s.locator.getIdentifier c.user.username c.user.realm) →
      ∀ extension, getUser (c.location srv) = some extension → P extension)
  | .start _ => True
  | .checked c isRefresh => c.Ordinary srv ∧
    (c.expires = 0 → s.OnlyUnder (c.location srv)) ∧
    (c.expires ≠ 0 → isRefresh = true →
      ∀ extension, getUser (c.location srv) = some extension → P extension)
  | .publishing event => event.Headerless ∧
    ∀ loc, event = .refreshed loc → ∀ extension, getUser loc = some extension → P extension
  | .rechecking pending offline .unregistered =>
    (∀ key locs, pending.lookup key = some locs → ∀ loc ∈ locs, s.OnlyUnder loc) ∧
      ∀ loc ∈ offline, loc.registeredUsername.isSome ∧ s.OnlyUnder loc
  | .rechecking _ _ (.offline _) => True

/-- Live extensions are promised not to be offline, or a registration of theirs is about to be
published. -/
structure Keeps (srv : RegistrarServer) (P : String → Prop) (s : LocatorSystem) : Prop where
  consistent : s.Consistent
  filed : s.locator.Filed
  headers : ∀ event ∈ s.events, event.Headerless
  holder : ∀ holder, s.holder = some holder → s.HolderKeeps srv P holder
  promised : ∀ extension id, s.locator.Serves s.now extension id → P extension ∨
    ∃ loc, s.holder = some (.publishing (.registered loc)) ∧ getUser loc = some extension

variable {s s' : LocatorSystem}

variable {id : String}

theorem Keeps.kept (h : s.Keeps srv P) (hserves : s.locator.Serves s.now extension id)
    (hsettled : s.Settled) : P extension := by
  obtain hkept | ⟨loc, hloc, -⟩ := h.promised extension id hserves
  · exact hkept
  · exact absurd hloc hsettled.not_publishing

theorem OnlyUnder.mono (h : s.OnlyUnder loc)
    (hrealms : s'.locator.realmChecker = s.locator.realmChecker)
    (hserves : ∀ extension id, s'.locator.Serves s'.now extension id →
      s.locator.Serves s.now extension id) : s'.OnlyUnder loc := by
  intro extension id id' huser howner hserves'
  rw [ownerOf_congr hrealms] at howner
  exact h extension id id' huser howner (hserves extension id' hserves')

/-- From one state to the next, the events that are published go into what is promised. -/
def KeepsOn (srv : RegistrarServer) (P : String → Prop) (s s' : LocatorSystem) : Prop :=
  ∃ published, s'.events = s.events ++ published ∧ s'.Keeps srv (promise published P)

theorem KeepsOn.silent (hevents : s'.events = s.events) (h : s'.Keeps srv P) : KeepsOn srv P s s' :=
  ⟨[], hevents.trans (append_nil _).symm, h⟩

theorem Keeps.removing (h : s.Keeps srv P) {locator : MemoryLocator}
    (hconsistent : (s.removing locator removed removal).Consistent)
    (hsettled : s.Settled) (hrealms : locator.realmChecker = s.locator.realmChecker)
    (hfiled : locator.Filed) (hserves : ∀ extension id, locator.Serves s.now extension id →
      s.locator.Serves s.now extension id)
    (honly : removal = .unregistered → ∀ loc ∈ removed, s.OnlyUnder loc) :
    KeepsOn srv P s (s.removing locator removed removal) := by
  refine .silent rfl ⟨hconsistent, hfiled, h.headers, ?_, ?_⟩
  · rintro _ ⟨⟩
    cases removal with
    | unregistered =>
      refine ⟨?_, fun _ hloc => absurd hloc not_mem_nil⟩
      intro key locs hlocs loc hloc
      have hmem : loc ∈ removed := mem_of_groupByUser hlocs hloc
      exact (honly rfl loc hmem).mono hrealms hserves
    | offline reason => trivial
  · exact fun extension id hlive => .inl (h.kept (hserves extension id hlive) hsettled)

theorem Keeps.announcing (h : s.Keeps srv P) {locator : MemoryLocator}
    (hconsistent : (s.announcing locator event).Consistent)
    (hsettled : s.Settled) (hfiled : locator.Filed) (hheader : event.Headerless)
    (hrefreshed : ∀ loc, event = .refreshed loc → ∀ extension, getUser loc = some extension →
      P extension) (hserves : ∀ extension id, locator.Serves s.now extension id →
      s.locator.Serves s.now extension id ∨ P extension ∨
      ∃ loc, event = .registered loc ∧ getUser loc = some extension) :
    KeepsOn srv P s (s.announcing locator event) := by
  refine .silent rfl ⟨hconsistent, hfiled, h.headers, ?_, ?_⟩
  · rintro _ ⟨⟩
    exact ⟨hheader, hrefreshed⟩
  · intro extension id hlive
    obtain hbefore | hkept | ⟨loc, rfl, huser⟩ := hserves extension id hlive
    · exact .inl (h.kept hbefore hsettled)
    · exact .inl hkept
    · exact .inr ⟨loc, rfl, huser⟩

/-- Time passes, and more is promised. -/
theorem HolderKeeps.later {holder : LockHolder} (h : s.HolderKeeps srv P holder) {now : Nat}
    (hle : s.now ≤ now) (hmono : ∀ extension, P extension → Q extension) :
    ({ s with now } : LocatorSystem).HolderKeeps srv Q holder := by
  have honly : ∀ {loc : Location}, s.OnlyUnder loc →
      ({ s with now } : LocatorSystem).OnlyUnder loc :=
    fun h => h.mono rfl fun _ _ => MemoryLocator.Serves.earlier hle
  cases holder with
  | start task =>
    cases task with
    | unregisterAll user aor => exact honly h
    | register c =>
      obtain ⟨hplain, hremove, hregister⟩ := h
      refine ⟨hplain, fun hexpires => honly (hremove hexpires), ?_⟩
      intro hexpires hactive extension huser
      exact hmono extension (hregister hexpires (hactive.earlier hle) extension huser)
    | transportClosed | sweep => trivial
  | checked c isRefresh =>
    obtain ⟨hplain, hremove, hregister⟩ := h
    refine ⟨hplain, fun hexpires => honly (hremove hexpires), ?_⟩
    intro hexpires hrefresh extension huser
    exact hmono extension (hregister hexpires hrefresh extension huser)
  | publishing event =>
    exact ⟨h.1, fun loc hloc extension huser => hmono extension (h.2 loc hloc extension huser)⟩
  | rechecking pending offline removal =>
    cases removal with
    | unregistered =>
      obtain ⟨hpending, hoffline⟩ := h
      refine ⟨fun key locs hlocs loc hloc => honly (hpending key locs hlocs loc hloc), ?_⟩
      exact fun loc hloc => ⟨(hoffline loc hloc).1, honly (hoffline loc hloc).2⟩
    | offline reason => trivial

theorem Keeps.acquire (h : s.Keeps srv P) (hfree : s.holder = none)
    (hpermits : s.Permits srv task) : s.HolderKeeps srv P (.start task) := by
  cases task with
  | unregisterAll user aor => exact hpermits
  | register c =>
    obtain ⟨hplain, hremove, hregister⟩ := hpermits
    refine ⟨hplain, hremove, fun hexpires hactive extension huser => ?_⟩
    obtain ⟨id, hserves⟩ := hregister hexpires hactive extension huser
    exact h.kept hserves (settled_of hfree trivial)
  | transportClosed | sweep => trivial

theorem Keeps.not_serves (h : s.Keeps srv P)
    (hholder : s.holder = some (.rechecking pending offline .unregistered)) (hloc : loc ∈ offline)
    (huser : getUser loc = some extension) (id : String) :
    ¬ s.locator.Serves s.now extension id := by
  intro hserves
  obtain ⟨hnamed, honly⟩ := (h.holder _ hholder).2 loc hloc
  obtain ⟨username, husername⟩ := isSome_iff_exists.mp hnamed
  have howner : s.locator.ownerOf loc =
      some (s.locator.getIdentifier username loc.registeredRealm) := by
    rw [ownerOf, husername, map_some]
  have hid := honly extension _ id huser howner hserves
  have hactive : s.locator.Active s.now id := by
    have hserved := hserves
    obtain ⟨loc', hholds, _⟩ := hserved
    exact hserves.active (h.filed id loc' hholds).1
  exact (h.consistent.fits _ hholder).2 loc hloc _ howner (hid ▸ hactive)

theorem Keeps.publish (h : s.Keeps srv P) (hholder : s.holder = some (.publishing event))
    (hserves : s.locator.Serves s.now extension id) : event.after P extension := by
  have hup := h.consistent.fits _ hholder
  have hpromised := h.promised extension id hserves
  rw [hholder] at hpromised
  cases event with
  | registered loc =>
    obtain hkept | ⟨_, ⟨⟩, huser⟩ := hpromised
    · exact .inr hkept
    · exact .inl huser
  | refreshed loc =>
    obtain hkept | ⟨_, hloc, -⟩ := hpromised
    · exact hkept
    · cases hloc
  | unregistered | offline => cases hup

theorem Keeps.report (h : s.Keeps srv P)
    (hholder : s.holder = some (.rechecking pending offline removal))
    (hevent : removal.event offline = some event) (hserves : s.locator.Serves s.now extension id) :
    event.after P extension := by
  have hkept := h.kept hserves (settled_of hholder trivial)
  cases offline with
  | nil => cases removal <;> cases hevent
  | cons loc locs =>
    cases removal with
    | unregistered =>
      cases hevent
      refine ⟨fun huser => ?_, hkept⟩
      exact h.not_serves hholder mem_cons_self huser id hserves
    | offline reason =>
      cases hevent
      exact hkept

theorem HolderKeeps.recheck (h : s.HolderKeeps srv P (.rechecking pending offline removal))
    (key : String × Option String)
    (hfound : ∀ loc ∈ found, ∃ locs, pending.lookup key = some locs ∧ loc ∈ locs ∧
      loc.registeredUsername.isSome = true) :
    s.HolderKeeps srv P (.rechecking (pending.erase key) (offline ++ found) removal) := by
  cases removal with
  | unregistered =>
    obtain ⟨hpending, hoffline⟩ := h
    constructor
    · intro key' locs hlocs
      rw [Table.lookup_erase_eq] at hlocs
      split at hlocs
      · cases hlocs
      · exact hpending key' locs hlocs
    · intro loc hloc
      obtain hold | hnew := mem_append.mp hloc
      · exact hoffline loc hold
      · obtain ⟨locs, hlocs, hloc, hnamed⟩ := hfound loc hnew
        exact ⟨hnamed, hpending key locs hlocs loc hloc⟩
  | offline reason => trivial

theorem Keeps.hold (h : s.Keeps srv P) {holder : LockHolder}
    (hconsistent : ({ s with holder } : LocatorSystem).Consistent)
    (hsettled : s.Settled) (hholder : s.HolderKeeps srv P holder) :
    KeepsOn srv P s { s with holder } := by
  refine .silent rfl ⟨hconsistent, h.filed, h.headers, ?_, ?_⟩
  · rintro _ ⟨⟩
    exact hholder
  · exact fun extension id hserves => .inl (h.kept hserves hsettled)

theorem Keeps.release (h : s.Keeps srv P) (published : List LocatorEvent)
    (hconsistent : LocatorSystem.Consistent
      { s with events := s.events ++ published, holder := none })
    (hheaders : ∀ event ∈ published, event.Headerless)
    (hserves : ∀ extension id, s.locator.Serves s.now extension id →
      promise published P extension) :
    KeepsOn srv P s { s with events := s.events ++ published, holder := none } := by
  refine ⟨published, rfl, hconsistent, h.filed, fun event hevent => ?_, fun _ => nofun, ?_⟩
  · exact (mem_append.mp hevent).elim (h.headers event) (hheaders event)
  · exact fun extension id hlive => .inl (hserves extension id hlive)

theorem Step.keeps (hstep : s.Step srv a s')
    (hpermits : ∀ task, a = .acquire task → s.Permits srv task) (h : s.Keeps srv P) :
    KeepsOn srv P s s' := by
  have hconsistent := hstep.consistent h.consistent
  cases hstep with
  | @pass now hle =>
    refine .silent rfl ⟨hconsistent, h.filed, h.headers, ?_, ?_⟩
    · exact fun holder hholder => (h.holder holder hholder).later hle fun _ => id
    · exact fun extension id hserves => h.promised extension id (hserves.earlier hle)
  | @acquire task hfree =>
    exact h.hold hconsistent (settled_of hfree trivial) (h.acquire hfree (hpermits task rfl))
  | @unregister user aor hholder =>
    refine h.removing hconsistent (settled_of hholder trivial)
      (unregister_realmChecker _ _ _) ?_ ?_ ?_
    · exact h.filed.of_holds fun _ _ => unregister_holds
    · exact fun _ _ => .of_holds fun _ _ => unregister_holds
    · intro _ loc hloc
      rw [mem_singleton.mp hloc]
      exact h.holder _ hholder
  | @check c hholder isRefresh hrefresh =>
    obtain ⟨hplain, hremove, hregister⟩ := h.holder _ hholder
    refine h.hold hconsistent (settled_of hholder trivial) ⟨hplain, hremove, ?_⟩
    exact fun hexpires hrefreshed => hregister hexpires (hrefresh hrefreshed)
  | close hholder | sweep hholder =>
    refine h.removing hconsistent (settled_of hholder trivial)
      dropBindings_realmChecker ?_ ?_ nofun
    · exact h.filed.of_holds fun _ _ => dropBindings_holds
    · exact fun _ _ => .of_holds fun _ _ => dropBindings_holds
  | @remove c isRefresh hholder hexpires =>
    obtain ⟨hplain, hremove, -⟩ := h.holder _ hholder
    refine h.removing hconsistent (settled_of hholder trivial)
      (register_realmChecker _ _ _ _ _ _) (h.filed.register hplain.1) ?_ ?_
    · intro extension id hserves
      obtain hbefore | ⟨hlifetime, -⟩ := serves_of_register hserves
      · exact hbefore
      · exact absurd hexpires hlifetime
    · intro _ loc hloc
      rw [mem_singleton.mp hloc]
      exact hremove hexpires
  | @register c isRefresh hholder hexpires =>
    obtain ⟨hplain, -, hregister⟩ := h.holder _ hholder
    refine h.announcing hconsistent (settled_of hholder trivial)
      (h.filed.register hplain.1) (hplain.headerless isRefresh) ?_ ?_
    · intro loc hloc extension huser
      cases isRefresh with
      | false => cases hloc
      | true =>
        cases hloc
        exact hregister hexpires rfl extension huser
    · intro extension id hserves
      obtain hbefore | ⟨-, huser⟩ := serves_of_register hserves
      · exact .inl hbefore
      · cases isRefresh with
        | false => exact .inr (.inr ⟨_, rfl, huser⟩)
        | true => exact .inr (.inl (hregister hexpires rfl extension huser))
  | @publish event hholder =>
    refine h.release [event] hconsistent ?_ fun extension id hserves => h.publish hholder hserves
    exact fun event' hevent' => mem_singleton.mp hevent' ▸ (h.holder _ hholder).1
  | @report pending offline removal hholder =>
    refine h.release _ hconsistent (fun event hevent hup => ?_) fun extension id hserves => ?_
    · rw [(Removal.event_spec (mem_toList.mp hevent)).1] at hup
      cases hup
    · cases hevent : removal.event offline with
      | none => exact h.kept hserves (settled_of hholder trivial)
      | some event => exact h.report hholder hevent hserves
  | @keep username realm pending offline removal hholder =>
    refine h.hold hconsistent (settled_of hholder trivial) ?_
    have hkeeps := (h.holder _ hholder).recheck (username, realm)
      fun loc (hloc : loc ∈ []) => absurd hloc not_mem_nil
    rw [append_nil] at hkeeps
    exact hkeeps
  | @drop username realm pending offline locs removal hholder hlocs hgone =>
    refine h.hold hconsistent (settled_of hholder trivial) ?_
    apply (h.holder _ hholder).recheck (username, realm)
    intro loc hloc
    have hgrouped := (h.consistent.fits _ hholder).1 username realm locs hlocs loc hloc
    exact ⟨locs, hlocs, hloc, hgrouped.1 ▸ rfl⟩

theorem Keeps.mono (h : s.Keeps srv P) (hmono : ∀ extension, P extension → Q extension) :
    s.Keeps srv Q := by
  refine ⟨h.consistent, h.filed, h.headers, ?_, ?_⟩
  · exact fun holder hholder => (h.holder holder hholder).later (Nat.le_refl _) hmono
  · exact fun extension id hserves => (h.promised extension id hserves).imp_left (hmono extension)

theorem Keeps.free (h : s.Keeps srv P) (hfree : s.holder = none)
    (hlive : ∀ extension id, s.locator.Serves s.now extension id → P extension → Q extension) :
    s.Keeps srv Q := by
  refine ⟨h.consistent, h.filed, h.headers, ?_, ?_⟩
  · intro holder hholder
    rw [hfree] at hholder
    cases hholder
  · intro extension id hserves
    exact .inl (hlive extension id hserves (h.kept hserves (settled_of hfree trivial)))

end LocatorSystem

end RustPbx.Proxy
