import RustPbx.Proxy.LocationMetadata
import RustPbx.Proxy.Registrations

/-!
The locator that keeps its bindings in a database.

A row belongs to a user and a contact, and names are compared as they are. A query for one row gets
any that matches. Rows are marked with whole seconds and stay until they are swept, and a row is not
read back as a location here.
-/

namespace RustPbx.Proxy

open Sip Call Registrations List

structure LocationRow where
  id : Nat
  aor : String
  expires : Nat
  username : String
  realm : String
  destination : String
  transport : String
  lastModified : Nat
  createdAt : Nat
  updatedAt : Nat
  supportsWebrtc : Bool
  userAgent : Option String
  instanceId : Option String
  deriving DecidableEq

/-- The address functions of the SIP stack, and how the database answers a query for one row. -/
structure DbLib extends AddrLib where
  printHostWithPort : HostWithPort → String
  one : List LocationRow → Option LocationRow
  one_mem : ∀ {rows row}, one rows = some row → row ∈ rows
  one_eq_none : ∀ {rows}, one rows = none → rows = []

def isLocationExpired (expires lastModified now : Nat) : Bool :=
  if expires = 0 then false else expires + locatorExpireGraceSecs ≤ now - lastModified

namespace LocationRow

def isExpired (now : Nat) (row : LocationRow) : Bool :=
  isLocationExpired row.expires row.lastModified now

def belongsTo (i : Identity) (row : LocationRow) : Bool :=
  row.username == i.username && row.realm == i.realm

def write (lib : AddrLib) (now : Nat) (i : Identity) (aor host transport : String)
    (location : Location) (row : LocationRow) : LocationRow :=
  { row with
    expires := location.expires
    username := i.username
    realm := i.realm
    destination := host
    aor
    transport
    lastModified := now
    updatedAt := now
    supportsWebrtc := location.supportsWebrtc
    userAgent :=
      lib.encodeLocationMetadata location.userAgent location.homeProxy location.registeredAor
    instanceId := location.instanceId }

def blank (id createdAt : Nat) : LocationRow where
  id
  aor := ""
  expires := 0
  username := ""
  realm := ""
  destination := ""
  transport := ""
  lastModified := 0
  createdAt
  updatedAt := createdAt
  supportsWebrtc := false
  userAgent := none
  instanceId := none

def moveTo (now : Nat) (host transport : String) (row : LocationRow) : LocationRow :=
  { row with destination := host, transport, updatedAt := now }

end LocationRow

structure DbLocator where
  rows : List LocationRow := []
  nextId : Nat := 1
  realmChecker : Option (String → Bool) := none

namespace DbLocator

section

variable (lib : DbLib) (l : DbLocator)

def isLocalRealm (realm : String) : Bool :=
  match l.realmChecker with
  | some checker => checker realm
  | none => Proxy.isLocalRealm realm

def normalizeIdentity (username : String) (realm : Option String) : Option Identity :=
  let username := Str.lower (Str.trim username)
  if username = "" then none
  else
    let realm := ((realm.map Str.trim).filter (· ≠ "")).map fun r =>
      if l.isLocalRealm r then "localhost" else Str.lower r
    some ⟨username, realm.getD ""⟩

def deleteWhere (p : LocationRow → Bool) : DbLocator :=
  { l with rows := l.rows.filter fun row => !p row }

def update (row : LocationRow) : DbLocator :=
  { l with rows := l.rows.map fun r => if r.id = row.id then row else r }

def insert (row : LocationRow) : DbLocator :=
  { l with rows := l.rows ++ [row], nextId := l.nextId + 1 }

/-- Give the new address to a row of the same instance that is for another contact. -/
def redirectInstance (now : Nat) (i : Identity) (aor host transport : String)
    (instanceId : Option String) : DbLocator :=
  match instanceId with
  | none => l
  | some inst =>
    match lib.one (l.rows.filter fun row =>
      row.instanceId == some inst && row.belongsTo i && row.aor != aor) with
    | none => l
    | some old =>
      -- of several rows, the one found may be expired
      if old.isExpired now then l
      else l.update (old.moveTo now host transport)

def store (now : Nat) (i : Identity) (aor host transport : String) (location : Location) :
    DbLocator :=
  match lib.one (l.rows.filter fun row => row.belongsTo i && row.aor == aor) with
  | some row => l.update (row.write lib.toAddrLib now i aor host transport location)
  | none =>
    let row := LocationRow.blank l.nextId now
    l.insert (row.write lib.toAddrLib now i aor host transport location)

def register (now : Nat) (username : String) (realm : Option String) (location : Location) :
    Except String DbLocator :=
  let aor := lib.print location.aor
  match l.normalizeIdentity username realm with
  | none => .error "Cannot register location without username"
  | some i =>
    match location.destination with
    | none => .error "Cannot register location without destination"
    | some destination =>
      let transport := (destination.transport.or location.transport).getD .udp
      let host := lib.printHostWithPort destination.addr
      if location.expires = 0 then
        .ok (l.deleteWhere fun row => row.belongsTo i && row.aor == aor)
      else
        let l := l.redirectInstance lib now i aor host transport.name location.instanceId
        .ok (l.store lib now i aor host transport.name location)

def unregister (username : String) (realm : Option String) : DbLocator :=
  match l.normalizeIdentity username realm with
  | none => l
  | some i => l.deleteWhere fun row => row.belongsTo i

def unregisterWithAddress (now : Nat) (addr : SipAddr) : DbLocator :=
  let host := lib.printHostWithPort addr.addr
  let transport := (addr.transport.map Transport.name).getD "UDP"
  let cutoff := now - MemoryLocator.unregisterGraceSecs
  l.deleteWhere fun row =>
    row.destination == host && row.transport == transport && decide (row.lastModified < cutoff)

def deleteExpiredSnapshots (now : Nat) (candidates : List LocationRow) : DbLocator :=
  let candidates := candidates.filter fun row => row.isExpired now
  l.deleteWhere fun row => candidates.any fun found =>
    row.id == found.id && row.lastModified == found.lastModified && row.expires == found.expires

def sweepExpired (now : Nat) : DbLocator :=
  let cutoff := now - locatorExpireGraceSecs
  let candidates := l.rows.filter fun row =>
    decide (0 < row.expires) && decide (row.lastModified < cutoff)
  l.deleteExpiredSnapshots now (candidates.filter fun row => row.isExpired now)

def hasActiveBindings (now : Nat) (username : String) (realm : Option String) : Bool :=
  match l.normalizeIdentity username realm with
  | none => false
  | some i => (l.rows.filter fun row => row.belongsTo i).any fun row => !row.isExpired now

end

end DbLocator

/-! ## Rows as bindings -/

variable {lib : DbLib}

def DbLib.Readable (lib : DbLib) (addr : HostWithPort) : Prop :=
  lib.parseHostWithPort (lib.printHostWithPort addr) = .ok addr

theorem DbLib.Readable.eq (h : lib.Readable addr) (h' : lib.Readable addr')
    (heq : lib.printHostWithPort addr = lib.printHostWithPort addr') :
    addr = addr' := by
  rw [Readable, heq, h'] at h
  exact (Except.ok.inj h).symm

theorem transport_eq_of_name {t' : Transport} (h : t.name = t'.name) : t = t' := by
  cases t <;> cases t' <;> first | rfl | exact absurd h (by decide)

namespace LocationRow

variable {row : LocationRow}

def identity (row : LocationRow) : Identity :=
  ⟨row.username, row.realm⟩

theorem belongsTo_iff : row.belongsTo i = true ↔ row.identity = i := by
  rw [belongsTo, Bool.and_eq_true, beq_iff_eq, beq_iff_eq, identity, Identity.mk.injEq]

structure Shows (lib : DbLib) (row : LocationRow) (b : Binding) : Prop where
  aor : row.aor = b.aor
  expires : row.expires = b.expires
  modified : row.lastModified = b.modified
  instanceId : row.instanceId = b.instanceId
  transport : row.transport = b.transport.name
  destination : row.destination = lib.printHostWithPort b.addr
  readable : lib.Readable b.addr

theorem Shows.unique (h : row.Shows lib b) (h' : row.Shows lib b') : b = b' := by
  have haddr := h.readable.eq h'.readable (h.destination.symm.trans h'.destination)
  have htransport := transport_eq_of_name (h.transport.symm.trans h'.transport)
  cases b
  cases b'
  rw [Binding.mk.injEq]
  exact ⟨h.aor.symm.trans h'.aor, h.expires.symm.trans h'.expires,
    h.modified.symm.trans h'.modified, h.instanceId.symm.trans h'.instanceId, htransport, haddr⟩

theorem Shows.live (h : row.Shows lib b) (hexpires : row.expires ≠ 0) :
    row.isExpired now = false ↔ b.Live now := by
  rw [h.expires] at hexpires
  rw [isExpired, isLocationExpired, h.expires, h.modified, if_neg hexpires, decide_eq_false_iff_not,
    Nat.not_le]
  exact (and_iff_right hexpires).symm

def SharesPhone (i : Identity) (aor inst : String) (row : LocationRow) : Prop :=
  row.identity = i ∧ row.instanceId = some inst ∧ row.aor ≠ aor

theorem Shows.sharesPhone {new : Binding} (h : row.Shows lib b)
    (hinst : new.instanceId = some inst) :
    row.SharesPhone i new.aor inst ↔ row.identity = i ∧ new.SharesPhone b := by
  rw [SharesPhone, Binding.SharesPhone, h.instanceId, h.aor, hinst, Option.isSome_some,
    eq_self_iff_true, true_and]

end LocationRow

namespace DbLocator

variable {l : DbLocator} {i : Identity} {row : LocationRow}

def filed (lib : DbLib) (l : DbLocator) : Registrations := fun i b =>
  ∃ row ∈ l.rows, row.identity = i ∧ row.Shows lib b

/-- Numbers and contacts belong to one row each, and every row stands for a binding. -/
structure Sound (lib : DbLib) (l : DbLocator) : Prop where
  ids : ∀ row ∈ l.rows, ∀ row' ∈ l.rows, row.id = row'.id → row = row'
  below : ∀ row ∈ l.rows, row.id < l.nextId
  contacts : ∀ row ∈ l.rows, ∀ row' ∈ l.rows, row.identity = row'.identity → row.aor = row'.aor →
    row = row'
  shown : ∀ row ∈ l.rows, row.expires ≠ 0 ∧ ∃ b, row.Shows lib b

theorem sound_empty (lib : DbLib) (checker : Option (String → Bool)) :
    ({ realmChecker := checker } : DbLocator).Sound lib :=
  ⟨nofun, nofun, nofun, nofun⟩

theorem mem_deleteWhere : row ∈ (l.deleteWhere p).rows ↔ row ∈ l.rows ∧ p row = false := by
  rw [deleteWhere, mem_filter, Bool.not_eq_true']

theorem Sound.deleteWhere (h : l.Sound lib) (p : LocationRow → Bool) :
    (l.deleteWhere p).Sound lib := by
  have hmem : ∀ row ∈ (l.deleteWhere p).rows, row ∈ l.rows :=
    fun row hrow => (mem_deleteWhere.mp hrow).1
  constructor
  · exact fun row hrow row' hrow' => h.ids row (hmem row hrow) row' (hmem row' hrow')
  · exact fun row hrow => h.below row (hmem row hrow)
  · exact fun row hrow row' hrow' => h.contacts row (hmem row hrow) row' (hmem row' hrow')
  · exact fun row hrow => h.shown row (hmem row hrow)

theorem filed_deleteWhere {Q : Identity → Binding → Prop}
    (hp : ∀ row ∈ l.rows, ∀ b, row.Shows lib b → (p row = true ↔ Q row.identity b)) :
    (l.deleteWhere p).filed lib i b ↔ l.filed lib i b ∧ ¬ Q i b := by
  constructor
  · rintro ⟨row, hrow, rfl, hshows⟩
    obtain ⟨hmem, hkept⟩ := mem_deleteWhere.mp hrow
    refine ⟨⟨row, hmem, rfl, hshows⟩, fun hQ => ?_⟩
    rw [(hp row hmem b hshows).mpr hQ] at hkept
    cases hkept
  · rintro ⟨⟨row, hmem, rfl, hshows⟩, hQ⟩
    refine ⟨row, mem_deleteWhere.mpr ⟨hmem, ?_⟩, rfl, hshows⟩
    rw [Bool.eq_false_iff]
    exact fun hgone => hQ ((hp row hmem b hshows).mp hgone)

theorem mem_update (h : l.Sound lib) (hold : old ∈ l.rows) (hid : w.id = old.id) :
    row ∈ (l.update w).rows ↔ row = w ∨ row ∈ l.rows ∧ row ≠ old := by
  rw [update, mem_map]
  constructor
  · rintro ⟨r, hr, rfl⟩
    split
    · exact .inl rfl
    next hne =>
      refine .inr ⟨hr, ?_⟩
      rintro rfl
      exact hne hid.symm
  · rintro (rfl | ⟨hrow, hne⟩)
    · exact ⟨old, hold, if_pos hid.symm⟩
    · refine ⟨row, hrow, if_neg fun heq => hne ?_⟩
      exact h.ids row hrow old hold (heq.trans hid)

theorem mem_insert : row ∈ (l.insert w).rows ↔ row = w ∨ row ∈ l.rows := by
  rw [insert, mem_append, mem_singleton, or_comm]

theorem Sound.write {l' : DbLocator} (h : l.Sound lib) (hrows : ∀ row ∈ l'.rows, row = w ∨
      row ∈ l.rows ∧ row.id ≠ w.id ∧ (row.identity = w.identity → row.aor ≠ w.aor))
    (hnext : l.nextId ≤ l'.nextId) (hbelow : w.id < l'.nextId)
    (hshown : w.expires ≠ 0 ∧ ∃ b, w.Shows lib b) : l'.Sound lib := by
  constructor
  · intro row hrow row' hrow' heq
    obtain rfl | ⟨hmem, hid, -⟩ := hrows row hrow
    · obtain rfl | ⟨-, hid', -⟩ := hrows row' hrow'
      · rfl
      · exact absurd heq.symm hid'
    · obtain rfl | ⟨hmem', -, -⟩ := hrows row' hrow'
      · exact absurd heq hid
      · exact h.ids row hmem row' hmem' heq
  · intro row hrow
    obtain rfl | ⟨hmem, -, -⟩ := hrows row hrow
    · exact hbelow
    · exact Nat.lt_of_lt_of_le (h.below row hmem) hnext
  · intro row hrow row' hrow' hidentity haor
    obtain rfl | ⟨hmem, -, hcontact⟩ := hrows row hrow
    · obtain rfl | ⟨-, -, hcontact'⟩ := hrows row' hrow'
      · rfl
      · exact absurd haor.symm (hcontact' hidentity.symm)
    · obtain rfl | ⟨hmem', -, -⟩ := hrows row' hrow'
      · exact absurd haor (hcontact hidentity)
      · exact h.contacts row hmem row' hmem' hidentity haor
  · intro row hrow
    obtain rfl | ⟨hmem, -, -⟩ := hrows row hrow
    · exact hshown
    · exact h.shown row hmem

theorem Sound.update (h : l.Sound lib) (hold : old ∈ l.rows) (hid : w.id = old.id)
    (hcontact : ∀ row ∈ l.rows, row ≠ old → row.identity = w.identity → row.aor ≠ w.aor)
    (hshown : w.expires ≠ 0 ∧ ∃ b, w.Shows lib b) : (l.update w).Sound lib := by
  refine h.write (fun row hrow => ?_) (Nat.le_refl _) (hid ▸ h.below old hold) hshown
  refine ((mem_update h hold hid).mp hrow).imp_right fun ⟨hmem, hne⟩ => ?_
  refine ⟨hmem, fun heq => hne ?_, hcontact row hmem hne⟩
  exact h.ids row hmem old hold (heq.trans hid)

theorem Sound.insert (h : l.Sound lib) (hid : w.id = l.nextId)
    (hcontact : ∀ row ∈ l.rows, row.identity = w.identity → row.aor ≠ w.aor)
    (hshown : w.expires ≠ 0 ∧ ∃ b, w.Shows lib b) : (l.insert w).Sound lib := by
  have hbelow : w.id < l.nextId + 1 := hid ▸ Nat.lt_succ_self _
  refine h.write (fun row hrow => ?_) (Nat.le_succ _) hbelow hshown
  refine (mem_insert.mp hrow).imp_right fun hmem => ?_
  exact ⟨hmem, hid ▸ (h.below row hmem).ne, hcontact row hmem⟩

/-! ### Registering -/

/-- A registration in the words of the database. -/
structure Writes (lib : DbLib) (location : Location) (host transport : String) (new : Binding) :
    Prop where
  aor : lib.print location.aor = new.aor
  expires : location.expires = new.expires
  instanceId : location.instanceId = new.instanceId
  transport : transport = new.transport.name
  host : host = lib.printHostWithPort new.addr
  readable : lib.Readable new.addr

variable {Known : Set Identity} {host transport : String}

theorem Writes.moveTo (hnew : Writes lib location host transport new) (now : Nat)
    (hshows : row.Shows lib b) (hphone : new.SharesPhone b) :
    (row.moveTo now host transport).Shows lib (new.redirect b) := by
  rw [Binding.redirect, if_pos hphone]
  exact ⟨hshows.aor, hshows.expires, hshows.modified, hshows.instanceId, hnew.transport, hnew.host,
    hnew.readable⟩

/-- If a row of the phone has not expired, the phone has no other. -/
def OneInstance (now : Nat) (i : Identity) (aor : String) (instanceId : Option String)
    (l : DbLocator) : Prop :=
  ∀ inst, instanceId = some inst → ∀ row ∈ l.rows, row.SharesPhone i aor inst →
    row.isExpired now = false → ∀ row' ∈ l.rows, row'.SharesPhone i aor inst → row' = row

theorem mem_candidates : row ∈ l.rows.filter (fun row =>
      row.instanceId == some inst && row.belongsTo i && row.aor != aor) ↔
      row ∈ l.rows ∧ row.SharesPhone i aor inst := by
  rw [mem_filter, Bool.and_eq_true, Bool.and_eq_true, beq_iff_eq, bne_iff_ne,
    LocationRow.belongsTo_iff, LocationRow.SharesPhone]
  tauto

theorem redirectInstance_cases (hone : l.OneInstance now i aor instanceId) :
    (l.redirectInstance lib now i aor host transport instanceId = l ∧
      ∀ inst, instanceId = some inst → ∀ row ∈ l.rows, row.SharesPhone i aor inst →
        row.isExpired now = true) ∨
    ∃ inst old, instanceId = some inst ∧ old ∈ l.rows ∧ old.SharesPhone i aor inst ∧
      (∀ row ∈ l.rows, row.SharesPhone i aor inst → row = old) ∧
      l.redirectInstance lib now i aor host transport instanceId =
        l.update (old.moveTo now host transport) := by
  cases instanceId with
  | none => exact .inl ⟨rfl, nofun⟩
  | some inst =>
    rw [redirectInstance]
    split
    next hnone =>
      refine .inl ⟨rfl, ?_⟩
      rintro _ ⟨⟩ row hrow hphone
      have hmem := mem_candidates.mpr ⟨hrow, hphone⟩
      rw [lib.one_eq_none hnone] at hmem
      exact absurd hmem not_mem_nil
    next old hold =>
      obtain ⟨hmem, hphone⟩ := mem_candidates.mp (lib.one_mem hold)
      split
      next hexpired =>
        refine .inl ⟨rfl, ?_⟩
        rintro _ ⟨⟩ row hrow hphone'
        -- a live one would be the one found
        by_contra hlive
        rw [Bool.not_eq_true] at hlive
        rw [hone inst rfl row hrow hphone' hlive old hmem hphone, hlive] at hexpired
        cases hexpired
      next hlive =>
        rw [Bool.not_eq_true] at hlive
        exact .inr ⟨inst, old, rfl, hmem, hphone, hone inst rfl old hmem hphone hlive, rfl⟩

section

variable (h : l.Sound lib)
include h

theorem filed_redirectInstance (hnew : Writes lib location host transport new)
    (hone : l.OneInstance now i new.aor new.instanceId) : SameLive Known now
      ((l.redirectInstance lib now i new.aor host transport new.instanceId).filed lib)
      ((l.filed lib).redirect i new) := by
  obtain ⟨hsame, hexpired⟩ | ⟨inst, old, hinst, hold, hphone, honly, hupdate⟩ :=
    redirectInstance_cases hone
  · rw [hsame]
    apply sameLive_redirect
    rintro b ⟨row, hrow, hi, hshows⟩ hlive hphone
    obtain ⟨inst, hinst⟩ := Option.isSome_iff_exists.mp hphone.1
    have hexpired := hexpired inst hinst row hrow ((hshows.sharesPhone hinst).mpr ⟨hi, hphone⟩)
    rw [(hshows.live (h.shown row hrow).1).mpr hlive] at hexpired
    cases hexpired
  · rw [hupdate]
    intro i' _ b _
    -- the phone has one row for another contact, which is written anew
    have hother : ∀ row ∈ l.rows, ∀ b, row.identity = i → row.Shows lib b → row ≠ old →
        ¬ new.SharesPhone b := fun row hrow b hi hshows hne hphone =>
      hne (honly row hrow ((hshows.sharesPhone hinst).mpr ⟨hi, hphone⟩))
    have hrows : ∀ {row}, row ∈ (l.update (old.moveTo now host transport)).rows ↔
        row = old.moveTo now host transport ∨ row ∈ l.rows ∧ row ≠ old := mem_update h hold rfl
    rw [redirect]
    constructor
    · rintro ⟨row, hrow, rfl, hshows⟩
      obtain rfl | ⟨hmem, hne⟩ := hrows.mp hrow
      · have hi : (old.moveTo now host transport).identity = i := hphone.1
        rw [if_pos hi]
        obtain ⟨-, b', hb'⟩ := h.shown old hold
        have hphone' := ((hb'.sharesPhone hinst).mp hphone).2
        exact ⟨b', ⟨old, hold, hphone.1, hb'⟩, hshows.unique (hnew.moveTo now hb' hphone')⟩
      · split
        next hi =>
          refine ⟨b, ⟨row, hmem, hi, hshows⟩, ?_⟩
          rw [Binding.redirect, if_neg (hother row hmem b hi hshows hne)]
        · exact ⟨row, hmem, rfl, hshows⟩
    · split
      next hi =>
        rintro ⟨b', ⟨row, hrow, hi', hshows⟩, rfl⟩
        by_cases hrow' : row = old
        · rw [hrow'] at hshows
          have hphone' := ((hshows.sharesPhone hinst).mp hphone).2
          exact ⟨_, hrows.mpr (.inl rfl), hphone.1.trans hi.symm,
            hnew.moveTo now hshows hphone'⟩
        · rw [Binding.redirect, if_neg (hother row hrow b' hi' hshows hrow')]
          exact ⟨row, hrows.mpr (.inr ⟨hrow, hrow'⟩), hi'.trans hi.symm, hshows⟩
      next hi =>
        rintro ⟨row, hrow, rfl, hshows⟩
        refine ⟨row, hrows.mpr (.inr ⟨hrow, ?_⟩), rfl, hshows⟩
        rintro rfl
        exact hi hphone.1

theorem Sound.redirectInstance (hnew : Writes lib location host transport new)
    (hone : l.OneInstance now i new.aor new.instanceId) :
    (l.redirectInstance lib now i new.aor host transport new.instanceId).Sound lib := by
  obtain ⟨hsame, -⟩ | ⟨inst, old, hinst, hold, hphone, -, hupdate⟩ :=
    redirectInstance_cases hone
  · rw [hsame]
    exact h
  · rw [hupdate]
    obtain ⟨hexpires, b, hb⟩ := h.shown old hold
    have hphone' := ((hb.sharesPhone hinst).mp hphone).2
    refine h.update hold rfl ?_ ⟨hexpires, _, hnew.moveTo now hb hphone'⟩
    exact fun row hrow hne hidentity haor => hne (h.contacts row hrow old hold hidentity haor)

/-- The row of the contact is the one that is written; all others of the user stay. -/
theorem store_spec (hnew : Writes lib location host transport new)
    (hexpires : new.expires ≠ 0) (hmodified : new.modified = now) :
    ∃ w : LocationRow, w.identity = i ∧ w.Shows lib new ∧
      (l.store lib now i new.aor host transport location).Sound lib ∧
      ∀ row, row ∈ (l.store lib now i new.aor host transport location).rows ↔
        row = w ∨ row ∈ l.rows ∧ ¬ (row.identity = i ∧ row.aor = new.aor) := by
  have hmem : ∀ row, row ∈ l.rows.filter (fun row => row.belongsTo i && row.aor == new.aor) ↔
      row ∈ l.rows ∧ row.identity = i ∧ row.aor = new.aor := by
    intro row
    rw [mem_filter, Bool.and_eq_true, beq_iff_eq, LocationRow.belongsTo_iff]
  have hshows : ∀ row : LocationRow,
      (row.write lib.toAddrLib now i new.aor host transport location).Shows lib new :=
    fun row => ⟨rfl, hnew.expires, hmodified.symm, hnew.instanceId, hnew.transport, hnew.host,
      hnew.readable⟩
  rw [← hnew.expires] at hexpires
  rw [store]
  split
  next old hold =>
    obtain ⟨hold, hi, haor⟩ := (hmem old).mp (lib.one_mem hold)
    have honly : ∀ row ∈ l.rows, row.identity = i → row.aor = new.aor → row = old :=
      fun row hrow hi' haor' =>
        h.contacts row hrow old hold (hi'.trans hi.symm) (haor'.trans haor.symm)
    refine ⟨_, rfl, hshows old, ?_, fun row => ?_⟩
    · refine h.update hold rfl ?_ ⟨hexpires, new, hshows _⟩
      exact fun row hrow hne hi' haor' => hne (honly row hrow hi' haor')
    · have hid : (old.write lib.toAddrLib now i new.aor host transport location).id = old.id := rfl
      rw [mem_update h hold hid]
      refine or_congr_right (and_congr_right fun hrow => not_congr ⟨?_, ?_⟩)
      · rintro rfl
        exact ⟨hi, haor⟩
      · exact fun ⟨hi', haor'⟩ => honly row hrow hi' haor'
  next hnone =>
    have hfree : ∀ row ∈ l.rows, ¬ (row.identity = i ∧ row.aor = new.aor) := by
      intro row hrow hcontact
      have hfound := (hmem row).mpr ⟨hrow, hcontact⟩
      rw [lib.one_eq_none hnone] at hfound
      exact absurd hfound not_mem_nil
    refine ⟨_, rfl, hshows (.blank l.nextId now), ?_, fun row => ?_⟩
    · refine h.insert rfl ?_ ⟨hexpires, new, hshows _⟩
      exact fun row hrow hi' haor' => hfree row hrow ⟨hi', haor'⟩
    · rw [mem_insert]
      exact or_congr_right (iff_self_and.mpr (hfree row))

theorem filed_store (hnew : Writes lib location host transport new)
    (hexpires : new.expires ≠ 0) (hmodified : new.modified = now) :
    (l.store lib now i new.aor host transport location).filed lib i' b ↔
      (l.filed lib).put i new i' b := by
  obtain ⟨w, hw, hshown, -, hrows⟩ := store_spec h hnew hexpires hmodified
  constructor
  · rintro ⟨row, hrow, rfl, hshows⟩
    obtain rfl | ⟨hmem, hother⟩ := (hrows row).mp hrow
    · exact .inl ⟨hw, hshows.unique hshown⟩
    · rw [hshows.aor] at hother
      exact .inr ⟨⟨row, hmem, rfl, hshows⟩, hother⟩
  · rintro (⟨rfl, rfl⟩ | ⟨⟨row, hmem, rfl, hshows⟩, hother⟩)
    · exact ⟨w, (hrows w).mpr (.inl rfl), hw, hshown⟩
    · rw [← hshows.aor] at hother
      exact ⟨row, (hrows row).mpr (.inr ⟨hmem, hother⟩), rfl, hshows⟩

/-- **A registration in the database.** -/
theorem Sound.register_refines (Known : Set Identity)
    (hi : l.normalizeIdentity username realm = some i)
    (hdestination : location.destination = some ⟨some t, addr⟩) (hreadable : lib.Readable addr)
    (hexpires : location.expires ≠ 0)
    (hone : l.OneInstance now i (lib.print location.aor) location.instanceId) :
    ∃ l', l.register lib now username realm location = .ok l' ∧ l'.Sound lib ∧
      SameLive Known now (l'.filed lib)
        ((l.filed lib).register i (.ofLocation lib.toUriLib now location t addr)) := by
  have hnew : Writes lib location (lib.printHostWithPort addr) t.name
      (.ofLocation lib.toUriLib now location t addr) := ⟨rfl, rfl, rfl, rfl, rfl, hreadable⟩
  have hsound := h.redirectInstance hnew hone
  obtain ⟨-, -, -, hstored, -⟩ := store_spec hsound hnew hexpires rfl
  refine ⟨_, ?_, hstored, ?_⟩
  · rw [register, hi]
    rw [hdestination]
    dsimp only
    rw [if_neg hexpires]
    rfl
  · refine SameLive.trans (fun i' _ b _ => filed_store hsound hnew hexpires rfl) ?_
    exact (filed_redirectInstance h hnew hone).put i _

theorem Sound.register_refines_remove (Known : Set Identity) (now : Nat)
    (hi : l.normalizeIdentity username realm = some i)
    (hdestination : location.destination.isSome = true) (hexpires : location.expires = 0) :
    ∃ l', l.register lib now username realm location = .ok l' ∧ l'.Sound lib ∧
      SameLive Known now (l'.filed lib)
        ((l.filed lib).remove i (lib.print location.aor)) := by
  obtain ⟨destination, hdestination⟩ := Option.isSome_iff_exists.mp hdestination
  refine ⟨l.deleteWhere fun row => row.belongsTo i && row.aor == lib.print location.aor, ?_,
    h.deleteWhere _, fun i' _ b _ => ?_⟩
  · rw [register, hi]
    rw [hdestination]
    dsimp only
    rw [if_pos hexpires]
  · apply filed_deleteWhere
    intro row _ b hshows
    rw [Bool.and_eq_true, beq_iff_eq, LocationRow.belongsTo_iff, hshows.aor]

end

theorem unregister_refines (hi : l.normalizeIdentity username realm = some i) :
    SameLive Known now ((l.unregister username realm).filed lib) ((l.filed lib).unregister i) := by
  intro i' _ b _
  rw [unregister, hi]
  apply filed_deleteWhere
  exact fun row _ _ _ => LocationRow.belongsTo_iff

theorem unregisterWithAddress_refines (hreadable : lib.Readable addr) :
    SameLive Known now ((l.unregisterWithAddress lib now ⟨some t, addr⟩).filed lib)
      ((l.filed lib).close now t addr) := by
  intro i _ b _
  apply filed_deleteWhere
  intro row _ b hshows
  rw [Bool.and_eq_true, Bool.and_eq_true, beq_iff_eq, beq_iff_eq, decide_eq_true_iff,
    hshows.destination, hshows.transport, hshows.modified, and_comm (a := _ = _)]
  refine and_congr_left fun _ => and_congr ⟨transport_eq_of_name, congrArg _⟩ ⟨?_, congrArg _⟩
  exact hshows.readable.eq hreadable

theorem mem_sweepExpired : row ∈ (l.sweepExpired now).rows ↔
    row ∈ l.rows ∧ row.isExpired now = false := by
  rw [sweepExpired, deleteExpiredSnapshots, mem_deleteWhere]
  refine and_congr_right fun hrow => ?_
  rw [Bool.eq_false_iff, Bool.eq_false_iff]
  refine not_congr ⟨fun hfound => ?_, fun hexpired => ?_⟩
  · obtain ⟨found, hmem, hsame⟩ := any_eq_true.mp hfound
    rw [Bool.and_eq_true, Bool.and_eq_true, beq_iff_eq, beq_iff_eq, beq_iff_eq] at hsame
    rw [LocationRow.isExpired, hsame.1.2, hsame.2]
    exact (mem_filter.mp hmem).2
  · -- the first filter lets every expired row pass
    have hold : 0 < row.expires ∧ row.lastModified < now - locatorExpireGraceSecs := by
      rw [LocationRow.isExpired, isLocationExpired] at hexpired
      split at hexpired
      · cases hexpired
      next hne =>
        have := of_decide_eq_true hexpired
        omega
    refine any_eq_true.mpr ⟨row, ?_, by simp⟩
    rw [mem_filter, mem_filter, mem_filter, Bool.and_eq_true, decide_eq_true_iff,
      decide_eq_true_iff]
    exact ⟨⟨⟨hrow, hold⟩, hexpired⟩, hexpired⟩

theorem sweepExpired_refines (h : l.Sound lib) :
    SameLive Known now ((l.sweepExpired now).filed lib) (l.filed lib) := by
  intro i _ b hlive
  refine exists_congr fun row => ?_
  rw [mem_sweepExpired]
  constructor
  · exact fun ⟨⟨hrow, _⟩, hrest⟩ => ⟨hrow, hrest⟩
  · exact fun ⟨hrow, hi, hshows⟩ =>
      ⟨⟨hrow, (hshows.live (h.shown row hrow).1).mpr hlive⟩, hi, hshows⟩

theorem hasActiveBindings_iff (h : l.Sound lib) (hi : l.normalizeIdentity username realm = some i) :
    l.hasActiveBindings now username realm = true ↔
      ∃ b : Binding, b.Live now ∧ l.filed lib i b := by
  rw [hasActiveBindings, hi]
  dsimp only
  rw [any_filter, any_eq_true]
  constructor
  · rintro ⟨row, hrow, hlive⟩
    rw [Bool.and_eq_true, LocationRow.belongsTo_iff, Bool.not_eq_true'] at hlive
    obtain ⟨hexpires, b, hshows⟩ := h.shown row hrow
    exact ⟨b, (hshows.live hexpires).mp hlive.2, row, hrow, hlive.1, hshows⟩
  · rintro ⟨b, hlive, row, hrow, rfl, hshows⟩
    refine ⟨row, hrow, ?_⟩
    rw [Bool.and_eq_true, LocationRow.belongsTo_iff, Bool.not_eq_true']
    exact ⟨rfl, (hshows.live (h.shown row hrow).1).mpr hlive⟩

theorem redirectInstance_realmChecker :
    (l.redirectInstance lib now i aor host transport instanceId).realmChecker = l.realmChecker := by
  cases instanceId with
  | none => rfl
  | some inst =>
    rw [redirectInstance]
    split
    · rfl
    · split <;> rfl

theorem store_realmChecker :
    (l.store lib now i aor host transport location).realmChecker = l.realmChecker := by
  rw [store]
  split <;> rfl

theorem register_realmChecker (h : l.register lib now username realm location = .ok l') :
    l'.realmChecker = l.realmChecker := by
  rw [register] at h
  split at h
  · cases h
  · split at h
    · cases h
    · split at h
      · cases h
        rfl
      · cases h
        rw [store_realmChecker, redirectInstance_realmChecker]

theorem unregister_realmChecker (l : DbLocator) (username : String) (realm : Option String) :
    (l.unregister username realm).realmChecker = l.realmChecker := by
  rw [unregister]
  split <;> rfl

end DbLocator

end RustPbx.Proxy
