import RustPbx.Proxy.LocatorSystem
import RustPbx.Proxy.Registrations

/-!
The in-memory locator, as bindings of users.

Bindings are filed under a key that the instance or the GRUU of the phone goes into. A registration
replaces the binding of its contact, as it should, only where the key and the contact of the live
bindings of the user go together (`Tells`).
-/

namespace RustPbx.Proxy

open Sip Call Registrations Table Option List

namespace MemoryLocator

variable {l l' : MemoryLocator} {id : String}

/-! ## What is filed under a key -/

def binding? (l : MemoryLocator) (id key : String) : Option Location :=
  (l.locations.lookup id).bind (·.lookup key)

theorem holds_iff : l.Holds id loc ↔ ∃ key, l.binding? id key = some loc := by
  constructor
  · rintro ⟨bindings, key, hrow, hbinding⟩
    exact ⟨key, bind_eq_some_iff.mpr ⟨bindings, hrow.lookup, hbinding.lookup⟩⟩
  · rintro ⟨key, hloc⟩
    obtain ⟨bindings, hrow, hbinding⟩ := bind_eq_some_iff.mp hloc
    exact ⟨bindings, key, row_of_lookup hrow, row_of_lookup hbinding⟩

theorem binding?_updateBindings : (l.updateBindings id f).binding? id' key =
      if id' = id then (l.locations.lookup id).bind fun bindings => (f bindings).lookup key
      else l.binding? id' key := by
  rw [updateBindings, binding?]
  cases hrow : l.locations.lookup id with
  | none =>
    dsimp only
    split
    next heq =>
      rw [heq, hrow]
      rfl
    · rfl
  | some bindings =>
    dsimp only
    split
    next hempty =>
      have hnone : (f bindings).lookup key = none := by
        rw [AList.lookup, isEmpty_iff.mp hempty]
        rfl
      rw [lookup_erase_eq]
      split
      · exact hnone.symm
      · rfl
    · rw [lookup_insert_eq]
      split
      · rfl
      · rfl

theorem binding?_retain {p : Location → Bool} :
    (l.updateBindings id (·.retain fun _ loc => p loc)).binding? id' key = some loc ↔
      l.binding? id' key = some loc ∧ (id' = id → p loc = true) := by
  rw [binding?_updateBindings]
  split
  next heq =>
    rw [binding?, heq]
    cases l.locations.lookup id with
    | none => simp
    | some bindings => simp [lookup_retain]
  next hne => simp [hne]

theorem binding?_erase : (l.updateBindings id (·.erase key)).binding? id' key' = some loc ↔
      l.binding? id' key' = some loc ∧ ¬ (id' = id ∧ key' = key) := by
  rw [binding?_updateBindings]
  split
  next heq =>
    rw [binding?, heq]
    cases l.locations.lookup id with
    | none => simp
    | some bindings =>
      rw [bind_some, lookup_erase_eq]
      by_cases hkey : key' = key
      · simp [hkey]
      · simp [hkey]
  next hne => simp [hne]

theorem binding?_dropBindings : (l.dropBindings p).binding? id key = some loc ↔
      l.binding? id key = some loc ∧ p loc = false := by
  -- the bindings of every identifier that was passed are filtered
  have hrows : ∀ (rows : List (Sigma fun _ : String => Table String Location))
      (l' : MemoryLocator), (rows.foldl (fun l row =>
        l.updateBindings row.1 (·.retain fun _ loc => !p loc)) l').binding? id key = some loc ↔
      l'.binding? id key = some loc ∧ (id ∈ rows.keys → p loc = false) := by
    intro rows
    induction rows with
    | nil => simp
    | cons row rows ih =>
      intro l'
      rw [foldl_cons, ih, binding?_retain, Bool.not_eq_true', keys_cons, mem_cons,
        or_imp, and_assoc]
  rw [dropBindings, hrows]
  refine and_congr_right fun hbinding => ?_
  -- and every identifier with a binding is passed
  obtain ⟨bindings, hrow, -⟩ := bind_eq_some_iff.mp hbinding
  have hid := mem_keys_of_mem (row_of_lookup hrow)
  exact forall_prop_of_true hid

theorem binding?_file : (l.file id key location).binding? id' key' =
      if id' = id ∧ key' = key then some location else l.binding? id' key' := by
  rw [file, binding?, lookup_insert_eq]
  by_cases hid : id' = id
  · rw [if_pos hid, bind_some, lookup_insert_eq, binding?, hid]
    by_cases hkey : key' = key
    · simp [hkey]
    · simp only [hkey, and_false]
      cases l.locations.lookup id with
      | none | some => rfl
  · simp [hid, binding?]

theorem binding?_unregister (h : l.getIdentifier username realm = id) (hne : id ≠ "") :
    (l.unregister username realm).binding? id' key = some loc ↔
      l.binding? id' key = some loc ∧ id' ≠ id := by
  rw [unregister]
  simp only [h, if_neg hne]
  rw [binding?, binding?, lookup_erase_eq]
  by_cases hid : id' = id
  · simp [hid]
  · simp [hid]

structure Shows (uris : UriLib) (loc : Location) (b : Binding) : Prop where
  aor : uris.print loc.aor = b.aor
  expires : loc.expires = b.expires
  modified : loc.lastModified = some (b.modified * 10 ^ 9)
  instanceId : loc.instanceId = b.instanceId
  destination : loc.destination = some ⟨some b.transport, b.addr⟩

variable {i : Identity} {Known : Set Identity}

theorem Shows.unique (h : Shows uris loc b) (h' : Shows uris loc b') : b = b' := by
  have hmodified :=
    Nat.eq_of_mul_eq_mul_right (by decide) (some.inj (h.modified.symm.trans h'.modified))
  have hdestination := some.inj (h.destination.symm.trans h'.destination)
  rw [SipAddr.mk.injEq, some.injEq] at hdestination
  cases b
  cases b'
  rw [Binding.mk.injEq]
  exact ⟨h.aor.symm.trans h'.aor, h.expires.symm.trans h'.expires, hmodified,
    h.instanceId.symm.trans h'.instanceId, hdestination⟩

theorem Shows.live (h : Shows uris loc b) :
    loc.isExpiredAt (now * 10 ^ 9) = false ↔ b.Live now := by
  rw [Location.isExpiredAt, h.modified, any_some, h.expires, ← Nat.sub_mul,
    Bool.or_eq_false_iff, beq_eq_false_iff_ne, decide_eq_false_iff_not, Nat.not_le,
    Nat.mul_lt_mul_right (by decide)]
  exact Iff.rfl

def filed (uris : UriLib) (l : MemoryLocator) : Registrations := fun i b =>
  ∃ key loc, l.binding? i.identifier key = some loc ∧ Shows uris loc b

/-- Locations are filed under their own keys, and every one stands for a binding. -/
def Sound (uris : UriLib) (l : MemoryLocator) : Prop :=
  ∀ id key loc, l.binding? id key = some loc → loc.bindingKey uris = key ∧ ∃ b, Shows uris loc b

theorem sound_empty (uris : UriLib) (checker : Option (String → Bool)) :
    ({ realmChecker := checker } : MemoryLocator).Sound uris := by
  intro id key loc hloc
  cases hloc

theorem filed_of_drop {P : String → String → Location → Prop}
    (hl : ∀ id key loc, l'.binding? id key = some loc ↔ l.binding? id key = some loc ∧ P id key loc)
    (hP : ∀ key loc, l.binding? i.identifier key = some loc → Shows uris loc b →
      (P i.identifier key loc ↔ Q)) :
    l'.filed uris i b ↔ l.filed uris i b ∧ Q := by
  constructor
  · rintro ⟨key, loc, hloc, hshows⟩
    obtain ⟨hloc, hkept⟩ := (hl _ _ _).mp hloc
    exact ⟨⟨key, loc, hloc, hshows⟩, (hP key loc hloc hshows).mp hkept⟩
  · rintro ⟨⟨key, loc, hloc, hshows⟩, hQ⟩
    exact ⟨key, loc, (hl _ _ _).mpr ⟨hloc, (hP key loc hloc hshows).mpr hQ⟩, hshows⟩

theorem Sound.of_drop (h : l.Sound uris) {P : String → String → Location → Prop}
    (hl : ∀ id key loc, l'.binding? id key = some loc ↔
      l.binding? id key = some loc ∧ P id key loc) : l'.Sound uris :=
  fun id key loc hloc => h id key loc ((hl id key loc).mp hloc).1

theorem binding?_pruneExpired : (l.pruneExpired now id).binding? id' key = some loc ↔
      l.binding? id' key = some loc ∧ (id' = id → loc.isExpiredAt now = false) := by
  rw [pruneExpired, binding?_retain, Bool.not_eq_true']

theorem pruneExpired_refines (id : String) :
    SameLive Known now ((l.pruneExpired (now * 10 ^ 9) id).filed uris) (l.filed uris) := by
  intro i _ b hlive
  rw [filed_of_drop (fun _ _ _ => binding?_pruneExpired), and_true]
  exact fun key loc _ hshows => iff_true_intro fun _ => hshows.live.mpr hlive

/-- The live bindings of an identifier have the key exactly if they have the contact. -/
def Tells (uris : UriLib) (now : Nat) (id key aor : String) (l : MemoryLocator) : Prop :=
  ∀ key' loc, l.binding? id key' = some loc → loc.isExpiredAt now = false →
    (key' = key ↔ uris.print loc.aor = aor)

theorem Tells.contact (h : l.Tells uris (now * 10 ^ 9) i.identifier key aor)
    (hinj : Set.InjOn Identity.identifier Known) (hi : i ∈ Known) (hi' : i' ∈ Known)
    (hloc : l.binding? i'.identifier key' = some loc) (hshows : Shows uris loc b)
    (hlive : b.Live now) :
    (i'.identifier = i.identifier ∧ key' = key) ↔ (i' = i ∧ b.aor = aor) := by
  constructor
  · rintro ⟨hid, hkey⟩
    rw [hid] at hloc
    refine ⟨hinj hi' hi hid, hshows.aor ▸ ?_⟩
    exact (h key' loc hloc (hshows.live.mpr hlive)).mp hkey
  · rintro ⟨rfl, haor⟩
    rw [← hshows.aor] at haor
    exact ⟨rfl, (h key' loc hloc (hshows.live.mpr hlive)).mpr haor⟩

theorem erase_refines (h : l.Tells uris (now * 10 ^ 9) i.identifier key aor)
    (hinj : Set.InjOn Identity.identifier Known) (hi : i ∈ Known) :
    SameLive Known now ((l.updateBindings i.identifier (·.erase key)).filed uris)
      ((l.filed uris).remove i aor) := by
  intro i' hi' b hlive
  apply filed_of_drop (fun _ _ _ => binding?_erase)
  exact fun key' loc hloc hshows => not_congr (h.contact hinj hi hi' hloc hshows hlive)

/-! ## Registering -/

def SharesPhone (uris : UriLib) (location loc : Location) : Prop :=
  location.instanceId.isSome = true ∧ loc.instanceId = location.instanceId ∧
    loc.bindingKey uris ≠ location.bindingKey uris

instance (uris : UriLib) (location loc : Location) : Decidable (SharesPhone uris location loc) :=
  inferInstanceAs (Decidable (_ ∧ _ ∧ _))

def moved (uris : UriLib) (location loc : Location) : Location :=
  if SharesPhone uris location loc then { loc with destination := location.destination } else loc

theorem lookup_redirectInstance (hdestination : location.destination.isSome = true)
    (hlive : ∀ key loc, bindings.lookup key = some loc → loc.isExpiredAt now = false)
    (honly : ∀ key loc key' loc', bindings.lookup key = some loc →
      bindings.lookup key' = some loc' → SharesPhone uris location loc →
      SharesPhone uris location loc' → key = key') :
    (redirectInstance uris now location bindings).lookup key =
      (bindings.lookup key).map (moved uris location) := by
  have hsame : (∀ loc, bindings.lookup key = some loc → ¬ SharesPhone uris location loc) →
      bindings.lookup key = (bindings.lookup key).map (moved uris location) := by
    intro hnot
    cases hloc : bindings.lookup key with
    | none => rfl
    | some loc => rw [map_some, moved, if_neg (hnot loc hloc)]
  obtain ⟨destination, hdestination⟩ := isSome_iff_exists.mp hdestination
  rw [redirectInstance, hdestination]
  cases hinst : location.instanceId with
  | none =>
    refine hsame fun loc _ hphone => ?_
    rw [SharesPhone, hinst] at hphone
    cases hphone.1
  | some inst =>
    have hfound : ∀ loc : Location, (loc.instanceId == some inst &&
        loc.bindingKey uris != location.bindingKey uris && !loc.isExpiredAt now) = true ↔
        SharesPhone uris location loc ∧ loc.isExpiredAt now = false := by
      intro loc
      simp [SharesPhone, hinst]
    dsimp only
    split
    next row hfind =>
      have hmatch := find?_some hfind
      have hphone := ((hfound row.2).mp hmatch).1
      have hlookup := Row.lookup (mem_of_find?_eq_some hfind)
      rw [lookup_insert_eq]
      split
      next hkey =>
        rw [hkey, hlookup, map_some, moved, if_pos hphone, hdestination]
      next hkey =>
        exact hsame fun loc hloc hphone' => hkey (honly _ _ _ _ hloc hlookup hphone' hphone)
    next hnone =>
      refine hsame fun loc hloc hphone => ?_
      have hrow := find?_eq_none.mp hnone ⟨key, loc⟩ (row_of_lookup hloc)
      exact hrow ((hfound loc).mpr ⟨hphone, hlive key loc hloc⟩)

theorem binding?_redirectInstance (hdestination : location.destination.isSome = true)
    (hlive : ∀ key loc, l.binding? id key = some loc → loc.isExpiredAt now = false)
    (honly : ∀ key loc key' loc', l.binding? id key = some loc → l.binding? id key' = some loc' →
      SharesPhone uris location loc → SharesPhone uris location loc' → key = key') :
    (l.updateBindings id (redirectInstance uris now location)).binding? id' key =
      if id' = id then (l.binding? id key).map (moved uris location) else l.binding? id' key := by
  rw [binding?_updateBindings]
  split
  · unfold binding? at hlive honly ⊢
    cases hrow : l.locations.lookup id with
    | none => rfl
    | some bindings =>
      rw [hrow] at hlive honly
      exact lookup_redirectInstance hdestination hlive honly
  · rfl

theorem Tells.sharesPhone
    (h : l.Tells uris now i.identifier (location.bindingKey uris) (uris.print location.aor))
    (hsound : l.Sound uris) (hloc : l.binding? i.identifier key = some loc)
    (hlive : loc.isExpiredAt now = false) (hshows : Shows uris loc b) :
    SharesPhone uris location loc ↔
      (Binding.ofLocation uris now' location t addr).SharesPhone b := by
  rw [SharesPhone, Binding.SharesPhone, (hsound _ _ _ hloc).1, hshows.instanceId, ← hshows.aor]
  exact and_congr_right fun _ => and_congr_right fun _ => not_congr (h key loc hloc hlive)

theorem Shows.moved (hshows : Shows uris loc b)
    (hdestination : location.destination = some ⟨some t, addr⟩)
    (hphone : SharesPhone uris location loc ↔
      (Binding.ofLocation uris now location t addr).SharesPhone b) :
    Shows uris (moved uris location loc)
      ((Binding.ofLocation uris now location t addr).redirect b) := by
  rw [MemoryLocator.moved, Binding.redirect]
  by_cases h : SharesPhone uris location loc
  · rw [if_pos h, if_pos (hphone.mp h)]
    exact ⟨hshows.aor, hshows.expires, hshows.modified, hshows.instanceId, hdestination⟩
  · rw [if_neg h, if_neg (mt hphone.mpr h)]
    exact hshows

theorem SharesPhone.bindingKey_eq (h : SharesPhone uris location loc)
    (h' : SharesPhone uris location loc') (haor : uris.print loc.aor = uris.print loc'.aor) :
    loc.bindingKey uris = loc'.bindingKey uris := by
  obtain ⟨inst, hinst⟩ := isSome_iff_exists.mp h.1
  rw [Location.bindingKey, Location.bindingKey, h.2.1, h'.2.1, hinst, haor]

section

-- The user has no expired binding left, and at most one other of the phone.
variable (location : Location) (hsound : l.Sound uris)
  (hdestination : location.destination = some ⟨some t, addr⟩)
  (htells : l.Tells uris (now * 10 ^ 9) i.identifier (location.bindingKey uris)
    (uris.print location.aor))
  (hpruned : ∀ key loc, l.binding? i.identifier key = some loc →
    loc.isExpiredAt (now * 10 ^ 9) = false)
  (hone : OnePhone now i (.ofLocation uris now location t addr) (l.filed uris))
include hsound hdestination htells hpruned hone

theorem binding?_redirect :
    (l.updateBindings i.identifier (redirectInstance uris (now * 10 ^ 9) location)).binding?
        id key =
      if id = i.identifier then (l.binding? i.identifier key).map (moved uris location)
      else l.binding? id key := by
  refine binding?_redirectInstance (isSome_of_eq_some hdestination) hpruned ?_
  intro key loc key' loc' hloc hloc' hphone hphone'
  obtain ⟨hkey, b, hshows⟩ := hsound _ _ _ hloc
  obtain ⟨hkey', b', hshows'⟩ := hsound _ _ _ hloc'
  have hlive := hpruned key loc hloc
  have hlive' := hpruned key' loc' hloc'
  have haor : b.aor = b'.aor := hone b b' ⟨key, loc, hloc, hshows⟩ ⟨key', loc', hloc', hshows'⟩
    (hshows.live.mp hlive) (hshows'.live.mp hlive')
    ((htells.sharesPhone hsound hloc hlive hshows).mp hphone)
    ((htells.sharesPhone hsound hloc' hlive' hshows').mp hphone')
  rw [← hkey, ← hkey']
  apply hphone.bindingKey_eq hphone'
  rw [hshows.aor, hshows'.aor, haor]

theorem redirect_refines (hinj : Set.InjOn Identity.identifier Known) (hi : i ∈ Known) :
    SameLive Known now
      ((l.updateBindings i.identifier (redirectInstance uris (now * 10 ^ 9) location)).filed uris)
      ((l.filed uris).redirect i (.ofLocation uris now location t addr)) := by
  have hmoved : ∀ key loc b, l.binding? i.identifier key = some loc → Shows uris loc b →
      Shows uris (moved uris location loc)
        ((Binding.ofLocation uris now location t addr).redirect b) := fun key loc b hloc hshows =>
    hshows.moved hdestination (htells.sharesPhone hsound hloc (hpruned key loc hloc) hshows)
  intro i' hi' b _
  have hbinding : ∀ id key, (l.updateBindings i.identifier
      (redirectInstance uris (now * 10 ^ 9) location)).binding? id key = _ :=
    fun _ _ => binding?_redirect location hsound hdestination htells hpruned hone
  rw [redirect]
  by_cases hii : i' = i
  · rw [if_pos hii, hii]
    constructor
    · rintro ⟨key, _, hfound, hshows⟩
      rw [hbinding, if_pos rfl] at hfound
      obtain ⟨loc, hloc, rfl⟩ := map_eq_some_iff.mp hfound
      obtain ⟨-, old, hold⟩ := hsound _ _ _ hloc
      exact ⟨old, ⟨key, loc, hloc, hold⟩, hshows.unique (hmoved key loc old hloc hold)⟩
    · rintro ⟨old, ⟨key, loc, hloc, hold⟩, rfl⟩
      refine ⟨key, moved uris location loc, ?_, hmoved key loc old hloc hold⟩
      rw [hbinding, if_pos rfl, hloc, map_some]
  · have hid : i'.identifier ≠ i.identifier := fun hid => hii (hinj hi' hi hid)
    rw [if_neg hii, filed, filed]
    simp only [hbinding, if_neg hid]

end

theorem file_refines (h : l.Tells uris (now * 10 ^ 9) i.identifier key new.aor)
    (hinj : Set.InjOn Identity.identifier Known) (hi : i ∈ Known) (hnew : Shows uris location new) :
    SameLive Known now ((l.file i.identifier key location).filed uris)
      ((l.filed uris).put i new) := by
  intro i' hi' b hlive
  rw [filed, put]
  simp only [binding?_file]
  constructor
  · rintro ⟨key', loc, hloc, hshows⟩
    split at hloc
    next hkey =>
      cases hloc
      exact .inl ⟨hinj hi' hi hkey.1, hshows.unique hnew⟩
    next hkey =>
      refine .inr ⟨⟨key', loc, hloc, hshows⟩, fun hcontact => hkey ?_⟩
      exact (h.contact hinj hi hi' hloc hshows hlive).mpr hcontact
  · rintro (⟨rfl, rfl⟩ | ⟨⟨key', loc, hloc, hshows⟩, hcontact⟩)
    · exact ⟨key, location, if_pos ⟨rfl, rfl⟩, hnew⟩
    · refine ⟨key', loc, ?_, hshows⟩
      rw [if_neg fun hkey => hcontact ((h.contact hinj hi hi' hloc hshows hlive).mp hkey)]
      exact hloc

section

variable (uris : UriLib) (location loc : Location)

theorem moved_aor : (moved uris location loc).aor = loc.aor := by
  rw [moved]
  split <;> rfl

theorem moved_bindingKey : (moved uris location loc).bindingKey uris = loc.bindingKey uris := by
  rw [moved]
  split <;> rfl

theorem moved_isExpiredAt : (moved uris location loc).isExpiredAt now = loc.isExpiredAt now := by
  rw [moved]
  split <;> rfl

end

theorem Sound.moved (hsound : l.Sound uris) (hl : ∀ id key, l'.binding? id key =
      if id = i.identifier then (l.binding? i.identifier key).map (moved uris location)
      else l.binding? id key)
    (hdestination : location.destination = some ⟨some t, addr⟩) : l'.Sound uris := by
  intro id key loc hloc
  rw [hl] at hloc
  split at hloc
  · obtain ⟨old, hold, rfl⟩ := map_eq_some_iff.mp hloc
    obtain ⟨hkey, b, hshows⟩ := hsound _ _ _ hold
    rw [moved_bindingKey]
    refine ⟨hkey, ?_⟩
    rw [MemoryLocator.moved]
    split
    · exact ⟨{ b with transport := t, addr }, hshows.aor, hshows.expires, hshows.modified,
        hshows.instanceId, hdestination⟩
    · exact ⟨b, hshows⟩
  · exact hsound id key loc hloc

theorem Tells.moved (htells : l.Tells uris now i.identifier key aor)
    (hl : ∀ id key, l'.binding? id key =
      if id = i.identifier then (l.binding? i.identifier key).map (moved uris location)
      else l.binding? id key) : l'.Tells uris now i.identifier key aor := by
  intro key' loc hloc hlive
  rw [hl, if_pos rfl] at hloc
  obtain ⟨old, hold, rfl⟩ := map_eq_some_iff.mp hloc
  rw [moved_isExpiredAt] at hlive
  rw [moved_aor]
  exact htells key' old hold hlive

theorem Sound.file (hsound : l.Sound uris) (hkey : location.bindingKey uris = key)
    (hshows : Shows uris location b) : (l.file id key location).Sound uris := by
  intro id' key' loc hloc
  rw [binding?_file] at hloc
  split at hloc
  next h =>
    cases hloc
    rw [h.2]
    exact ⟨hkey, b, hshows⟩
  · exact hsound id' key' loc hloc

theorem register_eq (hid : l.getIdentifier username realm = id) (hne : id ≠ "") :
    l.register uris now username realm location =
      if location.expires = 0 then
        (l.pruneExpired now id).updateBindings id (·.erase (location.bindingKey uris))
      else
        ((l.pruneExpired now id).updateBindings id
          (redirectInstance uris now (stamp username realm location))).file id
          (location.bindingKey uris) (touch now (stamp username realm location)) := by
  rw [register]
  simp only [hid, if_neg hne]
  rfl

theorem prune_spec (hsound : l.Sound uris) (htells : l.Tells uris (now * 10 ^ 9) id key aor) :
    (l.pruneExpired (now * 10 ^ 9) id).Sound uris ∧
      SameLive Known now ((l.pruneExpired (now * 10 ^ 9) id).filed uris) (l.filed uris) ∧
      (l.pruneExpired (now * 10 ^ 9) id).Tells uris (now * 10 ^ 9) id key aor ∧
      ∀ key loc, (l.pruneExpired (now * 10 ^ 9) id).binding? id key = some loc →
        loc.isExpiredAt (now * 10 ^ 9) = false := by
  refine ⟨hsound.of_drop fun _ _ _ => binding?_pruneExpired, pruneExpired_refines id, ?_, ?_⟩
  · exact fun key' loc hloc => htells key' loc (binding?_pruneExpired.mp hloc).1
  · exact fun key loc hloc => (binding?_pruneExpired.mp hloc).2 rfl

/-- **A registration in memory.** -/
theorem Sound.register_refines (hsound : l.Sound uris)
    (hinj : Set.InjOn Identity.identifier Known) (hi : i ∈ Known)
    (hid : l.getIdentifier username realm = i.identifier) (hne : i.identifier ≠ "")
    (hdestination : location.destination = some ⟨some t, addr⟩)
    (hmodified : ∀ modified, location.lastModified = some modified → modified = now * 10 ^ 9)
    (hexpires : location.expires ≠ 0)
    (htells : l.Tells uris (now * 10 ^ 9) i.identifier (location.bindingKey uris)
      (uris.print location.aor))
    (hone : OnePhone now i (.ofLocation uris now location t addr) (l.filed uris)) :
    (l.register uris (now * 10 ^ 9) username realm location).Sound uris ∧ SameLive Known now
        ((l.register uris (now * 10 ^ 9) username realm location).filed uris)
        ((l.filed uris).register i (.ofLocation uris now location t addr)) := by
  have hnew : Shows uris (touch (now * 10 ^ 9) (stamp username realm location))
      (.ofLocation uris now location t addr) := by
    refine ⟨rfl, rfl, ?_, rfl, hdestination⟩
    change location.lastModified.or _ = _
    cases hlast : location.lastModified with
    | none => rfl
    | some modified => rw [hmodified modified hlast, some_or, Binding.ofLocation]
  rw [register_eq hid hne, if_neg hexpires]
  -- the expired bindings go
  obtain ⟨hsound', hprune, htells', hpruned⟩ := prune_spec hsound htells
  have hone' := hprune.onePhone hi hone
  -- the phone moves
  have hmove := redirect_refines (stamp username realm location) hsound' hdestination htells'
    hpruned hone' hinj hi
  have hbinding : ∀ id key, ((l.pruneExpired (now * 10 ^ 9) i.identifier).updateBindings
      i.identifier (redirectInstance uris (now * 10 ^ 9) (stamp username realm location))).binding?
      id key = _ :=
    fun _ _ => binding?_redirect _ hsound' hdestination htells' hpruned hone'
  -- and the contact gets its binding
  have hput := file_refines (htells'.moved hbinding) hinj hi hnew
  refine ⟨(hsound'.moved hbinding hdestination).file rfl hnew, hput.trans ?_⟩
  exact (hmove.trans (hprune.redirect i _)).put i _

theorem Sound.register_refines_remove (hsound : l.Sound uris)
    (hinj : Set.InjOn Identity.identifier Known) (hi : i ∈ Known)
    (hid : l.getIdentifier username realm = i.identifier) (hne : i.identifier ≠ "")
    (hexpires : location.expires = 0)
    (htells : l.Tells uris (now * 10 ^ 9) i.identifier (location.bindingKey uris)
      (uris.print location.aor)) :
    (l.register uris (now * 10 ^ 9) username realm location).Sound uris ∧ SameLive Known now
        ((l.register uris (now * 10 ^ 9) username realm location).filed uris)
        ((l.filed uris).remove i (uris.print location.aor)) := by
  rw [register_eq hid hne, if_pos hexpires]
  obtain ⟨hsound', hprune, htells', -⟩ := prune_spec hsound htells
  refine ⟨hsound'.of_drop fun _ _ _ => binding?_erase, ?_⟩
  exact (erase_refines htells' hinj hi).trans (hprune.remove i _)

theorem unregister_refines (hinj : Set.InjOn Identity.identifier Known) (hi : i ∈ Known)
    (hid : l.getIdentifier username realm = i.identifier) (hne : i.identifier ≠ "") :
    SameLive Known now ((l.unregister username realm).filed uris)
      ((l.filed uris).unregister i) := by
  intro i' hi' b _
  apply filed_of_drop fun _ _ _ => binding?_unregister hid hne
  exact fun key loc _ _ => not_congr (hinj.eq_iff hi' hi)

theorem Shows.closesWith (h : Shows uris loc b) :
    closesWith (now * 10 ^ 9) ⟨some t, addr⟩ loc = true ↔ b.ClosedBy now t addr := by
  rw [MemoryLocator.closesWith, Bool.and_eq_true, Bool.not_eq_true', beq_iff_eq, h.destination,
    h.modified, any_some, decide_eq_false_iff_not, ← Nat.sub_mul, Nat.not_le,
    Nat.mul_lt_mul_right (by decide), some.injEq, SipAddr.mk.injEq, some.injEq]
  exact Iff.rfl

theorem unregisterWithAddress_refines : SameLive Known now
      ((l.unregisterWithAddress (now * 10 ^ 9) ⟨some t, addr⟩).filed uris)
      ((l.filed uris).close now t addr) := by
  intro i _ b _
  apply filed_of_drop fun _ _ _ => binding?_dropBindings
  intro key loc _ hshows
  rw [Bool.eq_false_iff]
  exact not_congr hshows.closesWith

theorem sweepExpired_refines : SameLive Known now ((l.sweepExpired (now * 10 ^ 9)).filed uris)
      (l.filed uris) := by
  intro i _ b hlive
  rw [sweepExpired, filed_of_drop fun _ _ _ => binding?_dropBindings, and_true]
  exact fun key loc _ hshows => iff_true_intro (hshows.live.mpr hlive)

theorem hasActiveBindings_filed (hsound : l.Sound uris)
    (hid : l.getIdentifier username realm = i.identifier) (hne : i.identifier ≠ "") :
    l.hasActiveBindings (now * 10 ^ 9) username realm = true ↔
      ∃ b : Binding, b.Live now ∧ l.filed uris i b := by
  rw [hasActiveBindings_iff, hid, Active]
  simp only [holds_iff]
  constructor
  · rintro ⟨-, loc, ⟨key, hloc⟩, hlive⟩
    obtain ⟨-, b, hshows⟩ := hsound _ _ _ hloc
    exact ⟨b, hshows.live.mp hlive, key, loc, hloc, hshows⟩
  · rintro ⟨b, hlive, key, loc, hloc, hshows⟩
    exact ⟨hne, loc, ⟨key, hloc⟩, hshows.live.mpr hlive⟩

end MemoryLocator

end RustPbx.Proxy
