import Mathlib.Algebra.Ring.Nat
import Mathlib.Data.List.AList

/-!
Finite tables, as association lists without repeated keys, and the sums of their rows.

`total_insert` says how a sum changes when one row is written: by the new row minus the one it
replaces. The lemmas `row_of_..` say where the rows of a changed table come from.
-/

abbrev Table (κ ν : Type) := AList fun _ : κ => ν

namespace Table

open List

variable [DecidableEq κ]

def total (w : κ → ν → Nat) (t : Table κ ν) : Nat :=
  (t.entries.map fun row => w row.1 row.2).sum

def rowAt (w : κ → ν → Nat) (k : κ) (t : Table κ ν) : Nat :=
  ((t.lookup k).map (w k)).getD 0

private theorem sum_kerase (w : κ → ν → Nat) (k : κ) (rows : List (Sigma fun _ : κ => ν)) :
    ((rows.kerase k).map fun row => w row.1 row.2).sum + ((rows.dlookup k).map (w k)).getD 0
      = (rows.map fun row => w row.1 row.2).sum := by
  induction rows with
  | nil => rfl
  | cons row rows ih =>
    obtain ⟨k', v⟩ := row
    by_cases h : k = k'
    · subst h
      simp [Nat.add_comm]
    · rw [kerase_cons_ne h, dlookup_cons_ne _ _ h, map_cons, map_cons,
        sum_cons, sum_cons, ← ih, Nat.add_assoc]

/-- **Writing a row** changes a sum by the new row minus the row it replaces. -/
theorem total_insert (w : κ → ν → Nat) (k : κ) (v : ν) (t : Table κ ν) :
    total w (t.insert k v) + rowAt w k t = total w t + w k v := by
  rw [total, AList.entries_insert, map_cons, sum_cons]
  have := sum_kerase w k t.entries
  simp only [rowAt, AList.lookup, total] at *
  omega

theorem lookup_insert_eq (k k' : κ) (v : ν) (t : Table κ ν) :
    (t.insert k v).lookup k' = if k' = k then some v else t.lookup k' := by
  by_cases h : k' = k
  · subst h
    simp
  · rw [AList.lookup_insert_ne h, if_neg h]

variable {t : Table κ ν}

theorem length_erase (h : k ∈ t) : (t.erase k).entries.length + 1 = t.entries.length := by
  obtain ⟨v, hrow⟩ := exists_of_mem_keys h
  have hlength : (t.erase k).entries.length = t.entries.length - 1 :=
    length_eraseP_of_mem hrow (by simp)
  have hpos := length_pos_of_mem hrow
  omega

theorem length_insert_of_mem (h : k ∈ t) : (t.insert k v).entries.length = t.entries.length := by
  exact length_erase h

/-! ## Rows -/

def retain (p : κ → ν → Bool) (t : Table κ ν) : Table κ ν where
  entries := t.entries.filter fun row => p row.1 row.2
  nodupKeys := t.nodupKeys.sublist filter_sublist

def values (t : Table κ ν) : List ν :=
  t.entries.map fun row => row.2

def Row (t : Table κ ν) (k : κ) (v : ν) : Prop :=
  ⟨k, v⟩ ∈ t.entries

theorem row_of_lookup (h : t.lookup k = some v) : t.Row k v :=
  AList.mem_lookup_iff.mp h

theorem Row.lookup (h : t.Row k v) : t.lookup k = some v :=
  AList.mem_lookup_iff.mpr h

theorem row_of_insert (h : Row (t.insert k v) k' v') : (k' = k ∧ v' = v) ∨ t.Row k' v' := by
  rcases mem_cons.mp h with heq | hmem
  · cases heq
    exact .inl ⟨rfl, rfl⟩
  · exact .inr ((kerase_sublist k t.entries).subset hmem)

theorem row_of_erase (h : Row (t.erase k) k' v) : t.Row k' v :=
  (kerase_sublist k t.entries).subset h

omit [DecidableEq κ] in
theorem row_of_retain (h : (t.retain p).Row k v) : t.Row k v :=
  (mem_filter.mp h).1

theorem lookup_retain : (t.retain p).lookup k = (t.lookup k).filter (p k) := by
  apply Option.ext
  intro v
  rw [Option.filter_eq_some_iff, ← Option.mem_def, ← Option.mem_def, AList.mem_lookup_iff,
    AList.mem_lookup_iff]
  exact mem_filter

omit [DecidableEq κ] in
theorem retain_retain : (t.retain p).retain q = t.retain fun k v => p k v && q k v :=
  AList.ext (filter_filter.trans (filter_congr fun _ _ => Bool.and_comm _ _))

omit [DecidableEq κ] in
theorem row_of_mem_values (h : v ∈ t.values) : ∃ k, t.Row k v := by
  obtain ⟨⟨k, v⟩, hmem, rfl⟩ := mem_map.mp h
  exact ⟨k, hmem⟩

def eraseAll (keys : List κ) (t : Table κ ν) : Table κ ν :=
  keys.foldl (fun t k => t.erase k) t

private theorem kerase_eq_filter {rows : List (Sigma fun _ : κ => ν)} (h : rows.NodupKeys)
    (k : κ) : rows.kerase k = rows.filter fun row => row.1 ≠ k := by
  induction rows with
  | nil => rfl
  | cons row rows ih =>
    obtain ⟨k', v⟩ := row
    obtain ⟨hnot, hrest⟩ := nodupKeys_cons.mp h
    by_cases hk : k = k'
    · subst hk
      have hself : rows.filter (fun row => row.1 ≠ k) = rows := by
        rw [filter_eq_self]
        rintro ⟨k', v'⟩ hrow
        have hkey : k' ∈ rows.keys := mem_keys_of_mem hrow
        have hne : k' ≠ k := fun heq => hnot (heq ▸ hkey)
        simpa using hne
      rw [filter_cons_of_neg (by simp), hself]
      simp
    · rw [kerase_cons_ne hk, filter_cons_of_pos (by simpa using Ne.symm hk), ih hrest]

theorem entries_eraseAll (keys : List κ) (t : Table κ ν) :
    (eraseAll keys t).entries = t.entries.filter fun row => row.1 ∉ keys := by
  induction keys generalizing t with
  | nil => simp [eraseAll]
  | cons k keys ih =>
    change (eraseAll keys (t.erase k)).entries = _
    have herase : (t.erase k).entries = t.entries.filter fun row => row.1 ≠ k :=
      kerase_eq_filter t.nodupKeys k
    rw [ih, herase, filter_filter]
    congr 1
    funext row
    simp [Bool.and_comm]

theorem lookup_erase_eq (k k' : κ) (t : Table κ ν) :
    (t.erase k).lookup k' = if k' = k then none else t.lookup k' := by
  by_cases h : k' = k
  · subst h
    rw [AList.lookup_erase, if_pos rfl]
  · rw [AList.lookup_erase_ne h, if_neg h]

theorem lookup_eraseAll (keys : List κ) (k : κ) (t : Table κ ν) :
    (eraseAll keys t).lookup k = if k ∈ keys then none else t.lookup k := by
  induction keys generalizing t with
  | nil => rfl
  | cons k' keys ih =>
    change (eraseAll keys (t.erase k')).lookup k = _
    rw [ih, lookup_erase_eq]
    by_cases hkey : k = k'
    · simp [hkey]
    · simp [hkey]

def mapRows (f : κ → ν → ν') (t : Table κ ν) : Table κ ν' where
  entries := t.entries.map fun row => ⟨row.1, f row.1 row.2⟩
  nodupKeys := by
    have hkeys : (t.entries.map fun row => (⟨row.1, f row.1 row.2⟩ : Sigma fun _ : κ => ν')).keys =
        t.entries.keys := by
      simp [keys, map_map, Function.comp_def]
    rw [NodupKeys, hkeys]
    exact t.nodupKeys

theorem lookup_mapRows (f : κ → ν → ν') (k : κ) (t : Table κ ν) :
    (t.mapRows f).lookup k = (t.lookup k).map (f k) := by
  change dlookup k (t.entries.map fun row => ⟨row.1, f row.1 row.2⟩ :
    List (Sigma fun _ : κ => ν')) = (dlookup k t.entries).map (f k)
  induction t.entries with
  | nil => rfl
  | cons row rows ih =>
    obtain ⟨k', v⟩ := row
    by_cases h : k = k'
    · subst h
      simp
    · rw [map_cons, dlookup_cons_ne _ _ h, dlookup_cons_ne _ _ h, ih]

/-- The table after each row of a list has written its own key, or left it alone. -/
def updateFrom (f : κ → ν' → Option ν → Option ν) (t : Table κ ν)
    (rows : List (Sigma fun _ : κ => ν')) : Table κ ν :=
  rows.foldl (fun t row => ((f row.1 row.2 (t.lookup row.1)).map (t.insert row.1)).getD t) t

theorem lookup_updateFrom (hrows : rows.NodupKeys) :
    (t.updateFrom f rows).lookup k =
      ((rows.dlookup k).bind fun v => f k v (t.lookup k)).or (t.lookup k) := by
  induction rows generalizing t with
  | nil => rfl
  | cons row rows ih =>
    obtain ⟨k', v⟩ := row
    obtain ⟨hnot, hrest⟩ := nodupKeys_cons.mp hrows
    change (updateFrom f (((f k' v (t.lookup k')).map (t.insert k')).getD t) rows).lookup k = _
    rw [ih hrest]
    by_cases hk : k = k'
    · subst hk
      rw [dlookup_eq_none.mpr hnot, dlookup_cons_eq, Option.bind_none, Option.none_or,
        Option.bind_some]
      cases f k v (t.lookup k) with
      | none => rfl
      | some v' => simp
    · have hother : AList.lookup k (((f k' v (t.lookup k')).map (t.insert k')).getD t) =
          t.lookup k := by
        cases f k' v (t.lookup k') with
        | none => rfl
        | some v' => exact AList.lookup_insert_ne hk
      rw [hother, dlookup_cons_ne _ _ hk]

section Reindex

variable [DecidableEq κ'] {f : κ → ν → Option (κ' × ν')} {g : κ' → κ}

/-- The rows of a table under other keys; a row may also be left out. -/
def reindex (f : κ → ν → Option (κ' × ν')) (t : Table κ ν) : Table κ' ν' :=
  t.entries.foldl
    (fun acc row => ((f row.1 row.2).map fun new => acc.insert new.1 new.2).getD acc) ∅

private theorem lookup_foldl_reindex {rows : List (Sigma fun _ : κ => ν)} (hrows : rows.NodupKeys)
    (hname : ∀ row ∈ rows, ∀ new, f row.1 row.2 = some new → row.1 = g new.1)
    (acc : Table κ' ν') (k' : κ') :
    (rows.foldl (fun acc row => ((f row.1 row.2).map fun new => acc.insert new.1 new.2).getD acc)
        acc).lookup k' =
      ((rows.dlookup (g k')).bind fun v =>
        ((f (g k') v).filter fun new => new.1 = k').map (·.2)).or (acc.lookup k') := by
  induction rows generalizing acc with
  | nil => rfl
  | cons row rows ih =>
    obtain ⟨k, v⟩ := row
    obtain ⟨hnot, hrest⟩ := nodupKeys_cons.mp hrows
    rw [foldl_cons, ih hrest fun row hrow => hname row (mem_cons_of_mem _ hrow)]
    have hnew := hname _ mem_cons_self
    by_cases hk : k = g k'
    · subst hk
      rw [dlookup_eq_none.mpr hnot, dlookup_cons_eq, Option.bind_none, Option.none_or,
        Option.bind_some]
      cases hf : f (g k') v with
      | none => rfl
      | some new =>
        rw [Option.map_some, Option.getD_some, Option.filter_some]
        by_cases hkey : new.1 = k'
        · simp [hkey]
        · simp [hkey, Ne.symm hkey]
    · have hother : AList.lookup k' (((f k v).map fun new => acc.insert new.1 new.2).getD acc) =
          acc.lookup k' := by
        cases hf : f k v with
        | none => rfl
        | some new =>
          have hne : k' ≠ new.1 := fun heq => hk (heq ▸ hnew new hf)
          exact AList.lookup_insert_ne hne
      rw [hother, dlookup_cons_ne _ _ (Ne.symm hk)]

theorem lookup_reindex (hname : ∀ k v, t.Row k v → ∀ new, f k v = some new → k = g new.1) :
    (t.reindex f).lookup k' =
      (t.lookup (g k')).bind fun v => ((f (g k') v).filter fun new => new.1 = k').map (·.2) := by
  rw [reindex, lookup_foldl_reindex t.nodupKeys (fun row hrow => hname row.1 row.2 hrow)]
  exact Option.or_none

end Reindex

section Agrees

variable {ν' : Type} {R : κ → ν → ν' → Prop}

/-- The tables have rows for the same keys, and `R` relates the rows of each key. -/
def Agrees (R : κ → ν → ν' → Prop) (t : Table κ ν) (t' : Table κ ν') : Prop :=
  ∀ k, Option.Rel (R k) (t.lookup k) (t'.lookup k)

theorem agrees_empty : Agrees R ∅ ∅ := fun _ => .none

theorem Agrees.cases (h : Agrees R t t') (k : κ) : (t.lookup k = none ∧ t'.lookup k = none) ∨
      ∃ v v', t.lookup k = some v ∧ t'.lookup k = some v' ∧ R k v v' := by
  have hk := h k
  generalize t.lookup k = row, t'.lookup k = row' at hk
  cases hk with
  | none => exact .inl ⟨rfl, rfl⟩
  | some hrow => exact .inr ⟨_, _, rfl, rfl, hrow⟩

theorem Agrees.insert (h : Agrees R t t') (hrow : R k v v') :
    Agrees R (t.insert k v) (t'.insert k v') := by
  intro k'
  rw [lookup_insert_eq, lookup_insert_eq]
  by_cases hk : k' = k
  · subst hk
    rw [if_pos rfl, if_pos rfl]
    exact .some hrow
  · rw [if_neg hk, if_neg hk]
    exact h k'

theorem Agrees.retain (h : Agrees R t t')
    (hp : ∀ k v v', t.lookup k = some v → t'.lookup k = some v' → R k v v' → p k v = p' k v') :
    Agrees R (t.retain p) (t'.retain p') := by
  intro k
  rw [lookup_retain, lookup_retain]
  rcases h.cases k with ⟨hnone, hnone'⟩ | ⟨v, v', hv, hv', hrow⟩
  · rw [hnone, hnone']
    exact .none
  · rw [hv, hv', Option.filter_some, Option.filter_some, hp k v v' hv hv' hrow]
    split
    · exact .some hrow
    · exact .none

theorem Agrees.mapRows (h : Agrees R t t') (hf : ∀ k v v', R k v v' → R k (f k v) (f' k v')) :
    Agrees R (t.mapRows f) (t'.mapRows f') := by
  intro k
  rw [lookup_mapRows, lookup_mapRows]
  rcases h.cases k with ⟨hnone, hnone'⟩ | ⟨v, v', hv, hv', hrow⟩
  · rw [hnone, hnone']
    exact .none
  · rw [hv, hv']
    exact .some (hf k v v' hrow)

end Agrees

section Relabels

variable {κ' : Type} [DecidableEq κ'] {f : κ → κ'} {P : κ → Prop}

structure Relabels (f : κ → κ') (P : κ → Prop) (t : Table κ ν) (t' : Table κ' ν) : Prop where
  rows : t'.entries = t.entries.map fun row => ⟨f row.1, row.2⟩
  named : ∀ row ∈ t.entries, P row.1

omit [DecidableEq κ] [DecidableEq κ'] in
theorem relabels_empty : Relabels f P (∅ : Table κ ν) ∅ :=
  ⟨rfl, nofun⟩

private theorem rows_relabel (hinj : ∀ k k', P k → P k' → f k = f k' → k = k') (hk : P k)
    {rows : List (Sigma fun _ : κ => ν)} (hrows : ∀ row ∈ rows, P row.1) :
    let rows' : List (Sigma fun _ : κ' => ν) := rows.map fun row => ⟨f row.1, row.2⟩
    dlookup (f k) rows' = dlookup k rows ∧
      kerase (f k) rows' = (kerase k rows).map fun row => ⟨f row.1, row.2⟩ := by
  induction rows with
  | nil => exact ⟨rfl, rfl⟩
  | cons row rows ih =>
    obtain ⟨hlookup, herase⟩ := ih fun row hrow => hrows row (mem_cons_of_mem _ hrow)
    obtain ⟨k', v⟩ := row
    by_cases h : k = k'
    · subst h
      simp
    · have hne : f k ≠ f k' := fun heq => h (hinj k k' hk (hrows _ mem_cons_self) heq)
      constructor
      · rw [map_cons, dlookup_cons_ne _ _ hne, dlookup_cons_ne _ _ h, hlookup]
      · rw [map_cons, kerase_cons_ne hne, kerase_cons_ne h, map_cons, herase]

namespace Relabels

variable (hinj : ∀ k k', P k → P k' → f k = f k' → k = k')
include hinj

theorem lookup (h : Relabels f P t t') (hk : P k) : t'.lookup (f k) = t.lookup k := by
  rw [AList.lookup, h.rows]
  exact (rows_relabel hinj hk h.named).1

theorem insert (h : Relabels f P t t') (hk : P k) (v : ν) :
    Relabels f P (t.insert k v) (t'.insert (f k) v) := by
  refine ⟨?_, fun row hrow => ?_⟩
  · rw [AList.entries_insert, h.rows, (rows_relabel hinj hk h.named).2]
    rfl
  · rcases row_of_insert hrow with ⟨hkey, -⟩ | hold
    · rw [hkey]
      exact hk
    · exact h.named row hold

end Relabels

omit [DecidableEq κ] [DecidableEq κ'] in
theorem Relabels.retain (h : Relabels f P t t')
    (hp : ∀ k v, P k → p' (f k) v = p k v) : Relabels f P (t.retain p) (t'.retain p') := by
  refine ⟨?_, fun row hrow => h.named row (mem_filter.mp hrow).1⟩
  change t'.entries.filter _ = (t.entries.filter _).map _
  rw [h.rows, filter_map]
  congr 1
  exact filter_congr fun row hrow => hp row.1 row.2 (h.named row hrow)

end Relabels

end Table
