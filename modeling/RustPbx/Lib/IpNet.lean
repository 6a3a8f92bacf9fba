import Mathlib.Data.List.Sort
import RustPbx.Lib.IpAddr
import RustPbx.Lib.Table

/-!
Networks of IP addresses, and maps from networks to lists of values.

A network is kept by its family, its length and its leading bits, so that two networks with the same
addresses are equal. What a lookup by an address goes through is left to a library, with what it
says of it as a law (`PrefixTrie`).
-/

namespace IpAddr

def readPort : Reader Nat := fun s => do
  let s ← Str.stripChar ':' s
  readNumber 10 s.length (2 ^ 16) true s

def readSocketV4 : Reader IpAddr := fun s => do
  let ((a, b, c, d), s) ← readIpv4 s
  let (_, s) ← readPort s
  return (.v4 (.ofNat a) (.ofNat b) (.ofNat c) (.ofNat d), s)

/-- A zone after the address is read and not used. -/
def readScope (s : List Char) : List Char :=
  let scope := do
    let s ← Str.stripChar '%' s
    readNumber 10 s.length (2 ^ 32) true s
  match scope with
  | some (_, s) => s
  | none => s

def readSocketV6 : Reader IpAddr := fun s => do
  let s ← Str.stripChar '[' s
  let (groups, s) ← readIpv6 s
  let s ← Str.stripChar ']' (readScope s)
  let (_, s) ← readPort s
  return (← ofGroups groups, s)

def parseSocket (s : List Char) : Option IpAddr :=
  match (readSocketV4 s).or (readSocketV6 s) with
  | some (ip, []) => some ip
  | _ => none

example : parseSocket "[fe80::1%2]:5060".toList = some (.v6 0xfe80 0 0 0 0 0 0 1) := by decide

def isV6 : IpAddr → Bool
  | .v4 .. => false
  | .v6 .. => true

def width : IpAddr → Nat
  | .v4 .. => 32
  | .v6 .. => 128

def bits : IpAddr → Nat
  | .v4 a b c d => [a, b, c, d].foldl (fun n octet => n * 2 ^ 8 + octet.toNat) 0
  | .v6 s0 s1 s2 s3 s4 s5 s6 s7 =>
    [s0, s1, s2, s3, s4, s5, s6, s7].foldl (fun n group => n * 2 ^ 16 + group.toNat) 0

end IpAddr

structure IpNet where
  addr : IpAddr
  prefixLen : Nat
  bounded : prefixLen ≤ addr.width

/-- A network, by the bits that its addresses have in common. -/
structure Network where
  v6 : Bool
  prefixLen : Nat
  leading : Nat
  deriving DecidableEq

namespace IpNet

def ofAddr (addr : IpAddr) : IpNet :=
  ⟨addr, addr.width, Nat.le_refl _⟩

/-- The network without the bits of the address after it. -/
def trunc (net : IpNet) : Network :=
  ⟨net.addr.isV6, net.prefixLen, net.addr.bits / 2 ^ (net.addr.width - net.prefixLen)⟩

end IpNet

def Network.Covers (n : Network) (addr : IpAddr) : Prop :=
  n.v6 = addr.isV6 ∧ n.prefixLen ≤ addr.width ∧
    n.leading = addr.bits / 2 ^ (addr.width - n.prefixLen)

instance (n : Network) (addr : IpAddr) : Decidable (n.Covers addr) :=
  inferInstanceAs (Decidable (_ ∧ _ ∧ _))

theorem Network.Covers.eq_of_prefixLen {n' : Network} (h : n.Covers addr) (h' : n'.Covers addr)
    (hlen : n.prefixLen = n'.prefixLen) : n = n' := by
  cases n
  cases n'
  obtain ⟨hv6, -, hleading⟩ := h
  obtain ⟨hv6', -, hleading'⟩ := h'
  cases hlen
  exact congr (congrArg (Network.mk · _) (hv6.trans hv6'.symm)) (hleading.trans hleading'.symm)

/-! ## Maps from networks -/

structure NetworkMap (α : Type) where
  rows : Table Network (List α)

namespace NetworkMap

open List

def empty : NetworkMap α := ⟨∅⟩

def valuesOf (m : NetworkMap α) (n : Network) : List α :=
  (m.rows.lookup n).getD []

/-- Add a value to those of a network, unless it is one of them. -/
def push [DecidableEq α] (m : NetworkMap α) (n : Network) (x : α) : NetworkMap α :=
  let candidates := m.valuesOf n
  ⟨m.rows.insert n (if x ∈ candidates then candidates else candidates ++ [x])⟩

end NetworkMap

/-- A library for such maps: it goes through the lists of the networks that an address is in, from
the shortest network to the longest. -/
structure PrefixTrie (α : Type) where
  coverValues : NetworkMap α → IpAddr → List (List α)
  covering : ∀ m addr, ∃ rows : List (Sigma fun _ : Network => List α),
    coverValues m addr = rows.map (·.2) ∧
      (∀ n values, ⟨n, values⟩ ∈ rows ↔ m.rows.lookup n = some values ∧ n.Covers addr) ∧
      rows.Pairwise fun row row' => row.1.prefixLen ≤ row'.1.prefixLen

namespace PrefixTrie

open List NetworkMap

def sorted : PrefixTrie α where
  coverValues m addr := ((m.rows.entries.filter fun row => row.1.Covers addr).insertionSort
    fun row row' => row.1.prefixLen ≤ row'.1.prefixLen).map (·.2)
  covering m addr := by
    refine ⟨_, rfl, fun n values => ?_, pairwise_insertionSort _ _⟩
    rw [mem_insertionSort, mem_filter, decide_eq_true_iff]
    exact and_congr_left' ⟨fun h => Table.Row.lookup h, fun h => Table.row_of_lookup h⟩

variable {trie : PrefixTrie α} {m : NetworkMap α}

theorem mem_valuesOf : x ∈ m.valuesOf n ↔ ∃ values, m.rows.lookup n = some values ∧ x ∈ values := by
  rw [valuesOf]
  cases m.rows.lookup n with
  | none => simp
  | some values => simp

theorem mem_coverValues : (∃ values ∈ trie.coverValues m addr, x ∈ values) ↔
      ∃ n : Network, n.Covers addr ∧ x ∈ m.valuesOf n := by
  obtain ⟨rows, heq, hmem, -⟩ := trie.covering m addr
  rw [heq]
  constructor
  · rintro ⟨values, hvalues, hx⟩
    obtain ⟨⟨n, _⟩, hrow, rfl⟩ := mem_map.mp hvalues
    obtain ⟨hlookup, hcovers⟩ := (hmem _ _).mp hrow
    exact ⟨n, hcovers, mem_valuesOf.mpr ⟨_, hlookup, hx⟩⟩
  · rintro ⟨n, hcovers, hx⟩
    obtain ⟨values, hlookup, hx⟩ := mem_valuesOf.mp hx
    exact ⟨values, mem_map.mpr ⟨⟨n, values⟩, (hmem _ _).mpr ⟨hlookup, hcovers⟩, rfl⟩, hx⟩

/-- The first value that `f` finds in the list of the longest network in which it finds one. -/
def longestMatch (trie : PrefixTrie α) (m : NetworkMap α) (addr : IpAddr) (f : α → Option β) :
    Option β :=
  (trie.coverValues m addr).foldl (fun matched values => (values.findSome? f).or matched) none

private theorem foldl_or (g : β → Option γ) (l : List β) (init : Option γ) :
    l.foldl (fun acc x => (g x).or acc) init = (l.reverse.findSome? g).or init := by
  induction l generalizing init with
  | nil => rfl
  | cons x l ih =>
    rw [foldl_cons, ih, reverse_cons, findSome?_append, Option.or_assoc,
      findSome?_singleton]

private theorem longestMatch_eq (trie : PrefixTrie α) (m : NetworkMap α) (addr : IpAddr)
    (f : α → Option β) : ∃ rows : List (Sigma fun _ : Network => List α),
    trie.longestMatch m addr f = rows.findSome? (·.2.findSome? f) ∧
      (∀ n values, ⟨n, values⟩ ∈ rows ↔ m.rows.lookup n = some values ∧ n.Covers addr) ∧
      rows.Pairwise fun row row' => row'.1.prefixLen ≤ row.1.prefixLen := by
  obtain ⟨rows, heq, hmem, hsorted⟩ := trie.covering m addr
  refine ⟨rows.reverse, ?_, fun n values => mem_reverse.trans (hmem n values),
    pairwise_reverse.mpr hsorted⟩
  rw [longestMatch, heq, foldl_or, Option.or_none, ← map_reverse, findSome?_map]
  rfl

theorem findSome?_of_longestMatch_eq_none {f : α → Option β}
    (h : trie.longestMatch m addr f = none) (hcovers : n.Covers addr) :
    (m.valuesOf n).findSome? f = none := by
  obtain ⟨rows, heq, hmem, -⟩ := longestMatch_eq trie m addr f
  rw [heq, findSome?_eq_none_iff] at h
  rw [valuesOf]
  cases hlookup : m.rows.lookup n with
  | none => rfl
  | some values => exact h ⟨n, values⟩ ((hmem _ _).mpr ⟨hlookup, hcovers⟩)

theorem exists_of_longestMatch_eq_some {f : α → Option β}
    (h : trie.longestMatch m addr f = some y) :
    ∃ n : Network, n.Covers addr ∧ (m.valuesOf n).findSome? f = some y ∧
      ∀ n' : Network, n'.Covers addr → n.prefixLen < n'.prefixLen →
        (m.valuesOf n').findSome? f = none := by
  obtain ⟨rows, heq, hmem, hsorted⟩ := longestMatch_eq trie m addr f
  rw [heq, findSome?_eq_some_iff] at h
  obtain ⟨longer, ⟨n, values⟩, shorter, rfl, hfound, hnone⟩ := h
  obtain ⟨hlookup, hcovers⟩ := (hmem n values).mp (mem_append_right _ mem_cons_self)
  refine ⟨n, hcovers, ?_, fun n' hcovers' hlt => ?_⟩
  · rw [valuesOf, hlookup]
    exact hfound
  · rw [valuesOf]
    cases hlookup' : m.rows.lookup n' with
    | none => rfl
    | some values' =>
      obtain hlonger | hrest := mem_append.mp ((hmem n' values').mpr ⟨hlookup', hcovers'⟩)
      · exact hnone _ hlonger
      · -- from the row on, the networks are not longer than the one of the row
        have hle : n'.prefixLen ≤ n.prefixLen := by
          obtain heq | hshorter := mem_cons.mp hrest
          · cases heq
            exact Nat.le_refl _
          · exact rel_of_pairwise_cons (pairwise_append.mp hsorted).2.1 hshorter
        exact absurd hlt (Nat.not_lt.mpr hle)

end PrefixTrie

namespace NetworkMap

open List

variable {m : NetworkMap α} [DecidableEq α]

theorem mem_push : y ∈ (m.push n x).valuesOf n' ↔ y ∈ m.valuesOf n' ∨ (n' = n ∧ y = x) := by
  unfold push valuesOf
  rw [Table.lookup_insert_eq]
  by_cases h : n' = n
  · subst h
    rw [if_pos rfl, Option.getD_some]
    split
    next hmem =>
      refine ⟨Or.inl, ?_⟩
      rintro (hy | ⟨-, rfl⟩)
      · exact hy
      · exact hmem
    · rw [mem_append, mem_singleton]
      exact or_congr_right ⟨fun hy => ⟨rfl, hy⟩, fun hy => hy.2⟩
  · rw [if_neg h]
    exact ⟨Or.inl, fun hy => hy.elim id fun hy => absurd hy.1 h⟩

def pushAll (m : NetworkMap α) (networks : List Network) (x : α) : NetworkMap α :=
  networks.foldl (fun m n => m.push n x) m

theorem mem_pushAll :
    y ∈ (m.pushAll networks x).valuesOf n ↔ y ∈ m.valuesOf n ∨ (n ∈ networks ∧ y = x) := by
  induction networks generalizing m with
  | nil => simp [pushAll]
  | cons first networks ih =>
    change y ∈ ((m.push first x).pushAll networks x).valuesOf n ↔ _
    rw [ih, mem_push, mem_cons, or_and_right, or_assoc]

theorem valuesOf_push (m : NetworkMap α) (n n' : Network) (x : α) : (m.push n x).valuesOf n' =
      if n' = n ∧ x ∉ m.valuesOf n' then m.valuesOf n' ++ [x] else m.valuesOf n' := by
  rw [push, valuesOf, Table.lookup_insert_eq]
  by_cases hn : n' = n
  · subst hn
    rw [if_pos rfl, Option.getD_some]
    by_cases hx : x ∈ m.valuesOf n'
    · rw [if_pos hx, if_neg fun h => h.2 hx]
    · rw [if_neg hx, if_pos ⟨rfl, hx⟩]
  · rw [if_neg hn, if_neg fun h => hn h.1, valuesOf]

private theorem valuesOf_pushAll_of_mem (networks : List Network) (hx : x ∈ m.valuesOf n) :
    (m.pushAll networks x).valuesOf n = m.valuesOf n := by
  induction networks generalizing m with
  | nil => rfl
  | cons first networks ih =>
    have hpush : (m.push first x).valuesOf n = m.valuesOf n := by
      rw [valuesOf_push, if_neg fun h => h.2 hx]
    change ((m.push first x).pushAll networks x).valuesOf n = _
    rw [ih (hpush ▸ hx), hpush]

theorem valuesOf_pushAll (networks : List Network) (hx : x ∉ m.valuesOf n) :
    (m.pushAll networks x).valuesOf n = m.valuesOf n ++ if n ∈ networks then [x] else [] := by
  induction networks generalizing m with
  | nil => exact (append_nil _).symm
  | cons first networks ih =>
    change ((m.push first x).pushAll networks x).valuesOf n = _
    have hpush := valuesOf_push m first n x
    by_cases hfirst : n = first
    · rw [if_pos ⟨hfirst, hx⟩] at hpush
      rw [valuesOf_pushAll_of_mem, hpush, if_pos (hfirst ▸ mem_cons_self)]
      rw [hpush]
      exact mem_append_right _ (mem_singleton_self x)
    · rw [if_neg fun h => hfirst h.1] at hpush
      have hmem : n ∈ first :: networks ↔ n ∈ networks := by
        rw [mem_cons, or_iff_right hfirst]
      rw [ih (hpush ▸ hx), hpush]
      simp only [hmem]

end NetworkMap
