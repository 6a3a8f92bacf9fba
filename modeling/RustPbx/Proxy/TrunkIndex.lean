import RustPbx.Lib.IpNet
import RustPbx.Routing.Match

/-!
Which trunk an address belongs to.

A reload computes the networks of each trunk from its hosts and its destinations and puts the
trunk's name under them; a lookup by an address goes through the names under the networks that it is
in, and reads each trunk from the map of trunks.
-/

namespace RustPbx.Proxy

open Routing List NetworkMap

inductive TrunkDirection where
  | inbound
  | outbound
  | bidirectional
  deriving DecidableEq

/-- A trunk with the fields by which a request is found to come from it. -/
structure InboundTrunk extends TrunkConfig where
  direction : Option TrunkDirection := none
  backupDest : Option String := none
  inboundHosts : List String := []
  incomingFromUserPrefix : Option String := none
  incomingToUserPrefix : Option String := none
  didNumbers : List String := []

structure TrunkContext where
  id : Option Int
  name : String
  didNumbers : List String
  deriving DecidableEq

/-- The libraries: `parseNet` reads an address with the length of its network. -/
structure TrunkLibs where
  regex : RegexLib
  parseNet : List Char → Option IpNet
  trie : PrefixTrie String

variable (libs : TrunkLibs)

def regexChars : List Char :=
  ['^', '$', '.', '*', '?', '[', ']', '(', ')', '{', '}', '|', '\\']

def matchesUserPrefix (pattern value : String) : Bool :=
  let trimmed := Str.trim pattern
  if trimmed = "" then true
  else if trimmed.toList.any (· ∈ regexChars) then
    match libs.regex.compile trimmed with
    | .ok find => (find value).isSome
    | .error _ => false
  else Str.startsWith value trimmed

def matchesIncomingUser (pattern user : Option String) : Bool :=
  match pattern with
  | some pattern => Str.trim pattern == "" || matchesUserPrefix libs pattern (user.getD "")
  | none => true

def InboundTrunk.matchesIncomingUserPrefixes (trunk : InboundTrunk)
    (fromUser toUser : Option String) : Bool :=
  matchesIncomingUser libs trunk.incomingFromUserPrefix fromUser &&
    matchesIncomingUser libs trunk.incomingToUserPrefix toUser

def trimBrackets (s : List Char) : List Char :=
  let bracket := fun c => c == '<' || c == '>'
  (s.dropWhile bracket).rdropWhile bracket

def parseNetwork (s : List Char) : Option Network :=
  if s = [] then none
  else
    match libs.parseNet s with
    | some net => some net.trunc
    | none => ((IpAddr.parseSocket s).or (IpAddr.parse s)).map fun ip => (IpNet.ofAddr ip).trunc

def hostText (host : String) : List Char :=
  trimBrackets (Str.trimChars host.toList)

def destText (dest : String) : List Char :=
  let dest := String.ofList (hostText dest)
  (((Str.stripStart "sip:" dest).or (Str.stripStart "sips:" dest)).getD dest).toList

def hostNetwork (host : String) : Option Network :=
  parseNetwork libs (hostText host)

def destToIpnet (dest : String) : Option Network :=
  parseNetwork libs (destText dest)

def InboundTrunk.networks (trunk : InboundTrunk) : List Network :=
  if trunk.direction = some .outbound then []
  else
    trunk.inboundHosts.filterMap (hostNetwork libs) ++ (destToIpnet libs trunk.dest).toList ++
      (trunk.backupDest.bind (destToIpnet libs)).toList

abbrev Trunks := Table String InboundTrunk

def prefixLength (pattern : Option String) : Nat :=
  ((pattern.map Str.trim).map fun s => Str.byteLen s.toList).getD 0

/-- The order of the candidates: longer caller prefix, longer callee prefix, lower identifier. -/
def InboundTrunk.before (a b : InboundTrunk) : Bool :=
  let key := fun t : InboundTrunk =>
    (prefixLength t.incomingFromUserPrefix, prefixLength t.incomingToUserPrefix,
      t.id.getD (2 ^ 63 - 1))
  let (fromA, toA, idA) := key a
  let (fromB, toB, idB) := key b
  fromB < fromA || (fromA == fromB && (toB < toA || (toA == toB && idA ≤ idB)))

def buildIndex (trunks : Trunks) : NetworkMap String :=
  let inbound := trunks.entries.filter fun row => row.2.direction ≠ some .outbound
  (inbound.insertionSort fun row row' => row.2.before row'.2).foldl
    (fun index row => index.pushAll (row.2.networks libs) row.1) .empty

/-- The text is a network with its length, or the address of a socket or an address alone. -/
def NamesNetwork (text : List Char) (n : Network) : Prop :=
  text ≠ [] ∧ ((∃ net, libs.parseNet text = some net ∧ n = net.trunc) ∨
    libs.parseNet text = none ∧ ∃ ip, (IpAddr.parseSocket text).or (IpAddr.parse text) = some ip ∧
      n = (IpNet.ofAddr ip).trunc)

/-- The trunk takes calls, and one of its hosts or its destinations is the network. -/
def InboundTrunk.HasNetwork (trunk : InboundTrunk) (n : Network) : Prop :=
  trunk.direction ≠ some .outbound ∧
    ((∃ host ∈ trunk.inboundHosts, NamesNetwork libs (hostText host) n) ∨
    NamesNetwork libs (destText trunk.dest) n ∨
      ∃ backup, trunk.backupDest = some backup ∧ NamesNetwork libs (destText backup) n)

variable {libs}

theorem parseNetwork_eq_some_iff : parseNetwork libs text = some n ↔ NamesNetwork libs text n := by
  unfold parseNetwork NamesNetwork
  by_cases htext : text = []
  · simp [htext]
  · cases libs.parseNet text <;> simp [htext, eq_comm]

theorem InboundTrunk.mem_networks_iff {trunk : InboundTrunk} :
    n ∈ trunk.networks libs ↔ trunk.HasNetwork libs n := by
  unfold InboundTrunk.networks InboundTrunk.HasNetwork
  split
  next hout => simp [hout]
  next hin =>
    simp [hin, hostNetwork, destToIpnet, parseNetwork_eq_some_iff, Option.bind_eq_some_iff]

theorem InboundTrunk.networks_of_outbound {trunk : InboundTrunk}
    (h : trunk.direction = some .outbound) : trunk.networks libs = [] :=
  if_pos h

variable {trunks : Trunks}

private theorem mem_foldl_pushAll {rows : List (Sigma fun _ : String => InboundTrunk)}
    {index : NetworkMap String} : name ∈
      (rows.foldl (fun index row => index.pushAll (row.2.networks libs) row.1) index).valuesOf n
      ↔ name ∈ index.valuesOf n ∨ ∃ row ∈ rows, row.1 = name ∧ n ∈ row.2.networks libs := by
  induction rows generalizing index with
  | nil => simp
  | cons row rows ih =>
    rw [foldl_cons, ih, mem_pushAll, exists_mem_cons_iff, or_assoc,
      and_comm, eq_comm (a := name)]

/-- **The names of a network** are those of the trunks that have it. -/
theorem mem_buildIndex : name ∈ (buildIndex libs trunks).valuesOf n ↔
      ∃ trunk, trunks.lookup name = some trunk ∧ n ∈ trunk.networks libs := by
  unfold buildIndex
  rw [mem_foldl_pushAll]
  constructor
  · rintro (h | ⟨⟨_, trunk⟩, hrow, rfl, hn⟩)
    · exact absurd h not_mem_nil
    · have hmem := (mem_filter.mp ((mem_insertionSort _).mp hrow)).1
      exact ⟨trunk, Table.Row.lookup hmem, hn⟩
  · rintro ⟨trunk, hlookup, hn⟩
    refine .inr ⟨⟨name, trunk⟩, (mem_insertionSort _).mpr (mem_filter.mpr ?_), rfl, hn⟩
    refine ⟨Table.row_of_lookup hlookup, decide_eq_true fun hout => ?_⟩
    rw [InboundTrunk.networks_of_outbound hout] at hn
    exact not_mem_nil hn

/-- The trunk is found under a network that the address is in. -/
def InboundTrunk.Covers (libs : TrunkLibs) (trunk : InboundTrunk) (addr : IpAddr) : Prop :=
  ∃ n ∈ trunk.networks libs, n.Covers addr

/-- **The candidates for an address** are the trunks that cover it. -/
theorem candidate_iff :
    (∃ names ∈ libs.trie.coverValues (buildIndex libs trunks) addr, name ∈ names) ↔
      ∃ trunk, trunks.lookup name = some trunk ∧ trunk.Covers libs addr := by
  rw [PrefixTrie.mem_coverValues]
  constructor
  · rintro ⟨n, hcovers, hname⟩
    obtain ⟨trunk, hlookup, hn⟩ := mem_buildIndex.mp hname
    exact ⟨trunk, hlookup, n, hn, hcovers⟩
  · rintro ⟨trunk, hlookup, n, hn, hcovers⟩
    exact ⟨n, hcovers, mem_buildIndex.mpr ⟨trunk, hlookup, hn⟩⟩

/-! ## The order of the candidates -/

theorem InboundTrunk.before_total (a b : InboundTrunk) : a.before b ∨ b.before a := by
  simp only [InboundTrunk.before, Bool.or_eq_true, Bool.and_eq_true, decide_eq_true_eq, beq_iff_eq]
  omega

theorem InboundTrunk.before_trans {a : InboundTrunk} (hab : a.before b) (hbc : b.before c) :
    a.before c := by
  simp only [InboundTrunk.before, Bool.or_eq_true, Bool.and_eq_true, decide_eq_true_eq,
    beq_iff_eq] at hab hbc ⊢
  omega

private theorem pairwise_insertionSort_stable {S : α → α → Prop} [DecidableRel r]
    (htotal : ∀ a b, r a b ∨ r b a) (htrans : ∀ a b c, r a b → r b c → r a c) {l : List α}
    (h : l.Pairwise S) : (l.insertionSort r).Pairwise fun a b => r a b ∧ (r b a → S a b) := by
  have hinsert : ∀ (a : α) (sorted : List α), (∀ b ∈ sorted, S a b) →
      (sorted.Pairwise fun a b => r a b ∧ (r b a → S a b)) →
      (sorted.orderedInsert r a).Pairwise fun a b => r a b ∧ (r b a → S a b) := by
    intro a sorted hfirst hsorted
    induction hsorted with
    | nil => exact pairwise_singleton _ _
    | @cons b sorted hb hsorted ih =>
      by_cases hab : r a b
      · rw [orderedInsert_cons_of_le _ _ hab]
        refine .cons ?_ (.cons hb hsorted)
        intro c hc
        refine ⟨?_, fun _ => hfirst c hc⟩
        obtain rfl | hc := mem_cons.mp hc
        · exact hab
        · exact htrans a b c hab (hb c hc).1
      · rw [orderedInsert_of_not_le _ _ hab]
        refine .cons ?_ (ih fun c hc => hfirst c (mem_cons_of_mem b hc))
        intro c hc
        obtain rfl | hc := mem_cons.mp ((perm_orderedInsert r a sorted).mem_iff.mp hc)
        · exact ⟨(htotal b c).resolve_right hab, fun h => absurd h hab⟩
        · exact hb c hc
  induction h with
  | nil => exact .nil
  | @cons a l hfirst _ ih =>
    exact hinsert a _ (fun b hb => hfirst b ((mem_insertionSort r).mp hb)) ih

/-- The first trunk goes before the second one: by the order, or, if they are equal in it, by
the map they come from. -/
def Trunks.Precedes (trunks : Trunks) (row row' : Sigma fun _ : String => InboundTrunk) : Prop :=
  row.2.before row'.2 ∧ (row'.2.before row.2 → [row, row'].Sublist trunks.entries)

private theorem not_sublist_swap (hnodup : l.Nodup)
    (h : [a, b].Sublist l) : ¬ [b, a].Sublist l := by
  induction hnodup with
  | nil => exact fun _ => nomatch h
  | @cons x l hx _ ih =>
    intro h'
    cases h with
    | cons _ h =>
      cases h' with
      | cons _ h' => exact ih h h'
      | cons_cons _ h' => exact hx b (h.subset (mem_cons_of_mem a mem_cons_self)) rfl
    | cons_cons _ h =>
      have hb : b ∈ l := h.subset mem_cons_self
      cases h' with
      | cons _ h' => exact hx a (h'.subset (mem_cons_of_mem b mem_cons_self)) rfl
      | cons_cons _ _ => exact hx _ hb rfl

theorem Trunks.Precedes.asymm (h : trunks.Precedes row row') : ¬ trunks.Precedes row' row := by
  intro h'
  exact not_sublist_swap trunks.nodupKeys.nodup (h.2 h'.1) (h'.2 h.1)

def candidateRows (trunks : Trunks) : List (Sigma fun _ : String => InboundTrunk) :=
  (trunks.entries.filter fun row => row.2.direction ≠ some .outbound).insertionSort
    fun row row' => row.2.before row'.2

theorem mem_candidateRows : ⟨name, trunk⟩ ∈ candidateRows trunks ↔
      trunks.lookup name = some trunk ∧ trunk.direction ≠ some .outbound := by
  rw [candidateRows, mem_insertionSort, mem_filter, decide_eq_true_iff]
  exact and_congr_left' ⟨fun h => Table.Row.lookup h, fun h => Table.row_of_lookup h⟩

theorem pairwise_candidateRows : (candidateRows trunks).Pairwise trunks.Precedes := by
  have hlisted : (trunks.entries.filter fun row => row.2.direction ≠ some .outbound).Pairwise
      fun row row' => [row, row'].Sublist trunks.entries := by
    rw [pairwise_iff_forall_sublist]
    intro row row' h
    exact h.trans filter_sublist
  exact pairwise_insertionSort_stable
    (r := fun row row' : Sigma fun _ : String => InboundTrunk => row.2.before row'.2)
    (fun a b => a.2.before_total b.2) (fun _ _ _ => InboundTrunk.before_trans) hlisted

private theorem valuesOf_foldl_pushAll {rows : List (Sigma fun _ : String => InboundTrunk)}
    {index : NetworkMap String} (hkeys : rows.NodupKeys)
    (hnew : ∀ row ∈ rows, row.1 ∉ index.valuesOf n) :
    (rows.foldl (fun index row => index.pushAll (row.2.networks libs) row.1) index).valuesOf n =
      index.valuesOf n ++ (rows.filter fun row => n ∈ row.2.networks libs).map (·.1) := by
  induction rows generalizing index with
  | nil => exact (append_nil _).symm
  | cons row rows ih =>
    obtain ⟨hfirst, hkeys⟩ := nodupKeys_cons.mp hkeys
    have hpush := valuesOf_pushAll (row.2.networks libs) (hnew row mem_cons_self)
    have hnew : ∀ row' ∈ rows, row'.1 ∉ (index.pushAll (row.2.networks libs) row.1).valuesOf n := by
      intro row' hrow' hmem
      obtain hmem | ⟨-, heq⟩ := mem_pushAll.mp hmem
      · exact hnew row' (mem_cons_of_mem row hrow') hmem
      · exact hfirst (heq ▸ mem_map_of_mem hrow')
    rw [foldl_cons, ih hkeys hnew, hpush, append_assoc]
    by_cases hn : n ∈ row.2.networks libs
    · rw [if_pos hn, filter_cons, if_pos (decide_eq_true hn)]
      rfl
    · rw [if_neg hn, filter_cons, if_neg fun h => hn (of_decide_eq_true h)]
      rfl

theorem valuesOf_buildIndex : (buildIndex libs trunks).valuesOf n =
      ((candidateRows trunks).filter fun row => n ∈ row.2.networks libs).map (·.1) := by
  have hkeys : (candidateRows trunks).NodupKeys :=
    (perm_nodupKeys (perm_insertionSort _ _)).mpr
      (trunks.nodupKeys.sublist filter_sublist)
  exact valuesOf_foldl_pushAll hkeys fun _ _ => not_mem_nil

end RustPbx.Proxy
