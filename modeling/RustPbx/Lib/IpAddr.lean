import RustPbx.Lib.Str

/-!
IP addresses as Rust's `std::net` reads, prints and classifies them.

The reader consumes characters from the front; `IpAddr.parse` accepts a text only when all of it
is consumed. IPv6 text may abbreviate one run of zero groups and may end in a dotted quad.
-/

inductive IpAddr where
  | v4 (a b c d : UInt8)
  | v6 (s0 s1 s2 s3 s4 s5 s6 s7 : UInt16)
  deriving DecidableEq

namespace IpAddr

open Option

/-! ## Reading -/

/-- A reader takes a value from the front of a text, or fails and consumes nothing. -/
abbrev Reader (α : Type) := List Char → Option (α × List Char)

def readDigits (radix maxDigits : Nat) : Nat → Nat → Reader (Nat × Nat)
  | count, acc, [] => some ((count, acc), [])
  | count, acc, c :: cs =>
    match Str.toDigit radix c with
    | none => some ((count, acc), c :: cs)
    | some d =>
      if maxDigits < count + 1 then none
      else readDigits radix maxDigits (count + 1) (acc * radix + d) cs

def readNumber (radix maxDigits bound : Nat) (allowZeroPrefix : Bool) : Reader Nat := fun s => do
  let ((count, n), rest) ← readDigits radix maxDigits 0 0 s
  if count = 0 then none
  else if !allowZeroPrefix && s.head? = some '0' && 1 < count then none
  else if n < bound then some (n, rest)
  else none

/-- Read a separator before every element but the first. -/
def readSeparator (sep : Char) (index : Nat) (inner : Reader α) : Reader α := fun s => do
  if 0 < index then
    inner (← Str.stripChar sep s)
  else
    inner s

def readOctet (index : Nat) : Reader Nat :=
  readSeparator '.' index (readNumber 10 3 256 false)

def readIpv4 : Reader (Nat × Nat × Nat × Nat) := fun s => do
  let (a, s) ← readOctet 0 s
  let (b, s) ← readOctet 1 s
  let (c, s) ← readOctet 2 s
  let (d, s) ← readOctet 3 s
  return ((a, b, c, d), s)

/-- Read up to `room` IPv6 groups from position `index` on. A dotted quad ends the groups and fills
two of them; the flag tells whether one did. -/
def readGroups : (room index : Nat) → List Char → (List Nat × Bool) × List Char
  | 0, _, s => (([], false), s)
  | room + 1, index, s =>
    let quad := if 0 < room then readSeparator ':' index readIpv4 s else none
    match quad with
    | some ((a, b, c, d), rest) => (([a * 256 + b, c * 256 + d], true), rest)
    | none =>
      match readSeparator ':' index (readNumber 16 4 65536 true) s with
      | none => (([], false), s)
      | some (g, rest) =>
        let ((gs, dotted), rest) := readGroups room (index + 1) rest
        ((g :: gs, dotted), rest)

def readIpv6 : Reader (List Nat) := fun s => do
  let ((head, dotted), s) := readGroups 8 0 s
  if head.length = 8 then return (head, s)
  -- a dotted quad is not allowed before `::`
  if dotted then none
  let s ← Str.stripChar ':' s
  let s ← Str.stripChar ':' s
  let ((tail, _), s) := readGroups (8 - (head.length + 1)) 0 s
  return (head ++ List.replicate (8 - head.length - tail.length) 0 ++ tail, s)

def ofGroups : List Nat → Option IpAddr
  | [s0, s1, s2, s3, s4, s5, s6, s7] =>
    some (.v6 (.ofNat s0) (.ofNat s1) (.ofNat s2) (.ofNat s3) (.ofNat s4) (.ofNat s5)
      (.ofNat s6) (.ofNat s7))
  | _ => none

def read : Reader IpAddr := fun s =>
  match readIpv4 s with
  | some ((a, b, c, d), rest) => some (.v4 (.ofNat a) (.ofNat b) (.ofNat c) (.ofNat d), rest)
  | none => do
    let (groups, rest) ← readIpv6 s
    return (← ofGroups groups, rest)

def parse (s : List Char) : Option IpAddr :=
  match read s with
  | some (ip, []) => some ip
  | _ => none

example : parse "10.0.0.01".toList = none := by decide

def printGroups (gs : List UInt16) : List Char :=
  List.intercalate [':'] (gs.map fun g => Nat.toDigits 16 g.toNat)

/-- The longest run of zero groups, the first of equals, as start and length. -/
def longestZeros (gs : List UInt16) : Nat × Nat :=
  let step := fun (acc : (Nat × Nat) × Nat × Nat) (ig : UInt16 × Nat) =>
    let (longest, start, len) := acc
    if ig.1 = 0 then
      let start := if len = 0 then ig.2 else start
      let len := len + 1
      (if longest.2 < len then (start, len) else longest, start, len)
    else (longest, 0, 0)
  (gs.zipIdx.foldl step ((0, 0), 0, 0)).1

def printQuad (a b c d : Nat) : List Char :=
  List.intercalate ['.'] ([a, b, c, d].map (Nat.toDigits 10))

def print : IpAddr → List Char
  | .v4 a b c d => printQuad a.toNat b.toNat c.toNat d.toNat
  | .v6 0 0 0 0 0 0xffff s6 s7 =>
    "::ffff:".toList ++
      printQuad (s6.toNat / 256) (s6.toNat % 256) (s7.toNat / 256) (s7.toNat % 256)
  | .v6 s0 s1 s2 s3 s4 s5 s6 s7 =>
    let gs := [s0, s1, s2, s3, s4, s5, s6, s7]
    let (start, len) := longestZeros gs
    if 1 < len then
      printGroups (gs.take start) ++ "::".toList ++ printGroups (gs.drop (start + len))
    else printGroups gs

/-! ### Reading what is printed -/

theorem readDigits_append (h : Str.foldDigits radix acc digits = some n)
    (hlen : count + digits.length ≤ maxDigits)
    (hrest : ∀ c, rest.head? = some c → Str.toDigit radix c = none) :
    readDigits radix maxDigits count acc (digits ++ rest) =
      some ((count + digits.length, n), rest) := by
  induction digits generalizing count acc with
  | nil =>
    obtain rfl : acc = n := some.inj h
    cases rest with
    | nil => rfl
    | cons c cs => simp [readDigits, hrest c rfl]
  | cons c cs ih =>
    obtain ⟨d, hd, hfold⟩ := bind_eq_some_iff.mp h
    rw [List.length_cons] at hlen
    rw [List.cons_append, readDigits, hd]
    dsimp only
    rw [if_neg (by omega), ih hfold (by omega), List.length_cons, Nat.add_right_comm, Nat.add_assoc]

theorem readNumber_toDigits (h : n < 256)
    (hrest : ∀ c, rest.head? = some c → Str.toDigit 10 c = none) :
    readNumber 10 3 256 false (Nat.toDigits 10 n ++ rest) = some (n, rest) := by
  have hlen : (Nat.toDigits 10 n).length ≤ 3 :=
    (Nat.length_toDigits_le_iff (by omega) (by omega)).mpr (by omega)
  have hpos : (Nat.toDigits 10 n).length ≠ 0 := by simp [Nat.toDigits_ne_nil]
  have hhead : (Nat.toDigits 10 n ++ rest).head? = (Nat.toDigits 10 n).head? := by
    rw [List.head?_append_of_ne_nil _ Nat.toDigits_ne_nil]
  rw [readNumber, readDigits_append (Str.foldDigits_toDigits (by omega) Str.toDigit_digitChar _)
    (by omega) hrest]
  simp only [bind_eq_bind, bind_some, Nat.zero_add, hpos, if_false, hhead, h, if_true]
  rw [if_neg]
  simp only [Bool.not_false, Bool.true_and, Bool.and_eq_true, decide_eq_true_eq, not_and]
  intro hz
  rw [Str.eq_zero_of_head_toDigits hz]
  decide

theorem readIpv4_printQuad (ha : a < 256) (hb : b < 256) (hc : c < 256) (hd : d < 256) :
    readIpv4 (printQuad a b c d) = some ((a, b, c, d), []) := by
  have hdot (s : List Char) : ∀ c, ('.' :: s).head? = some c → Str.toDigit 10 c = none := by
    intro c h
    obtain rfl : '.' = c := some.inj h
    decide
  have hquad : printQuad a b c d = Nat.toDigits 10 a ++ '.' :: (Nat.toDigits 10 b ++
      '.' :: (Nat.toDigits 10 c ++ '.' :: (Nat.toDigits 10 d ++ []))) := by
    simp [printQuad]
  have hsep {n : Nat} (hn : n < 256) (index : Nat) (s : List Char)
      (hs : ∀ c, s.head? = some c → Str.toDigit 10 c = none) :
      readOctet (index + 1) ('.' :: (Nat.toDigits 10 n ++ s)) = some (n, s) := by
    simp [readOctet, readSeparator, Str.stripChar, readNumber_toDigits hn hs]
  have hfirst (s : List Char) (hs : ∀ c, s.head? = some c → Str.toDigit 10 c = none) :
      readOctet 0 (Nat.toDigits 10 a ++ s) = some (a, s) := by
    simp [readOctet, readSeparator, readNumber_toDigits ha hs]
  rw [readIpv4, hquad, hfirst _ (hdot _)]
  simp only [bind_eq_bind, bind_some]
  rw [hsep hb 0 _ (hdot _)]
  simp only [bind_some]
  rw [hsep hc 1 _ (hdot _)]
  simp only [bind_some]
  rw [hsep hd 2 [] (by simp)]
  rfl

theorem no_colon_in_print_v4 (a b c d : UInt8) : ':' ∉ print (.v4 a b c d) := by
  have hdigits (n : Nat) : ':' ∉ Nat.toDigits 10 n := fun hmem =>
    absurd (Nat.isDigit_of_mem_toDigits (by omega) (by omega) hmem) (by decide)
  change ':' ∉ printQuad a.toNat b.toNat c.toNat d.toNat
  simp [printQuad, hdigits]

theorem parse_print_v4 (a b c d : UInt8) : parse (print (.v4 a b c d)) = some (.v4 a b c d) := by
  change parse (printQuad a.toNat b.toNat c.toNat d.toNat) = _
  simp only [parse, read, readIpv4_printQuad a.toNat_lt b.toNat_lt c.toNat_lt d.toNat_lt,
    UInt8.ofNat_toNat]

theorem readDigits_suffix (h : readDigits radix maxDigits count acc s = some (r, rest)) :
    rest <:+ s := by
  induction s generalizing count acc with
  | nil =>
    cases h
    exact List.suffix_rfl
  | cons c cs ih =>
    rw [readDigits] at h
    split at h
    · cases h
      exact List.suffix_rfl
    · split at h
      · cases h
      · exact (ih h).trans (List.suffix_cons c cs)

theorem readNumber_suffix (h : readNumber radix maxDigits bound zeros s = some (n, rest)) :
    rest <:+ s := by
  obtain ⟨⟨⟨count, m⟩, t⟩, hdigits, h⟩ := bind_eq_some_iff.mp h
  dsimp only at h
  split at h
  · cases h
  split at h
  · cases h
  split at h
  · cases h
    exact readDigits_suffix hdigits
  · cases h

theorem stripChar_of_not_mem (h : c ∉ s) : Str.stripChar c s = none := by
  cases s with
  | nil => rfl
  | cons d ds =>
    rw [Str.stripChar, if_neg]
    rintro rfl
    exact h List.mem_cons_self

theorem readSeparator_of_not_mem (h : c ∉ s) :
    readSeparator c (index + 1) reader s = none := by
  simp [readSeparator, stripChar_of_not_mem h]

theorem readGroups_of_no_colon (h : ':' ∉ s) :
    readGroups room (index + 1) s = (([], false), s) := by
  cases room with
  | zero => rfl
  | succ room => simp [readGroups, readSeparator_of_not_mem h]

theorem readIpv6_of_no_colon (h : ':' ∉ s) (h4 : readIpv4 s = none) : readIpv6 s = none := by
  have hgroups (room : Nat) : ∃ gs dotted rest, readGroups (room + 1) 0 s = ((gs, dotted), rest) ∧
      gs.length ≤ 1 ∧ ':' ∉ rest := by
    simp only [readGroups, readSeparator, Nat.lt_irrefl, if_false, h4, ite_self]
    cases hn : readNumber 16 4 65536 true s with
    | none => exact ⟨[], false, s, rfl, by simp, h⟩
    | some r =>
      obtain ⟨g, rest⟩ := r
      have hrest : ':' ∉ rest := fun hmem => h ((readNumber_suffix hn).mem hmem)
      exact ⟨[g], false, rest, by simp [readGroups_of_no_colon hrest], by simp, hrest⟩
  obtain ⟨gs, dotted, rest, hread, hlen, hrest⟩ := hgroups 7
  rw [readIpv6, hread]
  dsimp only
  rw [if_neg (by omega)]
  cases dotted <;> simp [stripChar_of_not_mem hrest]

theorem eq_v4_of_parse (h : ':' ∉ s) (hparse : parse s = some ip) :
    ∃ a b c d, ip = .v4 a b c d := by
  rw [parse, read] at hparse
  cases h4 : readIpv4 s with
  | none => simp [h4, readIpv6_of_no_colon h h4] at hparse
  | some r =>
    obtain ⟨⟨a, b, c, d⟩, rest⟩ := r
    simp only [h4] at hparse
    cases rest with
    | nil =>
      cases hparse
      exact ⟨_, _, _, _, rfl⟩
    | cons _ _ => cases hparse

def isPrivateV4 (a b : UInt8) : Bool :=
  a == 10 || (a == 172 && 16 ≤ b && b ≤ 31) || (a == 192 && b == 168)

def isLoopback : IpAddr → Bool
  | .v4 a _ _ _ => a == 127
  | ip => ip == .v6 0 0 0 0 0 0 0 1

def isUnspecified : IpAddr → Bool
  | .v4 a b c d => a == 0 && b == 0 && c == 0 && d == 0
  | ip => ip == .v6 0 0 0 0 0 0 0 0

end IpAddr
