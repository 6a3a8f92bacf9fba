import RustPbx.Lib.IpAddr

/-!
The text of an IPv6 address is read back.

A run of zero groups that the text leaves out is filled in again: `longestZeros_spec` says that only
zeros are left out, and `readGroups_printGroups` that the groups before and behind the gap are read
as they were printed.
-/

namespace IpAddr

open List

theorem toDigit_digitChar_hex (d : Nat) (h : d < 16) : Str.toDigit 16 d.digitChar = some d := by
  interval_cases d <;> decide

theorem readNumber_hex (g : UInt16) (hrest : ∀ c, rest.head? = some c → Str.toDigit 16 c = none) :
    readNumber 16 4 65536 true (Nat.toDigits 16 g.toNat ++ rest) = some (g.toNat, rest) := by
  have hlen : (Nat.toDigits 16 g.toNat).length ≤ 4 :=
    (Nat.length_toDigits_le_iff (by omega) (by omega)).mpr g.toNat_lt
  have hpos : (Nat.toDigits 16 g.toNat).length ≠ 0 := by simp [Nat.toDigits_ne_nil]
  rw [readNumber, readDigits_append
    (Str.foldDigits_toDigits (by omega) toDigit_digitChar_hex g.toNat) (by omega) hrest]
  have hlt : g.toNat < 65536 := g.toNat_lt
  simp [hlt]

theorem readNumber_eq_none (h : ∀ c, s.head? = some c → Str.toDigit radix c = none) :
    readNumber radix maxDigits bound zeros s = none := by
  have hread : readDigits radix maxDigits 0 0 s = some ((0, 0), s) := by
    cases s with
    | nil => rfl
    | cons c cs => rw [readDigits, h c rfl]
  rw [readNumber, hread]
  rfl

theorem toDigit_colon : Str.toDigit radix ':' = none := rfl

theorem head_colon (s : List Char) :
    ∀ c, (':' :: s).head? = some c → Str.toDigit radix c = none := by
  intro c h
  obtain rfl : ':' = c := Option.some.inj h
  exact toDigit_colon

theorem readIpv4_of_no_dot (h : '.' ∉ s) : readIpv4 s = none := by
  rw [readIpv4]
  cases hfirst : readOctet 0 s with
  | none => rfl
  | some r =>
    obtain ⟨n, rest⟩ := r
    have hrest : '.' ∉ rest := by
      have hread : readNumber 10 3 256 false s = some (n, rest) := by
        simpa [readOctet, readSeparator] using hfirst
      exact fun hmem => h ((readNumber_suffix hread).mem hmem)
    have hsecond : readOctet 1 rest = none := readSeparator_of_not_mem hrest
    simp [hsecond]

theorem readQuad_of_no_dot (h : '.' ∉ s) (index : Nat) :
    readSeparator ':' index readIpv4 s = none := by
  rw [readSeparator]
  split
  · cases hstrip : Str.stripChar ':' s with
    | none => rfl
    | some rest =>
      have hrest : '.' ∉ rest := by
        cases s with
        | nil => cases hstrip
        | cons c cs =>
          rw [Str.stripChar] at hstrip
          split at hstrip
          · cases hstrip
            exact fun hmem => h (mem_cons_of_mem c hmem)
          · cases hstrip
      exact readIpv4_of_no_dot hrest
  · exact readIpv4_of_no_dot h

/-! ## Groups -/

def colonGroups : List UInt16 → List Char
  | [] => []
  | g :: gs => ':' :: (Nat.toDigits 16 g.toNat ++ colonGroups gs)

theorem printGroups_cons (g : UInt16) (gs : List UInt16) :
    printGroups (g :: gs) = Nat.toDigits 16 g.toNat ++ colonGroups gs := by
  induction gs generalizing g with
  | nil => simp [printGroups, colonGroups]
  | cons g' gs ih =>
    rw [colonGroups, ← ih g']
    simp [printGroups]

theorem dot_not_mem_hex (n : Nat) : '.' ∉ Nat.toDigits 16 n := by
  induction n using Nat.strongRecOn with
  | _ n ih =>
    rw [Nat.toDigits_eq_if (by omega)]
    have hchar : ∀ d, d < 16 → '.' ≠ d.digitChar := by decide
    split
    next hlt => simp [hchar n hlt]
    next hge =>
      rw [mem_append, mem_singleton, not_or]
      exact ⟨ih (n / 16) (by omega), hchar _ (Nat.mod_lt n (by omega))⟩

theorem dot_not_mem_colonGroups : '.' ∉ colonGroups gs := by
  induction gs with
  | nil => exact not_mem_nil
  | cons g gs ih => simp [colonGroups, dot_not_mem_hex, ih]

theorem dot_not_mem_printGroups (gs : List UInt16) : '.' ∉ printGroups gs := by
  cases gs with
  | nil => exact not_mem_nil
  | cons g gs =>
    rw [printGroups_cons, mem_append, not_or]
    exact ⟨dot_not_mem_hex _, dot_not_mem_colonGroups⟩

/-- What may stand behind the groups: nothing, or the gap. -/
def EndsGroups (rest : List Char) : Prop :=
  rest = [] ∨ ∃ s, rest = ':' :: ':' :: s ∧ '.' ∉ s

namespace EndsGroups

variable {rest : List Char}

theorem no_dot (h : EndsGroups rest) : '.' ∉ rest := by
  rcases h with rfl | ⟨s, rfl, hs⟩
  · exact not_mem_nil
  · simpa using hs

theorem no_digit (h : EndsGroups rest) (gs : List UInt16) :
    ∀ c, (colonGroups gs ++ rest).head? = some c → Str.toDigit 16 c = none := by
  cases gs with
  | cons g gs => exact head_colon _
  | nil =>
    rcases h with rfl | ⟨s, rfl, -⟩
    · nofun
    · exact head_colon _

theorem no_group (h : EndsGroups rest) (index : Nat) :
    readSeparator ':' index (readNumber 16 4 65536 true) rest = none := by
  rw [readSeparator]
  split
  · rcases h with rfl | ⟨s, rfl, -⟩
    · rfl
    · change readNumber 16 4 65536 true (':' :: s) = none
      exact readNumber_eq_none (head_colon s)
  · exact readNumber_eq_none (h.no_digit [])

end EndsGroups

theorem readGroups_step {g : UInt16} (hdot : '.' ∉ rest)
    (hrest : ∀ c, rest.head? = some c → Str.toDigit 16 c = none) :
    readGroups (room + 1) (index + 1) (':' :: (Nat.toDigits 16 g.toNat ++ rest)) =
      let ((gs, dotted), rest) := readGroups room (index + 2) rest
      ((g.toNat :: gs, dotted), rest) := by
  have hquad : readSeparator ':' (index + 1) readIpv4 (':' :: (Nat.toDigits 16 g.toNat ++ rest)) =
      none := readQuad_of_no_dot (by simp [dot_not_mem_hex, hdot]) _
  have hgroup : readSeparator ':' (index + 1) (readNumber 16 4 65536 true)
      (':' :: (Nat.toDigits 16 g.toNat ++ rest)) = some (g.toNat, rest) := by
    simp [readSeparator, Str.stripChar, readNumber_hex g hrest]
  rw [readGroups, hquad, ite_self, hgroup]

theorem readGroups_colonGroups (h : EndsGroups rest) (hroom : gs.length ≤ room) (index : Nat) :
    readGroups room (index + 1) (colonGroups gs ++ rest) = ((gs.map (·.toNat), false), rest) := by
  induction gs generalizing room index with
  | nil =>
    cases room with
    | zero => rfl
    | succ room =>
      rw [colonGroups, nil_append, readGroups, readQuad_of_no_dot h.no_dot, ite_self,
        h.no_group]
      rfl
  | cons g gs ih =>
    obtain ⟨room, rfl⟩ : ∃ r, room = r + 1 := ⟨room - 1, by simp at hroom; omega⟩
    have hdot : '.' ∉ colonGroups gs ++ rest := by
      simp [dot_not_mem_colonGroups, h.no_dot]
    rw [colonGroups, cons_append, append_assoc, readGroups_step hdot (h.no_digit gs),
      ih (by simpa using hroom)]
    rfl

theorem readGroups_printGroups (h : EndsGroups rest) (hroom : gs.length ≤ room) :
    readGroups room 0 (printGroups gs ++ rest) = ((gs.map (·.toNat), false), rest) := by
  have hdot : '.' ∉ printGroups gs ++ rest := by simp [dot_not_mem_printGroups, h.no_dot]
  cases room with
  | zero =>
    obtain rfl : gs = [] := length_eq_zero_iff.mp (Nat.le_zero.mp hroom)
    rfl
  | succ room =>
    rw [readGroups, readQuad_of_no_dot hdot, ite_self]
    cases gs with
    | nil =>
      have hnone := h.no_group 0
      simp [printGroups, hnone]
    | cons g gs =>
      have hgroup : readSeparator ':' 0 (readNumber 16 4 65536 true)
          (printGroups (g :: gs) ++ rest) = some (g.toNat, colonGroups gs ++ rest) := by
        rw [printGroups_cons, append_assoc, readSeparator, if_neg (Nat.lt_irrefl 0),
          readNumber_hex g (h.no_digit gs)]
      have hgroups := readGroups_colonGroups h (Nat.le_of_succ_le_succ hroom) 0
      rw [hgroup]
      dsimp only
      rw [hgroups]
      rfl

def Zeros (gs : List UInt16) (start len : Nat) : Prop :=
  ∀ i, start ≤ i → i < start + len → gs[i]? = some 0

/-- One group of the search for the longest run: the longest so far, and the one it may be in. -/
def zerosStep (acc : (Nat × Nat) × Nat × Nat) (ig : UInt16 × Nat) : (Nat × Nat) × Nat × Nat :=
  let (longest, start, len) := acc
  if ig.1 = 0 then
    let start := if len = 0 then ig.2 else start
    let len := len + 1
    (if longest.2 < len then (start, len) else longest, start, len)
  else (longest, 0, 0)

/-- Both runs of the search are zeros, of the `n` groups it has seen. -/
structure Searched (gs : List UInt16) (n : Nat) (acc : (Nat × Nat) × Nat × Nat) : Prop where
  longest : Zeros gs acc.1.1 acc.1.2
  longest_le : acc.1.1 + acc.1.2 ≤ n
  current : acc.2.2 = 0 ∨ acc.2.1 + acc.2.2 = n ∧ Zeros gs acc.2.1 acc.2.2

theorem Searched.step (h : Searched gs n acc) (hg : gs[n]? = some g) :
    Searched gs (n + 1) (zerosStep acc (g, n)) := by
  obtain ⟨longest, start, len⟩ := acc
  rw [zerosStep]
  split
  next hzero =>
    obtain rfl : g = 0 := hzero
    -- The current run grows by this group, or starts with it.
    have hgrown : (if len = 0 then n else start) + (len + 1) = n + 1 ∧
        Zeros gs (if len = 0 then n else start) (len + 1) := by
      rcases h.current with hlen | ⟨hend, hzeros⟩
      · have hlen : len = 0 := hlen
        rw [if_pos hlen, hlen]
        refine ⟨rfl, fun i hle hlt => ?_⟩
        obtain rfl : i = n := by omega
        exact hg
      · have hend : start + len = n := hend
        split
        next hlen =>
          refine ⟨by omega, fun i hle hlt => ?_⟩
          obtain rfl : i = n := by omega
          exact hg
        · refine ⟨by omega, fun i hle hlt => ?_⟩
          by_cases hlast : i = n
          · rw [hlast]
            exact hg
          · exact hzeros i hle (by dsimp only; omega)
    have hlongest_le : longest.1 + longest.2 ≤ n := h.longest_le
    dsimp only
    constructor
    · split
      · exact hgrown.2
      · exact h.longest
    · dsimp only
      split
      · exact Nat.le_of_eq hgrown.1
      · omega
    · exact .inr hgrown
  · exact ⟨h.longest, Nat.le_succ_of_le h.longest_le, .inl rfl⟩

theorem Searched.foldl (h : Searched gs n acc) (htodo : gs.drop n = todo) :
    Searched gs (n + todo.length) ((todo.zipIdx n).foldl zerosStep acc) := by
  induction todo generalizing n acc with
  | nil => exact h
  | cons g todo ih =>
    have hg : gs[n]? = some g := by
      rw [← head?_drop, htodo, head?_cons]
    have hrest : gs.drop (n + 1) = todo := by
      rw [← drop_drop, htodo, drop_one, tail_cons]
    have hlength : n + 1 + todo.length = n + (g :: todo).length := by
      rw [length_cons]
      omega
    exact hlength ▸ ih (h.step hg) hrest

/-- The longest run lies within the groups, and all of it is zero. -/
theorem longestZeros_spec : Zeros gs (longestZeros gs).1 (longestZeros gs).2 ∧
      (longestZeros gs).1 + (longestZeros gs).2 ≤ gs.length := by
  have hstart : Searched gs 0 ((0, 0), 0, 0) :=
    ⟨fun i hle hlt => absurd hlt (Nat.not_lt_of_le hle), Nat.le_refl 0, .inl rfl⟩
  have hend := hstart.foldl drop_zero
  exact ⟨hend.longest, Nat.zero_add gs.length ▸ hend.longest_le⟩

theorem fill_gap (hzeros : Zeros gs start len) :
    gs.take start ++ replicate len 0 ++ gs.drop (start + len) = gs := by
  have hgap : (gs.drop start).take len = replicate len 0 := by
    apply ext_getElem?
    intro i
    rw [getElem?_take, getElem?_drop, getElem?_replicate]
    split
    · exact hzeros (start + i) (by omega) (by omega)
    · rfl
  rw [← hgap, append_assoc, ← drop_drop, take_append_drop, take_append_drop]

theorem readIpv6_printGroups (h : gs.length = 8) :
    readIpv6 (printGroups gs) = some (gs.map (·.toNat), []) := by
  have hend : EndsGroups [] := .inl rfl
  have hread := readGroups_printGroups hend (Nat.le_of_eq h)
  rw [append_nil] at hread
  rw [readIpv6, hread]
  simp [h]

theorem readIpv6_gap (h : gs.length = 8) (hlen : 1 < len) (hzeros : Zeros gs start len)
    (hle : start + len ≤ 8) :
    readIpv6 (printGroups (gs.take start) ++ "::".toList ++ printGroups (gs.drop (start + len))) =
      some (gs.map (·.toNat), []) := by
  have htake : (gs.take start).length = start := by rw [length_take]; omega
  have hdrop : (gs.drop (start + len)).length = 8 - start - len := by rw [length_drop]; omega
  have hgap : EndsGroups ("::".toList ++ printGroups (gs.drop (start + len))) :=
    .inr ⟨_, rfl, dot_not_mem_printGroups _⟩
  have hhead := readGroups_printGroups hgap
    (Nat.le_trans (Nat.le_of_eq htake) (by omega : start ≤ 8))
  have hend : EndsGroups [] := .inl rfl
  have htail := readGroups_printGroups hend
    (Nat.le_trans (Nat.le_of_eq hdrop) (by omega : 8 - start - len ≤ 8 - (start + 1)))
  rw [append_nil] at htail
  have hfill : 8 - start - (8 - start - len) = len := by omega
  rw [readIpv6, append_assoc, hhead]
  dsimp only
  rw [if_neg (by rw [length_map]; omega), length_map, htake]
  change (let ((tail, _), s) :=
      readGroups (8 - (start + 1)) 0 (printGroups (gs.drop (start + len)));
    some ((gs.take start).map UInt16.toNat ++ replicate (8 - start - tail.length) 0 ++ tail,
      s)) = _
  rw [htail]
  dsimp only
  rw [length_map, hdrop, hfill]
  have hnat := congrArg (map UInt16.toNat) (fill_gap hzeros)
  rw [map_append, map_append, map_replicate] at hnat
  exact congrArg (fun gs => some (gs, [])) hnat

theorem parse_of_readIpv6 (h4 : readIpv4 s = none)
    (h6 : readIpv6 s = some ([s0, s1, s2, s3, s4, s5, s6, s7].map (·.toNat), [])) :
    parse s = some (.v6 s0 s1 s2 s3 s4 s5 s6 s7) := by
  simp [parse, read, h4, h6, ofGroups]

theorem readIpv6_mapped (s6 s7 : UInt16) : readIpv6 ("::ffff:".toList ++
        printQuad (s6.toNat / 256) (s6.toNat % 256) (s7.toNat / 256) (s7.toNat % 256)) =
      some ([0, 0, 0, 0, 0, 0xffff, s6, s7].map (·.toNat), []) := by
  have hs6 : s6.toNat < 65536 := s6.toNat_lt
  have hs7 : s7.toNat < 65536 := s7.toNat_lt
  have hquad := readIpv4_printQuad (show s6.toNat / 256 < 256 by omega)
    (show s6.toNat % 256 < 256 by omega) (show s7.toNat / 256 < 256 by omega)
    (show s7.toNat % 256 < 256 by omega)
  generalize printQuad _ _ _ _ = quad at hquad
  have hnext : readGroups 6 1 (':' :: quad) = (([s6.toNat / 256 * 256 + s6.toNat % 256,
      s7.toNat / 256 * 256 + s7.toNat % 256], true), []) := by
    have hsep : readSeparator ':' 1 readIpv4 (':' :: quad) = readIpv4 quad := rfl
    rw [readGroups, if_pos (by decide), hsep, hquad]
  have htail : readGroups 7 0 ("ffff:".toList ++ quad) =
      let ((gs, dotted), rest) := readGroups 6 1 (':' :: quad)
      ((0xffff :: gs, dotted), rest) := rfl
  rw [hnext, Nat.div_add_mod', Nat.div_add_mod'] at htail
  change (let ((tail, _), s) := readGroups 7 0 ("ffff:".toList ++ quad);
    some (replicate (8 - tail.length) 0 ++ tail, s)) = _
  rw [htail]
  rfl

theorem parse_print : parse (print ip) = some ip := by
  unfold print
  split
  next a b c d => exact parse_print_v4 a b c d
  next s6 s7 =>
    refine parse_of_readIpv6 ?_ (readIpv6_mapped s6 s7)
    rfl
  next s0 s1 s2 s3 s4 s5 s6 s7 _ =>
    dsimp only
    split
    next hlen =>
      obtain ⟨hzeros, hle⟩ := longestZeros_spec
      refine parse_of_readIpv6 (readIpv4_of_no_dot ?_) (readIpv6_gap rfl hlen hzeros hle)
      simp [dot_not_mem_printGroups]
    · exact parse_of_readIpv6 (readIpv4_of_no_dot (dot_not_mem_printGroups _))
        (readIpv6_printGroups rfl)

end IpAddr
