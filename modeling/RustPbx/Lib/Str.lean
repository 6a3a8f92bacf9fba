import Mathlib.Data.List.DropRight
import Mathlib.Tactic.IntervalCases

/-!
Strings as Rust handles them: a list of characters addressed by UTF-8 byte offsets.

A slice that is out of range or falls inside a character aborts. `find_eq_some` turns a search into
a decomposition of the text and `splitAtByte_append` cuts the text there again.
-/

namespace Str

open Option String

def bytes (s : List Char) : List UInt8 :=
  s.flatMap String.utf8EncodeChar

def byteLen : List Char → Nat
  | [] => 0
  | c :: cs => c.utf8Size + byteLen cs

@[simp] theorem byteLen_nil : byteLen [] = 0 := rfl

@[simp] theorem byteLen_cons : byteLen (c :: cs) = c.utf8Size + byteLen cs := rfl

@[simp] theorem byteLen_append : byteLen (a ++ b) = byteLen a + byteLen b := by
  induction a with
  | nil => simp
  | cons c cs ih => simp [ih, Nat.add_assoc]

inductive SliceError where
  | outOfRange
  | notCharBoundary
  deriving DecidableEq

def splitAtByte : Nat → List Char → Except SliceError (List Char × List Char)
  | 0, s => .ok ([], s)
  | _ + 1, [] => .error .outOfRange
  | n + 1, c :: cs =>
    if c.utf8Size ≤ n + 1 then
      (splitAtByte (n + 1 - c.utf8Size) cs).map fun (a, b) => (c :: a, b)
    else
      .error .notCharBoundary

def sliceTo (s : List Char) (i : Nat) : Except SliceError (List Char) :=
  (splitAtByte i s).map Prod.fst

def sliceFrom (s : List Char) (i : Nat) : Except SliceError (List Char) :=
  (splitAtByte i s).map Prod.snd

def slice (s : List Char) (i j : Nat) : Except SliceError (List Char) :=
  if j < i then .error .outOfRange else (sliceTo s j).bind (sliceFrom · i)

theorem splitAtByte_append : splitAtByte (byteLen a) (a ++ b) = .ok (a, b) := by
  induction a with
  | nil => simp [splitAtByte]
  | cons c cs ih =>
    obtain ⟨n, hn⟩ : ∃ n, c.utf8Size + byteLen cs = n + 1 :=
      ⟨c.utf8Size + byteLen cs - 1, by have := c.utf8Size_pos; omega⟩
    rw [byteLen_cons, hn, List.cons_append, splitAtByte, if_pos (by omega),
      show n + 1 - c.utf8Size = byteLen cs by omega, ih]
    rfl

theorem splitAtByte_of_lt (h : byteLen s < n) : splitAtByte n s = .error .outOfRange := by
  induction s generalizing n with
  | nil =>
    obtain ⟨n, rfl⟩ : ∃ m, n = m + 1 := ⟨n - 1, by simp at h; omega⟩
    rfl
  | cons c cs ih =>
    rw [byteLen_cons] at h
    obtain ⟨n, rfl⟩ : ∃ m, n = m + 1 := ⟨n - 1, by omega⟩
    rw [splitAtByte, if_pos (by omega), ih (by omega)]
    rfl

@[simp] theorem sliceTo_append (a b : List Char) : sliceTo (a ++ b) (byteLen a) = .ok a := by
  rw [sliceTo, splitAtByte_append]
  rfl

@[simp] theorem sliceFrom_append (a b : List Char) : sliceFrom (a ++ b) (byteLen a) = .ok b := by
  rw [sliceFrom, splitAtByte_append]
  rfl

theorem sliceTo_cons (a b : List Char) (h : c.utf8Size = 1) :
    sliceTo (a ++ c :: b) (byteLen a + 1) = .ok (a ++ [c]) := by
  simpa [h] using sliceTo_append (a ++ [c]) b

theorem sliceFrom_cons (a b : List Char) (h : c.utf8Size = 1) :
    sliceFrom (a ++ c :: b) (byteLen a + 1) = .ok b := by
  simpa [h] using sliceFrom_append (a ++ [c]) b

theorem sliceFrom_of_lt (h : byteLen s < n) : sliceFrom s n = .error .outOfRange := by
  rw [sliceFrom, splitAtByte_of_lt h]
  rfl

/-! ## Searching -/

/-- The byte offset of the first character that satisfies `p`. -/
def find (p : Char → Bool) : List Char → Option Nat
  | [] => none
  | c :: cs => if p c then some 0 else (find p cs).map (c.utf8Size + ·)

/-- **A found offset is a cut**: before it no character satisfies `p`, and the one at it does. -/
theorem find_eq_some (h : find p s = some i) :
    ∃ a c b, s = a ++ c :: b ∧ i = byteLen a ∧ p c = true ∧ ∀ x ∈ a, p x = false := by
  induction s generalizing i with
  | nil => simp [find] at h
  | cons c cs ih =>
    rw [find] at h
    split at h
    · next hc =>
      obtain rfl : 0 = i := by simpa using h
      exact ⟨[], c, cs, rfl, rfl, hc, by simp⟩
    · next hc =>
      obtain ⟨j, hj, rfl⟩ := map_eq_some_iff.mp h
      obtain ⟨a, d, b, rfl, rfl, hd, hall⟩ := ih hj
      refine ⟨c :: a, d, b, rfl, rfl, hd, ?_⟩
      simp only [List.mem_cons, forall_eq_or_imp]
      exact ⟨by simpa using hc, hall⟩

theorem find_eq_none : find p s = none ↔ ∀ c ∈ s, p c = false := by
  induction s with
  | nil => simp [find]
  | cons c cs ih =>
    rw [find]
    split
    · next hc => simp [hc]
    · next hc => simp [ih, hc]

theorem find_append (h : c ∉ a) :
    find (· == c) (a ++ c :: b) = some (byteLen a) := by
  induction a with
  | nil => simp [find]
  | cons d ds ih =>
    obtain ⟨hd, hds⟩ := List.ne_and_not_mem_of_not_mem_cons h
    rw [List.cons_append, find, if_neg (by simpa using Ne.symm hd), ih hds]
    rfl

theorem find_none (h : c ∉ s) : find (· == c) s = none :=
  find_eq_none.mpr fun _ hd => beq_false_of_ne fun heq => h (heq ▸ hd)

def splitOnce (c : Char) : List Char → Option (List Char × List Char)
  | [] => none
  | d :: ds => if d = c then some ([], ds) else (splitOnce c ds).map fun (a, b) => (d :: a, b)

theorem splitOnce_append (h : c ∉ a) (b : List Char) : splitOnce c (a ++ c :: b) = some (a, b) := by
  induction a with
  | nil => simp [splitOnce]
  | cons d ds ih =>
    have hd : d ≠ c := fun hdc => h (hdc ▸ List.mem_cons_self)
    rw [List.cons_append, splitOnce, if_neg hd, ih fun hmem => h (List.mem_cons_of_mem d hmem)]
    rfl

theorem eq_append_of_splitOnce (h : splitOnce c s = some (a, b)) : s = a ++ c :: b := by
  induction s generalizing a with
  | nil => cases h
  | cons d ds ih =>
    rw [splitOnce] at h
    split at h
    next hd =>
      cases h
      rw [hd, List.nil_append]
    · obtain ⟨⟨a', b'⟩, hsplit, hab⟩ := map_eq_some_iff.mp h
      cases hab
      rw [ih hsplit, List.cons_append]

theorem splitOnce_not_mem (h : splitOnce c s = some (a, b)) : c ∉ a := by
  induction s generalizing a with
  | nil => cases h
  | cons d ds ih =>
    rw [splitOnce] at h
    split at h
    · cases h
      exact List.not_mem_nil
    next hd =>
      obtain ⟨⟨a', b'⟩, hsplit, hab⟩ := map_eq_some_iff.mp h
      cases hab
      exact List.not_mem_cons_of_ne_of_not_mem (Ne.symm hd) (ih hsplit)

theorem not_mem_of_splitOnce_none (h : splitOnce c s = none) : c ∉ s := by
  induction s with
  | nil => exact List.not_mem_nil
  | cons d ds ih =>
    rw [splitOnce] at h
    split at h
    · cases h
    next hd =>
      exact List.not_mem_cons_of_ne_of_not_mem (Ne.symm hd) (ih (map_eq_none_iff.mp h))

/-- The text without a leading character, if it starts with it. -/
def stripChar (c : Char) : List Char → Option (List Char)
  | [] => none
  | d :: ds => if d = c then some ds else none

/-! ## Whole strings -/

/-- The characters with the Unicode property White_Space. -/
def isWhitespace (c : Char) : Bool :=
  let n := c.toNat
  (0x9 ≤ n && n ≤ 0xD) || n == 0x20 || n == 0x85 || n == 0xA0 || n == 0x1680 ||
    (0x2000 ≤ n && n ≤ 0x200A) || n == 0x2028 || n == 0x2029 || n == 0x202F || n == 0x205F ||
    n == 0x3000

/-- The text without the blanks around it. -/
def trimChars (s : List Char) : List Char :=
  (s.dropWhile isWhitespace).rdropWhile isWhitespace

theorem trimChars_eq_self (h : ∀ c ∈ s, isWhitespace c = false) : trimChars s = s := by
  have hdrop : s.dropWhile isWhitespace = s := by
    rw [List.dropWhile_eq_self_iff]
    intro hlength hblank
    exact Bool.false_ne_true ((h _ (List.getElem_mem hlength)).symm.trans hblank)
  rw [trimChars, hdrop, List.rdropWhile_eq_self_iff]
  intro hne hblank
  exact Bool.false_ne_true ((h _ (List.getLast_mem hne)).symm.trans hblank)

def trim (s : String) : String :=
  String.ofList (trimChars s.toList)

def trimStartMatches (c : Char) (s : String) : String :=
  String.ofList (s.toList.dropWhile (· == c))

def trimEndMatches (c : Char) (s : String) : String :=
  String.ofList (s.toList.rdropWhile (· == c))

def trimMatches (c : Char) (s : String) : String :=
  String.ofList ((s.toList.dropWhile (· == c)).rdropWhile (· == c))

private theorem trimBoth_trimBoth (p : Char → Bool) (s : List Char) :
    (((s.dropWhile p).rdropWhile p).dropWhile p).rdropWhile p = (s.dropWhile p).rdropWhile p := by
  have hstart : ((s.dropWhile p).rdropWhile p).dropWhile p = (s.dropWhile p).rdropWhile p := by
    rw [List.dropWhile_eq_self_iff]
    intro hlength
    obtain ⟨tail, htail⟩ := List.rdropWhile_prefix p (l := s.dropWhile p)
    have hfirst : 0 < (s.dropWhile p).length := by
      rw [← htail, List.length_append]
      omega
    have hhead := List.getElem_of_eq htail.symm hfirst
    rw [List.getElem_append_left hlength] at hhead
    rw [← hhead]
    exact List.dropWhile_eq_self_iff.mp (List.dropWhile_idempotent p s) hfirst
  rw [hstart, List.rdropWhile_idempotent]

theorem trim_trim : trim (trim s) = trim s := by
  rw [trim, trim, toList_ofList, trimChars, trimChars, trimBoth_trimBoth]

theorem trimMatches_trimMatches : trimMatches c (trimMatches c s) = trimMatches c s := by
  rw [trimMatches, trimMatches, toList_ofList, trimBoth_trimBoth]

theorem trimStartMatches_trimStartMatches :
    trimStartMatches c (trimStartMatches c s) = trimStartMatches c s := by
  rw [trimStartMatches, trimStartMatches, toList_ofList, List.dropWhile_idempotent]

theorem trimStartMatches_append (h : start.toList = [c]) :
    trimStartMatches c (start ++ s) = trimStartMatches c s := by
  rw [trimStartMatches, toList_append, h, List.singleton_append, List.dropWhile_cons,
    if_pos (beq_self_eq_true c)]
  rfl

def lower (s : String) : String :=
  String.ofList (s.toList.map Char.toLower)

def eqIgnoreAsciiCase (a b : String) : Bool :=
  lower a == lower b

private theorem toLower_toLower (c : Char) : c.toLower.toLower = c.toLower := by
  unfold Char.toLower
  split
  next h =>
    apply dif_neg
    rintro ⟨-, hle⟩
    have hlow := UInt32.le_iff_toNat_le.mp h.1
    have hhigh := UInt32.le_iff_toNat_le.mp h.2
    have hle := UInt32.le_iff_toNat_le.mp hle
    have hA : 'A'.val.toNat = 65 := rfl
    have hZ : 'Z'.val.toNat = 90 := rfl
    have hshift : ('a'.val - 'A'.val).toNat = 32 := rfl
    rw [UInt32.toNat_add] at hle
    omega
  · rfl

theorem lower_lower : lower (lower s) = lower s := by
  rw [lower, lower, toList_ofList, List.map_map]
  congr 2
  funext c
  exact toLower_toLower c

theorem lower_ne_empty (h : s ≠ "") : lower s ≠ "" := by
  intro hlower
  apply h
  have hlist := congrArg String.toList hlower
  rw [lower, toList_ofList] at hlist
  exact toList_eq_nil_iff.mp (List.map_eq_nil_iff.mp hlist)

def startsWith (s start : String) : Bool :=
  start.toList.isPrefixOf s.toList

def stripStart (start s : String) : Option String :=
  (start.toList.isPrefixOf? s.toList).map String.ofList

theorem stripStart_eq_some : stripStart start s = some rest ↔ s = start ++ rest := by
  constructor
  · intro h
    obtain ⟨chars, hchars, rfl⟩ := map_eq_some_iff.mp h
    rw [← toList_inj, toList_append, toList_ofList]
    exact (List.isPrefixOf?_eq_some_iff_append_eq.mp hchars).symm
  · rintro rfl
    rw [stripStart, toList_append, List.isPrefixOf?_eq_some_iff_append_eq.mpr rfl]
    exact congrArg some ofList_toList

def rsplitOnce (c : Char) (s : String) : Option (String × String) :=
  (splitOnce c s.toList.reverse).map fun (after, before) =>
    (String.ofList before.reverse, String.ofList after.reverse)

theorem rsplitOnce_append (htext : text.toList = c :: tail.toList) (hc : c ∉ tail.toList) :
    rsplitOnce c (before ++ text) = some (before, tail) := by
  have hreverse : (before ++ text).toList.reverse =
      tail.toList.reverse ++ c :: before.toList.reverse := by
    rw [toList_append, htext, List.reverse_append, List.reverse_cons, List.append_assoc,
      List.singleton_append]
  rw [rsplitOnce, hreverse, splitOnce_append (by simpa using hc)]
  simp

theorem rsplitOnce_spec (h : rsplitOnce c s = some (before, tail)) :
    s.toList = before.toList ++ c :: tail.toList ∧ c ∉ tail.toList := by
  obtain ⟨⟨after, front⟩, hsplit, hparts⟩ := map_eq_some_iff.mp h
  cases hparts
  have happend := congrArg List.reverse (eq_append_of_splitOnce hsplit)
  refine ⟨by simpa using happend, ?_⟩
  simpa using splitOnce_not_mem hsplit

/-- The number of bytes of a UTF-8 sequence by its first byte, zero if none starts with it. -/
def leadWidth (b : UInt8) : Nat :=
  if b < 0x80 then 1
  else if 0xC2 ≤ b ∧ b ≤ 0xDF then 2
  else if 0xE0 ≤ b ∧ b ≤ 0xEF then 3
  else if 0xF0 ≤ b ∧ b ≤ 0xF4 then 4
  else 0

/-- The second bytes that may follow a first byte. -/
def secondRange (b : UInt8) : UInt8 × UInt8 :=
  if b = 0xE0 then (0xA0, 0xBF)
  else if b = 0xED then (0x80, 0x9F)
  else if b = 0xF0 then (0x90, 0xBF)
  else if b = 0xF4 then (0x80, 0x8F)
  else (0x80, 0xBF)

/-- The bytes of a sequence behind its first byte, as far as they continue it. -/
def continuation (range : UInt8 × UInt8) : Nat → List UInt8 → List UInt8
  | n + 1, b :: bs =>
    if range.1 ≤ b ∧ b ≤ range.2 then b :: continuation (0x80, 0xBF) n bs else []
  | _, _ => []

/-- The first character of a text that need not be UTF-8, and its bytes. What is not a character is
replaced, as much of it at once as could begin one. -/
def lossyHead (b : UInt8) (bs : List UInt8) : Char × Nat :=
  let rest := continuation (secondRange b) (leadWidth b - 1) bs
  if leadWidth b ≠ 0 ∧ rest.length = leadWidth b - 1 then
    let lead := b.toNat % (if leadWidth b = 1 then 128 else 2 ^ (7 - leadWidth b))
    (.ofNat (rest.foldl (fun n b => n * 64 + b.toNat % 64) lead), leadWidth b)
  else (.ofNat 0xFFFD, 1 + rest.length)

private def lossyAux : Nat → List UInt8 → List Char
  | fuel + 1, b :: bs => (lossyHead b bs).1 :: lossyAux fuel (bs.drop ((lossyHead b bs).2 - 1))
  | _, _ => []

def fromUtf8Lossy (bytes : List UInt8) : List Char :=
  lossyAux bytes.length bytes

example : fromUtf8Lossy [0x61, 0xC3, 0xA9, 0xE2, 0x82, 0x62, 0xFF] =
    ['a', 'é', '\uFFFD', 'b', '\uFFFD'] := by decide

private def linesAux : List Char → List Char → List (List Char)
  | line, [] => if line = [] then [] else [line]
  | line, c :: cs =>
    if c = '\n' then
      (if line.getLast? = some '\r' then line.dropLast else line) :: linesAux [] cs
    else linesAux (line ++ [c]) cs

def lines (s : List Char) : List (List Char) :=
  linesAux [] s

/-! ## Numbers -/

def toDigit (radix : Nat) (c : Char) : Option Nat :=
  let v :=
    if '0' ≤ c ∧ c ≤ '9' then some (c.toNat - '0'.toNat)
    else if 'a' ≤ c ∧ c ≤ 'f' then some (c.toNat - 'a'.toNat + 10)
    else if 'A' ≤ c ∧ c ≤ 'F' then some (c.toNat - 'A'.toNat + 10)
    else none
  v.filter (· < radix)

def foldDigits (radix : Nat) : Nat → List Char → Option Nat
  | acc, [] => some acc
  | acc, c :: cs => (toDigit radix c).bind fun d => foldDigits radix (acc * radix + d) cs

/-- Parse an unsigned integer below `bound`: one `+` may lead, and at least one digit follows. -/
def parseUnsigned (bound : Nat) (s : List Char) : Option Nat :=
  let digits := (stripChar '+' s).getD s
  if digits.isEmpty then none else (foldDigits 10 0 digits).filter (· < bound)

theorem toDigit_digitChar (d : Nat) (h : d < 10) : toDigit 10 d.digitChar = some d := by
  interval_cases d <;> decide

theorem foldDigits_append (radix acc : Nat) (a b : List Char) : foldDigits radix acc (a ++ b) =
      (foldDigits radix acc a).bind fun acc => foldDigits radix acc b := by
  induction a generalizing acc with
  | nil => rfl
  | cons c cs ih =>
    rw [List.cons_append, foldDigits, foldDigits]
    cases toDigit radix c with
    | none => rfl
    | some d => exact ih _

theorem foldDigits_toDigits (hradix : 1 < radix)
    (hdigit : ∀ d < radix, toDigit radix d.digitChar = some d) (n : Nat) :
    foldDigits radix 0 (Nat.toDigits radix n) = some n := by
  induction n using Nat.strongRecOn with
  | _ n ih =>
    rw [Nat.toDigits_eq_if hradix]
    split
    next hlt => simp [foldDigits, hdigit n hlt]
    next hge =>
      rw [foldDigits_append, ih (n / radix) (Nat.div_lt_self (by omega) hradix), bind_some,
        foldDigits, hdigit _ (Nat.mod_lt n (by omega)), bind_some, foldDigits, Nat.div_add_mod']

theorem eq_zero_of_head_toDigits (h : (Nat.toDigits 10 n).head? = some '0') : n = 0 := by
  induction n using Nat.strongRecOn with
  | _ n ih =>
    rw [Nat.toDigits_eq_if (by omega)] at h
    split at h
    next hlt => interval_cases n <;> simp_all
    next hge =>
      rw [List.head?_append_of_ne_nil _ Nat.toDigits_ne_nil] at h
      have := ih (n / 10) (by omega) h
      omega

theorem trimChars_toDigits : trimChars (Nat.toDigits 10 n) = Nat.toDigits 10 n := by
  apply trimChars_eq_self
  intro c hc
  have hdigit := Nat.isDigit_of_mem_toDigits (by omega) (by omega) hc
  simp only [Char.isDigit, Bool.and_eq_true, decide_eq_true_eq] at hdigit
  have hlow : 48 ≤ c.toNat := hdigit.1
  have hhigh : c.toNat ≤ 57 := hdigit.2
  simp only [isWhitespace, Bool.or_eq_false_iff, Bool.and_eq_false_iff, decide_eq_false_iff_not,
    beq_eq_false_iff_ne]
  omega

theorem parseUnsigned_toDigits (h : n < bound) :
    parseUnsigned bound (Nat.toDigits 10 n) = some n := by
  have hplus : stripChar '+' (Nat.toDigits 10 n) = none := by
    rcases hd : Nat.toDigits 10 n with _ | ⟨c, cs⟩
    · rfl
    · have hdigit : c.isDigit = true :=
        Nat.isDigit_of_mem_toDigits (by omega) (by omega) (hd ▸ List.mem_cons_self)
      rw [stripChar, if_neg]
      rintro rfl
      exact absurd hdigit (by decide)
  simp [parseUnsigned, hplus, foldDigits_toDigits (by omega) toDigit_digitChar, h]

private def digitsToUsize : Nat → List Char → Except String Nat
  | acc, [] => .ok acc
  | acc, c :: cs =>
    match toDigit 10 c with
    | none => .error "invalid digit found in string"
    | some d =>
      if acc * 10 + d < 2 ^ 64 then digitsToUsize (acc * 10 + d) cs
      else .error "number too large to fit in target type"

/-- Parse a 64-bit unsigned integer, with the error texts of the standard library. -/
def parseUsize (s : List Char) : Except String Nat :=
  match s with
  | [] => .error "cannot parse integer from empty string"
  | ['+'] => .error "invalid digit found in string"
  | '+' :: cs => digitsToUsize 0 cs
  | cs => digitsToUsize 0 cs

end Str
