import Mathlib.Data.List.Sort
import RustPbx.Routing.QueuePlan

/-!
Which rule an INVITE matches, and how the rule rewrites it.
-/

namespace RustPbx.Routing

open Sip Call List Str

/-- The text libraries. A compiled regular expression finds the capture groups of a text. -/
structure RegexLib where
  compile : String → Except String (String → Option (List (Option String)))
  toLowercase : String → String

structure MatchContext where
  origin : Request
  callerUser : String
  callerHost : String
  calleeUser : String
  calleeHost : String
  requestUser : String
  requestHost : String

section

variable (regex : RegexLib)

def compilePattern (pattern : String) : Except Failure (String → Option (List (Option String))) :=
  (regex.compile pattern).mapError fun e =>
    .error ("Invalid regex pattern '" ++ pattern ++ "': " ++ e)

def isPlain (pattern : String) : Bool :=
  pattern.toList.all fun c => c ∉ ['^', '$', '*', '+', '?', '[', '(', '\\']

def matchesPattern (pattern value : String) : Except Failure Bool :=
  if isPlain pattern then return pattern == value
  else do
    let find ← compilePattern regex pattern
    return (find value).isSome

def MatchConditions.fields (c : MatchConditions) (ctx : MatchContext) :
    List (String × String × String) :=
  [("from.user", c.fromUser, ctx.callerUser), ("from.host", c.fromHost, ctx.callerHost),
    ("to.user", c.toUser, ctx.calleeUser),
    ("to.host", c.toHost, ctx.calleeHost),
    ("request_uri.user", c.requestUriUser, ctx.requestUser),
    ("request_uri.host", c.requestUriHost, ctx.requestHost),
    ("caller", c.caller, ctx.callerUser ++ "@" ++ ctx.callerHost),
    ("callee", c.callee, ctx.calleeUser ++ "@" ++ ctx.calleeHost)].filterMap
    fun (key, pattern, value) => pattern.map (key, ·, value)

def matchesFields : List (String × String × String) → Except Failure Bool
  | [] => return true
  | (_, pattern, value) :: rest => do
    if ← matchesPattern regex pattern value then matchesFields rest else return false

def headerValue? (name : String) : Header → Option String
  | .other n value =>
    if regex.toLowercase n = regex.toLowercase name then some value else none
  | .userAgent value => if regex.toLowercase name = "user-agent" then some value else none
  | .contact value =>
    if regex.toLowercase name = "contact" then some (String.ofList value) else none
  | _ => none

def getHeaderValue (request : Request) (name : String) : Option String :=
  request.headers.findSome? (headerValue? regex name)

def matchesHeaders (request : Request) : List (String × String) → Except Failure Bool
  | [] => return true
  | (key, pattern) :: rest =>
    match Str.stripStart "header." key with
    | none => matchesHeaders request rest
    | some name =>
      match getHeaderValue regex request name with
      | none => return false
      | some value => do
        if ← matchesPattern regex pattern value then matchesHeaders request rest
        else return false

def matchesRule (rule : RouteRule) (ctx : MatchContext) : Except Failure Bool := do
  if ← matchesFields regex (rule.matchConditions.fields ctx) then
    matchesHeaders regex ctx.origin rule.matchConditions.headers
  else return false

/-! ## Captures -/

def extractRegexCaptures (pattern value : String) : Except Failure (Option (List String)) :=
  if pattern = "" then return none
  else do
    let find ← compilePattern regex pattern
    return (find value).map fun groups => groups.map (·.getD "")

def collectFieldCapture (captures : Table String (List String)) (key pattern value : String) :
    Except Failure (Table String (List String)) := do
  match ← extractRegexCaptures regex pattern value with
  | some groups => return captures.insert key groups
  | none => return captures

def headerFields (request : Request) (headers : List (String × String)) :
    List (String × String × String) :=
  headers.filterMap fun (key, pattern) => do
    let name ← Str.stripStart "header." key
    let value ← getHeaderValue regex request name
    return (key, pattern, value)

def collectMatchCaptures (rule : RouteRule) (ctx : MatchContext) :
    Except Failure (Table String (List String)) :=
  (rule.matchConditions.fields ctx ++
      headerFields regex ctx.origin rule.matchConditions.headers).foldlM
    (fun captures (key, pattern, value) => collectFieldCapture regex captures key pattern value) ∅

variable {regex}

theorem both_eq_true {x y : Except Failure Bool} :
    (do if ← x then y else return false) = .ok true ↔ x = .ok true ∧ y = .ok true := by
  cases x with
  | error e => simp [bind, Except.bind]
  | ok b => cases b <;> simp [bind, Except.bind, pure, Except.pure]

theorem compiles_of_matchesPattern (h : matchesPattern regex pattern value = .ok true)
    (hplain : isPlain pattern = false) : ∃ find, regex.compile pattern = .ok find := by
  rw [matchesPattern, hplain, compilePattern] at h
  cases hfind : regex.compile pattern with
  | error e => rw [hfind] at h; cases h
  | ok find => exact ⟨find, rfl⟩

theorem matches_of_matchesFields (h : matchesFields regex fields = .ok true) :
    ∀ f ∈ fields, matchesPattern regex f.2.1 f.2.2 = .ok true := by
  induction fields with
  | nil => simp
  | cons f rest ih =>
    obtain ⟨hf, hrest⟩ := both_eq_true.mp h
    exact forall_mem_cons.mpr ⟨hf, ih hrest⟩

/-- Of a matched rule every header condition has its header. -/
theorem matchesFields_headerFields (h : matchesHeaders regex request headers = .ok true) :
    matchesFields regex (headerFields regex request headers) = .ok true := by
  induction headers with
  | nil => rfl
  | cons header rest ih =>
    obtain ⟨key, pattern⟩ := header
    rw [matchesHeaders] at h
    cases hname : Str.stripStart "header." key with
    | none =>
      rw [hname] at h
      simpa [headerFields, hname] using ih h
    | some name =>
      cases hvalue : getHeaderValue regex request name with
      | none => simp [hname, hvalue, pure, Except.pure] at h
      | some value =>
        simp only [hname, hvalue] at h
        obtain ⟨hpattern, hrest⟩ := both_eq_true.mp h
        have hcons : headerFields regex request ((key, pattern) :: rest) =
            (key, pattern, value) :: headerFields regex request rest := by
          simp [headerFields, hname, hvalue]
        rw [hcons]
        exact both_eq_true.mpr ⟨hpattern, ih hrest⟩

theorem collects_iff (fields : List (String × String × String))
    (captures : Table String (List String)) :
    (∃ all, fields.foldlM (fun captures (key, pattern, value) =>
        collectFieldCapture regex captures key pattern value) captures = .ok all) ↔
      ∀ f ∈ fields, f.2.1 ≠ "" → ∃ find, regex.compile f.2.1 = .ok find := by
  induction fields generalizing captures with
  | nil => simp [pure, Except.pure]
  | cons f rest ih =>
    obtain ⟨key, pattern, value⟩ := f
    rw [forall_mem_cons]
    by_cases hempty : pattern = ""
    · simpa [hempty, collectFieldCapture, extractRegexCaptures] using ih captures
    · cases hfind : regex.compile pattern with
      | error e =>
        simp [collectFieldCapture, extractRegexCaptures, compilePattern, hempty, hfind,
          Except.mapError, bind, Except.bind]
      | ok find =>
        obtain ⟨next, hnext⟩ : ∃ next, collectFieldCapture regex captures key pattern value =
            .ok next := by
          rw [collectFieldCapture, extractRegexCaptures, if_neg hempty, compilePattern, hfind]
          cases hgroups : find value <;> exact ⟨_, by simp [Except.mapError, hgroups]; rfl⟩
        simpa [hnext, bind, Except.bind] using ih next

/-- **Captures of a matched rule**: they are collected exactly if the patterns that were compared
as plain texts compile, too. -/
theorem matched_rule_collects (h : matchesRule regex rule ctx = .ok true) :
    (∃ captures, collectMatchCaptures regex rule ctx = .ok captures) ↔
      ∀ f ∈ rule.matchConditions.fields ctx ++
          headerFields regex ctx.origin rule.matchConditions.headers,
        isPlain f.2.1 → f.2.1 ≠ "" → ∃ find, regex.compile f.2.1 = .ok find := by
  obtain ⟨hfields, hheaders⟩ := both_eq_true.mp h
  have hall := forall_mem_append.mpr ⟨matches_of_matchesFields hfields,
    matches_of_matchesFields (matchesFields_headerFields hheaders)⟩
  refine (collects_iff _ ∅).trans ⟨fun hc f hf _ => hc f hf, fun hc f hf hne => ?_⟩
  by_cases hplain : isPlain f.2.1 = true
  · exact hc f hf hplain hne
  · exact compiles_of_matchesPattern (hall f hf) (by simpa using hplain)

/-- A library that refuses a lone closing bracket, as regular expressions do. -/
def strictRegex : RegexLib :=
  ⟨fun pattern => if pattern = ")" then .error "unopened group" else .ok fun _ => none, Str.lower⟩

def calleeRule (pattern : String) : RouteRule where
  matchConditions := { toUser := some pattern }

def calleeContext (calleeUser : String) : MatchContext where
  origin := ⟨.invite, ⟨none, none, ⟨.domain [], none⟩, []⟩, [], none, none, none, none, none⟩
  callerUser := ""
  callerHost := ""
  calleeUser := calleeUser
  calleeHost := ""
  requestUser := ""
  requestHost := ""

theorem matched_rule_collects_bob :
    ∃ captures, collectMatchCaptures strictRegex (calleeRule "bob") (calleeContext "bob") =
      .ok captures :=
  (matched_rule_collects (by decide)).mpr fun f hf _ _ => by
    obtain rfl : f = ("to.user", "bob", "bob") := by
      simpa [MatchConditions.fields, headerFields, calleeRule, calleeContext] using hf
    exact ⟨_, rfl⟩

/-- The pattern matches as a text and does not compile as an expression. -/
theorem literal_pattern_aborts :
    matchesRule strictRegex (calleeRule ")") (calleeContext ")") = .ok true ∧
      collectMatchCaptures strictRegex (calleeRule ")") (calleeContext ")") =
        .error (.error "Invalid regex pattern ')': unopened group") := by
  decide

variable (regex)

/-! ## Rewriting -/

/-- The group of a text of digits, or of the digits between two texts without any. -/
def extractCaptureGroup (original : String) (group : Nat) : Option String :=
  let captured (pattern : String) : Option (List (Option String)) :=
    match regex.compile pattern with
    | .ok find => find original
    | .error _ => none
  let digits := original.toList.takeWhile (·.isDigit)
  match captured "^(\\d+)$" with
  | some groups =>
    (groups[group]?.join).or
      (if group = 1 ∧ digits ≠ [] then some (String.ofList digits) else second captured)
  | none => second captured
where
  second (captured : String → Option (List (Option String))) : Option String :=
    (captured "^[^\\d]*(\\d+)[^\\d]*$").bind fun groups => groups[group]?.join

def placeholder (pattern original : String) (groups : Option (List String)) (buffer : List Char) :
    Except Failure (List Char) :=
  if buffer = [] then
    .error (.error ("Empty capture group placeholder in rewrite pattern '" ++ pattern ++ "'"))
  else
    match Str.parseUsize buffer with
    | .error e => .error (.error ("Invalid capture group index '" ++ String.ofList buffer ++
        "' in rewrite pattern '" ++ pattern ++ "': " ++ e))
    | .ok index =>
      let replacement := (groups.bind (·[index]?)).or
        (if index = 0 then some original else extractCaptureGroup regex original index)
      return (replacement.getD original).toList

def rewriteLoop (pattern original : String) (groups : Option (List String)) :
    Option (List Char) → List Char → List Char → Except Failure (List Char)
  | none, result, [] => return result
  | some _, _, [] =>
    .error (.error ("Unclosed capture group placeholder in rewrite pattern '" ++ pattern ++ "'"))
  | none, result, c :: cs =>
    if c = '\x7b' then rewriteLoop pattern original groups (some []) result cs
    else rewriteLoop pattern original groups none (result ++ [c]) cs
  | some buffer, result, c :: cs =>
    if c = '\x7d' then do
      let replacement ← placeholder regex pattern original groups buffer
      rewriteLoop pattern original groups none (result ++ replacement) cs
    else rewriteLoop pattern original groups (some (buffer ++ [c])) result cs

def applyRewritePatternWithMatch (pattern original : String) (groups : Option (List String)) :
    Except Failure String :=
  if '\x7b' ∉ pattern.toList then return pattern
  else return String.ofList (← rewriteLoop regex pattern original groups none [] pattern.toList)

variable (original : String) (groups : Option (List String))

/-- What a placeholder stands for: the capture, or a group of the original, or all of it. -/
def captureText (index : Nat) : String :=
  (groups.bind (·[index]?)).getD
    (if index = 0 then original else (extractCaptureGroup regex original index).getD original)

/-- A template consists of characters and of closed placeholders with a number. -/
inductive Expands : List Char → List Char → Prop
  | done : Expands [] []
  | literal : c ≠ '\x7b' → Expands cs out → Expands (c :: cs) (c :: out)
  | capture : '\x7d' ∉ name → Str.parseUsize name = .ok index → Expands cs out →
    Expands ('\x7b' :: (name ++ '\x7d' :: cs))
      ((captureText regex original groups index).toList ++ out)

variable {original groups}

theorem placeholder_eq_ok : placeholder regex pattern original groups name = .ok text ↔
    ∃ index, Str.parseUsize name = .ok index ∧
      (captureText regex original groups index).toList = text := by
  unfold placeholder captureText
  split
  case isTrue h => subst h; simp [parseUsize]
  case isFalse =>
    cases parseUsize name with
    | error e => simp
    | ok index =>
      cases hgroup : groups.bind (·[index]?) <;> by_cases hindex : index = 0 <;>
        simp [hindex, pure, Except.pure]

theorem rewriteLoop_name (hname : '\x7d' ∉ name) :
    rewriteLoop regex pattern original groups (some buffer) result (name ++ '\x7d' :: cs) =
      (placeholder regex pattern original groups (buffer ++ name)).bind fun text =>
        rewriteLoop regex pattern original groups none (result ++ text) cs := by
  induction name generalizing buffer with
  | nil => simp [rewriteLoop]; rfl
  | cons c name ih =>
    rw [mem_cons, not_or] at hname
    simp [rewriteLoop, Ne.symm hname.1, ih hname.2]

theorem Expands.rewriteLoop (h : Expands regex original groups template out) :
    rewriteLoop regex pattern original groups none result template = .ok (result ++ out) := by
  induction h generalizing result with
  | done => rw [append_nil]; rfl
  | literal hc _ ih => simp [Routing.rewriteLoop, hc, ih]
  | capture hname hindex _ ih =>
    simp [Routing.rewriteLoop, rewriteLoop_name _ hname,
      (placeholder_eq_ok regex).mpr ⟨_, hindex, rfl⟩, Except.bind, ih]

theorem expands_of_rewriteLoop (hbuffer : ∀ name ∈ buffer, '\x7d' ∉ name)
    (h : rewriteLoop regex pattern original groups buffer result template = .ok r) :
    ∃ out, r = result ++ out ∧ Expands regex original groups
      (buffer.elim template fun name => '\x7b' :: (name ++ template)) out := by
  -- A name that was begun stands before the rest of the template.
  induction template generalizing buffer result with
  | nil =>
    cases buffer with
    | none => exact ⟨[], by cases h; simp, .done⟩
    | some => cases h
  | cons c cs ih =>
    cases buffer with
    | none =>
      rw [rewriteLoop] at h
      split at h
      case isTrue hc => exact hc ▸ ih (by simp) h
      case isFalse hc =>
        obtain ⟨out, rfl, hout⟩ := ih hbuffer h
        exact ⟨_, append_assoc .., .literal hc hout⟩
    | some name =>
      have hname := hbuffer name rfl
      rw [rewriteLoop] at h
      split at h
      case isTrue hc =>
        cases htext : placeholder regex pattern original groups name with
        | error => rw [htext] at h; cases h
        | ok text =>
          rw [htext] at h
          obtain ⟨index, hindex, rfl⟩ := (placeholder_eq_ok regex).mp htext
          obtain ⟨out, rfl, hout⟩ := ih (by simp) h
          exact ⟨_, append_assoc .., hc ▸ .capture hname hindex hout⟩
      case isFalse hc => simpa using ih (by simp [hname, Ne.symm hc]) h

/-- **The expansion of a template**: the result is made of its parts in order, and there is an
error exactly if it cannot be divided into parts. A missing capture is not an error. -/
theorem rewrites_template (regex : RegexLib) (pattern original : String)
    (groups : Option (List String)) :
    (∀ out, applyRewritePatternWithMatch regex pattern original groups = .ok out ↔
      Expands regex original groups pattern.toList out.toList) ∧
    ((∃ f, applyRewritePatternWithMatch regex pattern original groups = .error f) ↔
      ∀ out, ¬ Expands regex original groups pattern.toList out) := by
  have hplain (cs : List Char) (h : '\x7b' ∉ cs) : Expands regex original groups cs cs := by
    induction cs with
    | nil => exact .done
    | cons c cs ih =>
      rw [mem_cons, not_or] at h
      exact .literal (Ne.symm h.1) (ih h.2)
  have heq : applyRewritePatternWithMatch regex pattern original groups =
      (rewriteLoop regex pattern original groups none [] pattern.toList).map String.ofList := by
    unfold applyRewritePatternWithMatch
    split
    case isTrue h => rw [(hplain _ h).rewriteLoop]; simp [Except.map]; rfl
    case isFalse => rfl
  rw [heq]
  cases hloop : rewriteLoop regex pattern original groups none [] pattern.toList with
  | error f =>
    have hnone (out : List Char) : ¬ Expands regex original groups pattern.toList out := by
      intro h
      rw [h.rewriteLoop] at hloop
      cases hloop
    simp [Except.map, hnone]
  | ok r =>
    obtain ⟨out, hr, hout⟩ := expands_of_rewriteLoop regex (by simp) hloop
    obtain rfl : r = out := hr
    refine ⟨fun text => ⟨?_, fun h => ?_⟩, by simpa [Except.map] using ⟨r, hout⟩⟩
    · rintro ⟨⟩
      simpa using hout
    · rw [h.rewriteLoop] at hloop
      cases hloop
      simp [Except.map]

theorem missing_capture :
    applyRewritePatternWithMatch ⟨fun _ => .ok fun _ => none, Str.lower⟩ "\x7b1\x7d" "alice"
      (some ["alice"]) = .ok "alice" := by
  decide

end

/-- The simplified template of header values: one placeholder, which stands for `original`. -/
def applyRewritePattern (pattern original : String) : Except Failure String :=
  match Str.find (· == '\x7b') pattern.toList, Str.find (· == '\x7d') pattern.toList with
  | some start, some stop => do
    let head ← (Str.sliceTo pattern.toList start).mapError fun _ => Failure.panic
    let tail ← (Str.sliceFrom pattern.toList (stop + 1)).mapError fun _ => Failure.panic
    let _group ← (Str.slice pattern.toList (start + 1) stop).mapError fun _ => Failure.panic
    return String.ofList (head ++ original.toList ++ tail)
  | _, _ => return pattern

/-- **Header templates**: a template with both braces panics unless one opens before the first
that closes. -/
theorem rewrites_unless_closed_first (pattern original : String) :
    (∃ text, applyRewritePattern pattern original = .ok text) ↔
      ('\x7b' ∈ pattern.toList → '\x7d' ∈ pattern.toList →
        '\x7b' ∈ pattern.toList.takeWhile (· ≠ '\x7d')) := by
  unfold applyRewritePattern
  cases hopen : find (· == '\x7b') pattern.toList with
  | none =>
    have hnot := find_eq_none.mp hopen
    exact iff_of_true ⟨_, rfl⟩ fun h => by simpa using hnot _ h
  | some start =>
    cases hclose : find (· == '\x7d') pattern.toList with
    | none =>
      have hnot := find_eq_none.mp hclose
      exact iff_of_true ⟨_, rfl⟩ fun _ h => by simpa using hnot _ h
    | some stop =>
      obtain ⟨u, x, v, huv, rfl, hx, hu⟩ := find_eq_some hopen
      obtain ⟨a, y, b, hab, rfl, hy, ha⟩ := find_eq_some hclose
      obtain rfl : x = '\x7b' := by simpa using hx
      obtain rfl : y = '\x7d' := by simpa using hy
      have htake : pattern.toList.takeWhile (· ≠ '\x7d') = a := by
        rw [hab, takeWhile_append_of_pos fun c hc => by simpa using ha c hc]
        simp
      have hhead : sliceTo pattern.toList (byteLen u) = .ok u := by
        rw [huv, sliceTo_append]
      have htail : sliceFrom pattern.toList (byteLen a + 1) = .ok b := by
        rw [hab, sliceFrom_cons a b rfl]
      simp only [htake, hhead, htail]
      -- The pattern is cut at both braces: one of the cuts lies in the head of the other.
      rcases append_eq_append_iff.mp (huv.symm.trans hab) with ⟨w, rfl, hw⟩ | ⟨w, rfl, hw⟩
      · cases w with
        | nil => simp at hw
        | cons c w =>
          obtain ⟨rfl, -⟩ := cons.inj hw
          refine iff_of_true ⟨String.ofList (u ++ original.toList ++ b), ?_⟩ (by simp)
          have hsize : Char.utf8Size '\x7b' = 1 := rfl
          rw [slice, if_neg (by simp [hsize]), hab, sliceTo_append, Except.bind,
            sliceFrom_cons u w rfl]
          rfl
      · cases w with
        | nil => simp at hw
        | cons c w =>
          refine iff_of_false ?_ fun h => ?_
          · rw [slice, if_pos (by rw [byteLen_append]; omega)]
            rintro ⟨_, ⟨⟩⟩
          · have := hu '\x7b' (by simp [h (by simp [huv]) (by simp [hab])])
            simp at this

/-- A group that closes before it opens. -/
theorem closed_first_panics : applyRewritePattern "\x7d\x7b" "alice" = .error .panic := by
  decide

end RustPbx.Routing
