import RustPbx.Proxy.SessionTimer

/-!
Two endpoints of a dialog that both run the session timers.

The parameter of a Session-Expires header names the refresher by its role in the transaction: the
caller is the client of the INVITE, but either side is the client of a refresh that it sends.
`Agree` is what the two timers have in common.
-/

namespace RustPbx.SessionTimer

open Sip SipSession

theorem asSecs_secs : asSecs (secs n) = n := by
  unfold asSecs secs
  omega

theorem interval_of_parse (h : SessionExpires.parse value = some sessionExpires) :
    ∃ n < 2 ^ 64, sessionExpires.interval = secs n := by
  unfold SessionExpires.parse at h
  split at h
  · cases h
  · obtain ⟨n, hn, hse⟩ := Option.bind_eq_some_iff.mp h
    cases hse
    refine ⟨n, ?_, rfl⟩
    unfold Str.parseUnsigned at hn
    dsimp only at hn
    split at hn
    · cases hn
    · exact of_decide_eq_true (Option.filter_eq_some_iff.mp hn).2

theorem semicolon_notMem_toDigits : ∀ c ∈ Nat.toDigits 10 n, (c == ';') = false := by
  intro c hc
  have hdigit := Nat.isDigit_of_mem_toDigits (by omega) (by omega) hc
  rw [beq_eq_false_iff_ne]
  rintro rfl
  exact absurd hdigit (by decide)

theorem SessionExpires.parse_eq {value : String} {interval : List Char}
    (hsplit : value.toList.splitOn ';' = interval :: params)
    (hread : Str.parseUnsigned (2 ^ 64) (Str.trimChars interval) = some n) :
    parse value = some ⟨secs n, params.foldl refresherParam none⟩ := by
  unfold parse
  rw [hsplit]
  dsimp only
  rw [hread]
  rfl

/-- **A header is read as it was written**: whole seconds and the refresher survive. -/
theorem SessionExpires.parse_value (hn : n < 2 ^ 64) (refresher : Option SessionRefresherParam) :
    parse (value ⟨secs n, refresher⟩) = some ⟨secs n, refresher⟩ := by
  have hread : Str.parseUnsigned (2 ^ 64) (Str.trimChars (Nat.toDigits 10 n)) = some n := by
    rw [Str.trimChars_toDigits, Str.parseUnsigned_toDigits hn]
  have hparam (param : List Char) : (Nat.toDigits 10 n ++ ';' :: param).splitOn ';' =
      Nat.toDigits 10 n :: param.splitOn ';' :=
    List.splitOnP_append_cons_of_forall_mem semicolon_notMem_toDigits ';' rfl param
  rcases refresher with _ | _ | _
  · have hsplit : (value ⟨secs n, none⟩).toList.splitOn ';' = [Nat.toDigits 10 n] := by
      simp only [value, asSecs_secs, String.toList_ofList]
      exact List.splitOnP_eq_singleton semicolon_notMem_toDigits
    exact parse_eq hsplit hread
  · have hsplit : (value ⟨secs n, some .uac⟩).toList.splitOn ';' =
        Nat.toDigits 10 n :: "refresher=uac".toList.splitOn ';' := by
      simp only [value, asSecs_secs, String.toList_ofList]
      exact hparam _
    have hrefresher : ("refresher=uac".toList.splitOn ';').foldl refresherParam none =
      some .uac := by decide
    rw [parse_eq hsplit hread, hrefresher]
  · have hsplit : (value ⟨secs n, some .uas⟩).toList.splitOn ';' =
        Nat.toDigits 10 n :: "refresher=uas".toList.splitOn ';' := by
      simp only [value, asSecs_secs, String.toList_ofList]
      exact hparam _
    have hrefresher : ("refresher=uas".toList.splitOn ';').foldl refresherParam none =
      some .uas := by decide
    rw [parse_eq hsplit hread, hrefresher]

theorem getHeaderValue_cons (header : Header) (headers : List Header) (name : String) :
    getHeaderValue (header :: headers) name =
      if Str.eqIgnoreAsciiCase header.name name then some header.value
      else getHeaderValue headers name := by
  unfold getHeaderValue
  rw [List.find?_cons]
  cases Str.eqIgnoreAsciiCase header.name name <;> rfl

theorem getHeaderValue_intoHeader (sessionExpires : SessionExpires) (headers : List Header) :
    getHeaderValue (sessionExpires.intoHeader :: headers) "Session-Expires" =
      some sessionExpires.value := by
  rw [getHeaderValue_cons]
  exact if_pos (beq_self_eq_true _)

theorem getHeaderValue_contentType :
    getHeaderValue (.other "Content-Type" "application/sdp" :: headers) "Session-Expires" =
      getHeaderValue headers "Session-Expires" := by
  have hname : ¬ Str.eqIgnoreAsciiCase "Content-Type" "Session-Expires" = true := by decide
  rw [getHeaderValue_cons]
  exact if_neg hname

def SessionRefresher.peer : SessionRefresher → SessionRefresher
  | .local => .remote
  | .remote => .local

namespace SessionTimerState

def takeRefresh (timer : SessionTimerState) (now : Nat) (request : List Header) :
    Except (List Header) (SessionTimerState × List Header) :=
  match timer.applySessionTimerHeaders request with
  | none => .error [.other "Min-SE" timer.getMinSeValue]
  | some timer =>
    let timer := if timer.active then timer.updateRefresh now else timer
    .ok (timer, timer.successfulRefreshResponseHeaders)

end SessionTimerState

/-- When a refresh is taken and answered, whether it carries a body, and what other headers follow
in the answer. -/
structure Refresh where
  takenAt : Nat
  answeredAt : Nat
  includeContentType : Bool
  more : List Header

namespace Refresh

variable (r : Refresh) (sender receiver : SessionTimerState)

def finish : SessionTimerState × List Header → Option (SessionTimerState × SessionTimerState)
  | (receiver, response) =>
    match sender.applyRefreshResponse r.answeredAt (response ++ r.more) with
    | (sender, true) => some (sender, receiver)
    | (_, false) => none

def run : Option (SessionTimerState × SessionTimerState) :=
  match receiver.takeRefresh r.takenAt (sender.buildSessionTimerHeaders r.includeContentType) with
  | .ok taken => r.finish sender taken
  | .error rejection => do
    let minSe ← (getHeaderValue rejection "Min-SE").bind parseMinSe
    let sender := { sender with
      minSe := max sender.minSe minSe, sessionInterval := max sender.sessionInterval minSe }
    match receiver.takeRefresh r.takenAt (sender.buildSessionTimerHeaders r.includeContentType) with
    | .ok taken => r.finish sender taken
    | .error _ => none

end Refresh

structure Dialog where
  caller : SessionTimerState
  callee : SessionTimerState

structure Invitation where
  invite : List Header
  callerMode : SessionTimerMode
  calleeMode : SessionTimerMode
  requestedSessionInterval : Nat
  defaultExpires : Nat
  takenAt : Nat
  answeredAt : Nat
  more : List Header

namespace Dialog

def establish (i : Invitation) : Option Dialog := do
  let callee ← serverTimer i.calleeMode i.defaultExpires i.takenAt i.invite
  let timerHeaders := if callee.enabled then callee.buildSessionTimerResponseHeaders else []
  let answer := .other "Content-Type" "application/sdp" :: (timerHeaders ++ i.more)
  return {
    caller := calleeTimer i.callerMode i.requestedSessionInterval i.answeredAt answer
    callee }

inductive Step : Dialog → Dialog → Prop where
  | byCaller {g : Dialog} {caller callee : SessionTimerState} (r : Refresh)
      (h : r.run g.caller g.callee = some (caller, callee)) : Step g ⟨caller, callee⟩
  | byCallee {g : Dialog} {caller callee : SessionTimerState} (r : Refresh)
      (h : r.run g.callee g.caller = some (callee, caller)) : Step g ⟨caller, callee⟩

def Refreshes : Dialog → Dialog → Prop :=
  Relation.ReflTransGen Step

end Dialog

/-! ## Agreement -/

/-- What the timers of the two ends have in common. -/
structure Agree (a b : SessionTimerState) : Prop where
  interval : a.sessionInterval = b.sessionInterval
  roles : a.refresher = b.refresher.peer
  whole : ∃ n < 2 ^ 64, a.sessionInterval = secs n
  accepted : a.minSe ≤ a.sessionInterval
  accepted' : b.minSe ≤ b.sessionInterval
  running : a.running = true
  running' : b.running = true

namespace Agree

theorem symm (h : Agree a b) : Agree b a where
  interval := h.interval.symm
  roles := by rw [h.roles]; cases b.refresher <;> rfl
  whole := h.interval ▸ h.whole
  accepted := h.accepted'
  accepted' := h.accepted
  running := h.running'
  running' := h.running

end Agree

section

variable {timer : SessionTimerState} (hn : n < 2 ^ 64) (hinterval : timer.sessionInterval = secs n)
include hn hinterval

theorem sessionExpires_of_request :
    (getHeaderValue (timer.buildSessionTimerHeaders includeContentType) "Session-Expires").bind
      SessionExpires.parse = some ⟨timer.sessionInterval,
        some (match timer.refresher with | .local => .uac | .remote => .uas)⟩ := by
  rw [hinterval, ← SessionExpires.parse_value hn]
  unfold SessionTimerState.buildSessionTimerHeaders SessionTimerState.buildTimerHeaders
  rw [hinterval]
  cases includeContentType with
  | false =>
    rw [if_neg Bool.false_ne_true, List.nil_append, getHeaderValue_intoHeader]
    rfl
  | true =>
    rw [if_pos rfl, List.singleton_append, getHeaderValue_contentType, getHeaderValue_intoHeader]
    rfl

theorem sessionExpires_of_response :
    ∃ value, getHeaderValue (timer.buildSessionTimerResponseHeaders ++ more) "Session-Expires" =
      some value ∧ SessionExpires.parse value = some ⟨timer.sessionInterval,
        some (match timer.refresher with | .local => .uas | .remote => .uac)⟩ := by
  refine ⟨_, getHeaderValue_intoHeader _ _, ?_⟩
  rw [hinterval]
  exact SessionExpires.parse_value hn _

end

namespace Agree

variable {a b : SessionTimerState} {now : Nat}

theorem takeRefresh (h : Agree a b) (includeContentType : Bool) :
    b.takeRefresh now (a.buildSessionTimerHeaders includeContentType) =
      .ok (b.updateRefresh now, (b.updateRefresh now).buildSessionTimerResponseHeaders) := by
  obtain ⟨n, hn, hinterval⟩ := h.whole
  have hrunning := h.running'
  simp only [SessionTimerState.running, Bool.and_eq_true] at hrunning
  have happly : b.applySessionTimerHeaders (a.buildSessionTimerHeaders includeContentType) =
      some b := by
    unfold SessionTimerState.applySessionTimerHeaders
    rw [sessionExpires_of_request hn hinterval]
    dsimp only
    rw [if_neg (Nat.not_lt.mpr (h.interval ▸ h.accepted')), h.interval, h.roles]
    obtain ⟨mode, enabled, interval, minSe, refresher, -⟩ := b
    cases refresher <;> rfl
  unfold SessionTimerState.takeRefresh
  rw [happly]
  dsimp only
  rw [if_pos hrunning.1, SessionTimerState.successfulRefreshResponseHeaders, if_pos]
  simp only [SessionTimerState.updateRefresh, hrunning, Bool.and_self]

theorem applyRefreshResponse (h : Agree a b) (more : List Header) :
    a.applyRefreshResponse now (b.buildSessionTimerResponseHeaders ++ more) =
      (a.completeRefresh now, true) := by
  obtain ⟨n, hn, hinterval⟩ := h.symm.whole
  obtain ⟨value, hvalue, hparse⟩ := sessionExpires_of_response hn hinterval
  unfold SessionTimerState.applyRefreshResponse
  rw [hvalue]
  dsimp only
  rw [hparse]
  dsimp only
  have hrole : selectClientTimerRefresher
      (some (match b.refresher with | .local => .uas | .remote => .uac)) = a.refresher := by
    rw [h.roles]
    cases b.refresher <;> rfl
  rw [if_neg (Nat.not_lt.mpr (h.interval ▸ h.accepted)), ← h.interval, hrole]

theorem updateRefresh (h : Agree a b) : Agree a (b.updateRefresh now) :=
  { h with }

theorem completeRefresh (h : Agree a b) : Agree (a.completeRefresh now) b :=
  { h with }

/-- **Every refresh succeeds** and leaves the interval and the roles as they are. -/
theorem run (h : Agree a b) (r : Refresh) :
    r.run a b = some (a.completeRefresh r.answeredAt, b.updateRefresh r.takenAt) := by
  have hanswer : a.applyRefreshResponse r.answeredAt
      ((b.updateRefresh r.takenAt).buildSessionTimerResponseHeaders ++ r.more) = _ :=
    h.updateRefresh.applyRefreshResponse r.more
  unfold Refresh.run
  rw [h.takeRefresh]
  dsimp only
  rw [Refresh.finish, hanswer]

end Agree

namespace Dialog

theorem Step.agree (h : Step g g') (hg : Agree g.caller g.callee) : Agree g'.caller g'.callee := by
  cases h with
  | byCaller r hrun =>
    rw [hg.run r] at hrun
    cases hrun
    exact hg.updateRefresh.completeRefresh
  | byCallee r hrun =>
    rw [hg.symm.run r] at hrun
    cases hrun
    exact hg.symm.updateRefresh.completeRefresh.symm

theorem Refreshes.agree (h : Refreshes g g') (hg : Agree g.caller g.callee) :
    Agree g'.caller g'.callee := by
  induction h with
  | refl => exact hg
  | tail _ hstep ih => exact hstep.agree ih

theorem serverTimer_cases {now : Nat} {callee : SessionTimerState}
    (hvalue : getHeaderValue invite "Session-Expires" = some value)
    (hparse : SessionExpires.parse value = some sessionExpires)
    (h : serverTimer mode defaultExpires now invite = some callee) :
    secs minMinSe ≤ callee.minSe ∧ callee.minSe ≤ callee.sessionInterval ∧
      callee.enabled = true ∧ callee.active = true ∧
      callee.sessionInterval = sessionExpires.interval := by
  unfold serverTimer at h
  rw [hvalue] at h
  dsimp only at h
  rw [hparse] at h
  dsimp only at h
  split at h
  · cases h
  next hlarge =>
    cases h
    exact ⟨le_requestedMinSe invite, Nat.le_of_not_lt hlarge, rfl, rfl, rfl⟩

theorem agree_of_establish (hvalue : getHeaderValue i.invite "Session-Expires" = some value)
    (hparse : SessionExpires.parse value = some sessionExpires) (h : establish i = some g) :
    Agree g.caller g.callee := by
  obtain ⟨callee, hserver, h⟩ := Option.bind_eq_some_iff.mp h
  obtain ⟨hmin, haccepted, henabled, hactive, hinterval⟩ := serverTimer_cases hvalue hparse hserver
  obtain ⟨n, hn, hsecs⟩ := interval_of_parse hparse
  obtain ⟨answer, hanswer, hread⟩ :=
    sessionExpires_of_response hn (hinterval.trans hsecs)
  rw [if_pos henabled] at h
  cases h
  -- The caller takes its timer from the first interval in the answer, which the callee put there.
  have hcaller : calleeTimer i.callerMode i.requestedSessionInterval i.answeredAt
      (.other "Content-Type" "application/sdp" ::
        (callee.buildSessionTimerResponseHeaders ++ i.more)) =
      { mode := i.callerMode, enabled := true, active := true, lastRefresh := i.answeredAt,
        sessionInterval := callee.sessionInterval, refresher := callee.refresher.peer } := by
    unfold calleeTimer
    rw [getHeaderValue_contentType, hanswer, Option.bind_some, hread]
    cases callee.refresher <;> rfl
  rw [hcaller]
  exact {
    interval := rfl
    roles := rfl
    whole := ⟨n, hn, hinterval.trans hsecs⟩
    accepted := hmin.trans haccepted
    accepted' := haccepted
    running := rfl
    running' := by rw [SessionTimerState.running, hactive, henabled]; rfl }

/-- **The two ends agree** after an INVITE with an interval, its answer and any successful
refreshes: the intervals are the same and exactly one end refreshes. -/
theorem endpoints_agree (i : Invitation) (value : String) (sessionExpires : SessionExpires)
    (hvalue : getHeaderValue i.invite "Session-Expires" = some value)
    (hparse : SessionExpires.parse value = some sessionExpires) (g g' : Dialog)
    (hg : establish i = some g) (h : Refreshes g g') :
    g'.caller.sessionInterval = g'.callee.sessionInterval ∧
    (g'.caller.refresher = .local ↔ g'.callee.refresher ≠ .local) := by
  have hagree := h.agree (agree_of_establish hvalue hparse hg)
  refine ⟨hagree.interval, ?_⟩
  rw [hagree.roles]
  cases g'.callee.refresher <;> simp [SessionRefresher.peer]

def inviteUas : Invitation where
  invite := [.other "Session-Expires" "1800;refresher=uas", .other "Supported" "100rel"]
  callerMode := .supported
  calleeMode := .supported
  requestedSessionInterval := secs 1800
  defaultExpires := 1800
  takenAt := 0
  answeredAt := 0
  more := []

theorem endpoints_agree_inviteUas : ∃ g g' : Dialog, establish inviteUas = some g ∧ Step g g' ∧
    g'.caller.sessionInterval = g'.callee.sessionInterval ∧
    (g'.caller.refresher = .local ↔ g'.callee.refresher ≠ .local) := by
  have hvalue : getHeaderValue inviteUas.invite "Session-Expires" =
    some "1800;refresher=uas" := by decide
  have hparse : SessionExpires.parse "1800;refresher=uas" = some ⟨secs 1800, some .uas⟩ := by decide
  obtain ⟨g, hg⟩ : ∃ g, establish inviteUas = some g := by
    exact ⟨_, rfl⟩
  have hagree := agree_of_establish hvalue hparse hg
  have hstep : Step _ _ := .byCallee ⟨secs 900, secs 900, false, []⟩ (hagree.symm.run _)
  exact ⟨_, _, hg, hstep, endpoints_agree inviteUas _ _ hvalue hparse _ _ hg (.single hstep)⟩

end Dialog

end RustPbx.SessionTimer
