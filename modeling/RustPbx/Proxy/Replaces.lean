import RustPbx.Proxy.ActiveCalls
import RustPbx.Sip.Types

/-!
An INVITE that replaces a dialog.

The session is looked up by the Call-ID of the header alone, and its tags are not compared with
anything, so that whoever knows a Call-ID can have its session hung up (`replaces_wrong_tags`). What
the new call does to the old one is the list of the effects of the task that waits for its answer.
-/

namespace RustPbx.Proxy

open Sip List

structure DialogId where
  callId : String
  toTag : String
  fromTag : String
  deriving DecidableEq

def replacesParam (tags : Option String × Option String) (part : List Char) :
    Option String × Option String :=
  match Str.stripStart "to-tag=" (.ofList part) with
  | some value => (some (Str.trim value), tags.2)
  | none =>
    match Str.stripStart "from-tag=" (.ofList part) with
    | some value => (tags.1, some (Str.trim value))
    | none => tags

def parseReplaces (value : String) : Option DialogId :=
  match (Str.trim value).toList.splitOn ';' with
  | [] => none
  | callId :: params =>
    match params.foldl replacesParam (none, none) with
    | (some toTag, some fromTag) => some ⟨.ofList (Str.trimChars callId), toTag, fromTag⟩
    | _ => none

def parseReplacesHeader (request : Request) : Option DialogId := do
  let value ← request.headers.findSome? fun header =>
    match header with
    | .other name value => if Str.eqIgnoreAsciiCase name "Replaces" then some value else none
    | _ => none
  parseReplaces value

def DialogId.print (dialog : DialogId) : String :=
  dialog.callId ++ ";to-tag=" ++ dialog.toTag ++ ";from-tag=" ++ dialog.fromTag

example : parseReplaces " a84b4c ;from-tag=23431;early-only;to-tag= 7743 " =
    some ⟨"a84b4c", "7743", "23431"⟩ := by decide

/-! ## The new call -/

inductive ReplaceEffect where
  | createConference (conf : String)
  | removeParticipant (conf leg : String)
  | addParticipant (conf leg : String)
  | hangup (session : String) (allBut : Option String)
  | seatReplaced (conf old new : String)
  | callTransferred (old : String)
  deriving DecidableEq

inductive InviteOutcome where
  /-- No dialog is replaced, and the INVITE is handled like any other. -/
  | ordinary
  | callDoesNotExist
  | routeError
  | tooManyHops
  | served

structure ReplacesInvite (χ : Type) where
  request : Request
  maxForwards : Option String := none
  registry : ActiveProxyCallRegistry χ
  conferenceOf : String → Option String := fun _ => none
  routed : Bool := true
  /-- The new call is answered in time. -/
  answered : Bool := true

namespace ReplacesInvite

variable (invite : ReplacesInvite χ)

def extractMaxForwards : Nat :=
  (invite.maxForwards.bind fun value => Str.parseUnsigned (2 ^ 32) value.toList).getD 70

def newSession : String :=
  invite.request.callId.getD ""

def replaceSeat (conf old : String) : List ReplaceEffect :=
  [.removeParticipant conf old, .addParticipant conf invite.newSession, .hangup old none,
    .seatReplaced conf old invite.newSession]

def mergeCalls (old : String) : List ReplaceEffect :=
  let conf := "conf-replaces-" ++ invite.newSession
  [.createConference conf, .addParticipant conf old, .addParticipant conf invite.newSession,
    .hangup old (some "caller"), .callTransferred old]

def whenAnswered (old : String) : List ReplaceEffect :=
  if invite.newSession = "" || !invite.answered then []
  else match invite.conferenceOf old with
    | some conf => invite.replaceSeat conf old
    | none => invite.mergeCalls old

def handle : InviteOutcome × List ReplaceEffect :=
  match parseReplacesHeader invite.request with
  | none => (.ordinary, [])
  | some dialog =>
    match invite.registry.getHandleByDialog dialog.callId with
    | none => (.callDoesNotExist, [])
    | some old =>
      if !invite.routed then (.routeError, [])
      else if invite.extractMaxForwards = 0 then (.tooManyHops, [])
      else (.served, invite.whenAnswered old.sessionId)

/-- An effect hangs a session up, takes its seat or has it join a conference. -/
def Touches (session : String) : ReplaceEffect → Prop
  | .removeParticipant _ leg => leg = session
  | .addParticipant _ leg => leg = session ∧ leg ≠ invite.newSession
  | .hangup old _ => old = session
  | .createConference _ | .seatReplaced _ _ _ | .callTransferred _ => False

variable {invite}

theorem touches_whenAnswered (hmem : effect ∈ invite.whenAnswered old)
    (h : invite.Touches session effect) :
    session = old := by
  unfold whenAnswered at hmem
  split at hmem
  · cases hmem
  · split at hmem
    · simp only [replaceSeat, mem_cons, not_mem_nil, or_false] at hmem
      rcases hmem with rfl | rfl | rfl | rfl
      · exact h.symm
      · exact absurd rfl h.2
      · exact h.symm
      · cases h
    · simp only [mergeCalls, mem_cons, not_mem_nil, or_false] at hmem
      rcases hmem with rfl | rfl | rfl | rfl | rfl
      · cases h
      · exact h.1.symm
      · exact absurd rfl h.2
      · exact h.symm
      · cases h

theorem hangup_mem_whenAnswered (hcallId : invite.newSession ≠ "")
    (hanswered : invite.answered = true) (old : String) :
    ∃ allBut, .hangup old allBut ∈ invite.whenAnswered old := by
  rw [whenAnswered, if_neg (by simp [hcallId, hanswered])]
  cases invite.conferenceOf old with
  | some conf => exact ⟨none, by simp [replaceSeat]⟩
  | none => exact ⟨some "caller", by simp [mergeCalls]⟩

/-- The INVITE gets as far as to replace a dialog: it is routed, has hops left, names its own call
and is answered. -/
structure Completes (invite : ReplacesInvite χ) : Prop where
  routed : invite.routed = true
  hops : invite.extractMaxForwards ≠ 0
  callId : invite.newSession ≠ ""
  answered : invite.answered = true

theorem mem_handle_iff : effect ∈ invite.handle.2 ↔ ∃ dialog old,
    parseReplacesHeader invite.request = some dialog ∧
      invite.registry.getHandleByDialog dialog.callId = some old ∧ invite.routed = true ∧
        invite.extractMaxForwards ≠ 0 ∧ effect ∈ invite.whenAnswered old.sessionId := by
  unfold handle
  cases parseReplacesHeader invite.request with
  | none => simp
  | some dialog =>
    cases hold : invite.registry.getHandleByDialog dialog.callId with
    | none => simp [hold]
    | some old =>
      cases hrouted : invite.routed <;> by_cases hhops : invite.extractMaxForwards = 0 <;>
        simp [hold, hhops]

theorem completes_of_mem (hmem : effect ∈ invite.whenAnswered old) (hrouted : invite.routed = true)
    (hhops : invite.extractMaxForwards ≠ 0) : invite.Completes := by
  unfold whenAnswered at hmem
  split at hmem
  · cases hmem
  next hgoes =>
    simp only [Bool.or_eq_true, decide_eq_true_eq, Bool.not_eq_true', not_or] at hgoes
    exact ⟨hrouted, hhops, hgoes.1, Bool.not_eq_false _ ▸ hgoes.2⟩

/-- **An INVITE with Replaces touches only owners** of the dialog with the Call-ID and the tags of
the header if and only if, where it gets so far, the session that the registry has for the Call-ID
is one. -/
theorem replaces_only_owner_iff (invite : ReplacesInvite χ) (dialogs : String → List DialogId) :
    (∀ session, ∀ effect ∈ invite.handle.2, invite.Touches session effect →
      ∃ dialog, parseReplacesHeader invite.request = some dialog ∧ dialog ∈ dialogs session) ↔
    (invite.Completes → ∀ dialog old, parseReplacesHeader invite.request = some dialog →
      invite.registry.getHandleByDialog dialog.callId = some old →
        dialog ∈ dialogs old.sessionId) := by
  constructor
  · intro honly hcompletes dialog old hdialog hold
    obtain ⟨allBut, hmem⟩ :=
      hangup_mem_whenAnswered hcompletes.callId hcompletes.answered old.sessionId
    obtain ⟨dialog', hdialog', howns⟩ := honly old.sessionId _ (mem_handle_iff.mpr
      ⟨dialog, old, hdialog, hold, hcompletes.routed, hcompletes.hops, hmem⟩) rfl
    cases hdialog.symm.trans hdialog'
    exact howns
  · intro howned session effect hmem htouches
    obtain ⟨dialog, old, hdialog, hold, hrouted, hhops, hmem⟩ := mem_handle_iff.mp hmem
    rw [touches_whenAnswered hmem htouches]
    exact ⟨dialog, hdialog,
      howned (completes_of_mem hmem hrouted hhops) dialog old hdialog hold⟩

end ReplacesInvite

def sampleInvite (replaces : DialogId) : ReplacesInvite Unit where
  request := {
    method := .invite
    uri := ⟨some .sip, none, ⟨.domain "pbx".toList, none⟩, []⟩
    headers := [.other "Replaces" replaces.print]
    callId := some "b1946a" }
  registry := ActiveProxyCallRegistry.registerCallId {} "a84b4c" ⟨"call-1", ()⟩

/-- A call is hung up on an INVITE that gives its Call-ID and the tags of no dialog at all. -/
theorem replaces_wrong_tags :
    ∃ (invite : ReplacesInvite Unit) (dialogs : String → List DialogId) (session : String),
      dialogs session = [⟨"a84b4c", "7743", "23431"⟩] ∧
      parseReplacesHeader invite.request = some ⟨"a84b4c", "1", "2"⟩ ∧
      .hangup session (some "caller") ∈ invite.handle.2 ∧
      invite.Touches session (.hangup session (some "caller")) ∧
      ¬ ∃ dialog, parseReplacesHeader invite.request = some dialog ∧ dialog ∈ dialogs session := by
  have hparse : parseReplacesHeader (sampleInvite ⟨"a84b4c", "1", "2"⟩).request =
      some ⟨"a84b4c", "1", "2"⟩ := by decide
  refine ⟨sampleInvite ⟨"a84b4c", "1", "2"⟩, fun _ => [⟨"a84b4c", "7743", "23431"⟩], "call-1", rfl,
    hparse, by decide, rfl, ?_⟩
  rintro ⟨dialog, hdialog, hmem⟩
  cases hparse.symm.trans hdialog
  exact absurd (mem_singleton.mp hmem) (by decide)

end RustPbx.Proxy
