import RustPbx.Lib.Table
import RustPbx.Lib.Time

/-!
The calls that are going on, and the sessions their dialogs belong to.

The registry keeps the session of each dialog and the dialogs of each session. A dialog that another
session registers stays among the dialogs of the session it came from, and is lost with that one
(`moved_dialog_lost`).

The contexts and the heartbeats of the sessions are kept beside it, in `SessionMaps`. A session that
is removed leaves nothing, but one that is cleaned up leaves its heartbeat (`heartbeat_left`).
-/

namespace RustPbx.Proxy

open Table Option List

inductive ActiveProxyCallStatus where
  | ringing
  | talking

structure ActiveProxyCallEntry where
  sessionId : String
  caller : Option String := none
  callee : Option String := none
  direction : String
  /-- Times are in nanoseconds. -/
  startedAt : Int
  answeredAt : Option Int := none
  status : ActiveProxyCallStatus

structure SipSessionHandle (χ : Type) where
  sessionId : String
  channels : χ
  deriving DecidableEq

structure ActiveProxyCallRegistry (χ : Type) where
  entries : Table String ActiveProxyCallEntry := ∅
  handles : Table String (SipSessionHandle χ) := ∅
  handlesByDialog : Table String (SipSessionHandle χ) := ∅
  dialogBySession : Table String (List String) := ∅

namespace ActiveProxyCallRegistry

variable (r : ActiveProxyCallRegistry χ)

def upsert (entry : ActiveProxyCallEntry) (handle : SipSessionHandle χ) :
    ActiveProxyCallRegistry χ :=
  { r with
    entries := r.entries.insert entry.sessionId entry
    handles := r.handles.insert handle.sessionId handle }

def dialogsOf (sessionId : String) : List String :=
  (r.dialogBySession.lookup sessionId).getD []

def registerDialog (dialogId : String) (handle : SipSessionHandle χ) : ActiveProxyCallRegistry χ :=
  { r with
    handlesByDialog := r.handlesByDialog.insert dialogId handle
    dialogBySession :=
      r.dialogBySession.insert handle.sessionId (r.dialogsOf handle.sessionId ++ [dialogId]) }

def unregisterDialog (dialogId : String) : ActiveProxyCallRegistry χ :=
  match r.handlesByDialog.lookup dialogId with
  | none => r
  | some handle =>
    { r with
      handlesByDialog := r.handlesByDialog.erase dialogId
      dialogBySession :=
        match r.dialogBySession.lookup handle.sessionId with
        | none => r.dialogBySession
        | some dialogs =>
          let dialogs := dialogs.filter (· ≠ dialogId)
          if dialogs.isEmpty then r.dialogBySession.erase handle.sessionId
          else r.dialogBySession.insert handle.sessionId dialogs }

def getHandleByDialog (dialogId : String) : Option (SipSessionHandle χ) :=
  r.handlesByDialog.lookup dialogId

def registerCallId (callId : String) (handle : SipSessionHandle χ) : ActiveProxyCallRegistry χ :=
  r.registerDialog callId handle

def remove (sessionId : String) : ActiveProxyCallRegistry χ :=
  { entries := r.entries.erase sessionId
    handles := r.handles.erase sessionId
    handlesByDialog := r.handlesByDialog.eraseAll (r.dialogsOf sessionId)
    dialogBySession := r.dialogBySession.erase sessionId }

def stale (cutoff : Int) : List String :=
  (r.entries.entries.filter fun row => row.2.answeredAt.getD row.2.startedAt < cutoff).map (·.1)

/-- The instant before which a session is stale; an age that is too long counts as one hour. -/
def staleCutoff (now : Int) (maxAge : Nat) : Int :=
  now - (Time.fromStd maxAge).getD (Time.secs 3600)

def cleanupStale (now : Int) (maxAge : Nat) : Nat × ActiveProxyCallRegistry χ :=
  let stale := r.stale (staleCutoff now maxAge)
  (stale.length, stale.foldl remove r)

variable {r}

theorem getHandleByDialog_registerDialog :
    (r.registerDialog dialog handle).getHandleByDialog dialog' =
      if dialog' = dialog then some handle else r.getHandleByDialog dialog' :=
  lookup_insert_eq _ _ _ _

theorem dialogsOf_registerDialog : (r.registerDialog dialog handle).dialogsOf session =
      if session = handle.sessionId then r.dialogsOf session ++ [dialog]
      else r.dialogsOf session := by
  have hlookup : (r.registerDialog dialog handle).dialogBySession.lookup session =
      if session = handle.sessionId then some (r.dialogsOf handle.sessionId ++ [dialog])
      else r.dialogBySession.lookup session :=
    lookup_insert_eq _ _ _ _
  rw [dialogsOf, hlookup]
  split
  next heq => rw [heq, getD_some]
  · rfl

theorem getHandleByDialog_unregisterDialog : (r.unregisterDialog dialog).getHandleByDialog dialog' =
      if dialog' = dialog then none else r.getHandleByDialog dialog' := by
  unfold unregisterDialog
  split
  next hnone =>
    split
    next heq =>
      rw [heq]
      exact hnone
    · rfl
  · exact lookup_erase_eq _ _ _

theorem dialogsOf_unregisterDialog (h : r.getHandleByDialog dialog = some handle) :
    (r.unregisterDialog dialog).dialogsOf session =
      if session = handle.sessionId then (r.dialogsOf session).filter (· ≠ dialog)
      else r.dialogsOf session := by
  unfold unregisterDialog
  rw [show r.handlesByDialog.lookup dialog = some handle from h]
  unfold dialogsOf
  dsimp only
  cases hdialogs : r.dialogBySession.lookup handle.sessionId with
  | none =>
    dsimp only
    split
    next heq =>
      rw [heq, hdialogs]
      rfl
    · rfl
  | some dialogs =>
    dsimp only
    split
    next hempty =>
      rw [lookup_erase_eq]
      split
      next heq =>
        rw [heq, hdialogs]
        exact (isEmpty_iff.mp hempty).symm
      · rfl
    next hempty =>
      rw [lookup_insert_eq]
      split
      next heq => rw [heq, hdialogs, getD_some, getD_some]
      · rfl

theorem unregisterDialog_of_none (h : r.getHandleByDialog dialog = none) :
    r.unregisterDialog dialog = r := by
  unfold unregisterDialog
  rw [show r.handlesByDialog.lookup dialog = none from h]

theorem getHandleByDialog_remove : (r.remove session).getHandleByDialog dialog =
      if dialog ∈ r.dialogsOf session then none else r.getHandleByDialog dialog :=
  lookup_eraseAll _ _ _

theorem dialogsOf_remove : (r.remove session).dialogsOf session' =
      if session' = session then [] else r.dialogsOf session' := by
  have hlookup : (r.remove session).dialogBySession.lookup session' =
      if session' = session then none else r.dialogBySession.lookup session' :=
    lookup_erase_eq _ _ _
  rw [dialogsOf, hlookup]
  split
  · rfl
  · rfl

/-! ## Dialogs and their sessions -/

/-- Every dialog of a session leads to that session. -/
def Filed (r : ActiveProxyCallRegistry χ) : Prop :=
  ∀ session, ∀ dialog ∈ r.dialogsOf session,
    ∃ handle, r.getHandleByDialog dialog = some handle ∧ handle.sessionId = session

theorem filed_empty : Filed ({} : ActiveProxyCallRegistry χ) :=
  fun _ _ hdialog => absurd hdialog not_mem_nil

section

variable (h : r.Filed)
include h

theorem Filed.not_mem (hget : r.getHandleByDialog dialog = some handle)
    (hne : session ≠ handle.sessionId) : dialog ∉ r.dialogsOf session := by
  intro hdialog
  obtain ⟨handle', hget', hsession⟩ := h session dialog hdialog
  rw [hget] at hget'
  cases hget'
  exact hne hsession.symm

theorem Filed.registerDialog
    (hfree : ∀ session ≠ handle.sessionId, dialog ∉ r.dialogsOf session) :
    (r.registerDialog dialog handle).Filed := by
  intro session dialog' hdialog
  rw [dialogsOf_registerDialog] at hdialog
  rw [getHandleByDialog_registerDialog]
  by_cases hsession : session = handle.sessionId
  · by_cases heq : dialog' = dialog
    · exact ⟨handle, if_pos heq, hsession.symm⟩
    · rw [if_pos hsession] at hdialog
      rw [if_neg heq]
      rcases mem_append.mp hdialog with hold | hnew
      · exact h session dialog' hold
      · exact absurd (mem_singleton.mp hnew) heq
  · rw [if_neg hsession] at hdialog
    have hne : dialog' ≠ dialog := fun heq => hfree session hsession (heq ▸ hdialog)
    rw [if_neg hne]
    exact h session dialog' hdialog

theorem Filed.unregisterDialog (dialog : String) :
    (r.unregisterDialog dialog).Filed := by
  cases hget : r.getHandleByDialog dialog with
  | none =>
    rw [unregisterDialog_of_none hget]
    exact h
  | some handle =>
    intro session dialog' hdialog
    rw [dialogsOf_unregisterDialog hget] at hdialog
    rw [getHandleByDialog_unregisterDialog]
    split at hdialog
    next hsession =>
      obtain ⟨hmem, hne⟩ := mem_filter.mp hdialog
      rw [if_neg (of_decide_eq_true hne)]
      exact h session dialog' hmem
    next hsession =>
      have hne : dialog' ≠ dialog := fun heq => h.not_mem hget hsession (heq ▸ hdialog)
      rw [if_neg hne]
      exact h session dialog' hdialog

theorem Filed.getHandleByDialog_remove
    (hget : r.getHandleByDialog dialog = some handle) (hne : session ≠ handle.sessionId) :
    (r.remove session).getHandleByDialog dialog = some handle := by
  rw [ActiveProxyCallRegistry.getHandleByDialog_remove, if_neg (h.not_mem hget hne)]
  exact hget

theorem Filed.remove (session : String) : (r.remove session).Filed := by
  intro session' dialog hdialog
  rw [dialogsOf_remove] at hdialog
  split at hdialog
  · exact absurd hdialog not_mem_nil
  next hne =>
    obtain ⟨handle, hget, hsession⟩ := h session' dialog hdialog
    have hother : session ≠ handle.sessionId := fun heq => hne (hsession.symm.trans heq.symm)
    exact ⟨handle, h.getHandleByDialog_remove hget hother, hsession⟩

theorem Filed.removeAll (sessions : List String) :
    (sessions.foldl ActiveProxyCallRegistry.remove r).Filed := by
  induction sessions generalizing r with
  | nil => exact h
  | cons session sessions ih => exact ih (h.remove session)

theorem Filed.getHandleByDialog_removeAll {sessions : List String}
    (hget : r.getHandleByDialog dialog = some handle) (hne : handle.sessionId ∉ sessions) :
    (sessions.foldl ActiveProxyCallRegistry.remove r).getHandleByDialog dialog = some handle := by
  induction sessions generalizing r with
  | nil => exact hget
  | cons session sessions ih =>
    have hhead : session ≠ handle.sessionId := fun heq => hne (heq ▸ mem_cons_self)
    have htail : handle.sessionId ∉ sessions := fun hmem => hne (mem_cons_of_mem _ hmem)
    exact ih (h.remove session) (h.getHandleByDialog_remove hget hhead) htail

end

/-- Every dialog is among the dialogs of its session. -/
def Listed (r : ActiveProxyCallRegistry χ) : Prop :=
  ∀ dialog handle, r.getHandleByDialog dialog = some handle → dialog ∈ r.dialogsOf handle.sessionId

structure Gone (r : ActiveProxyCallRegistry χ) (session : String) : Prop where
  noEntry : r.entries.lookup session = none
  noHandle : r.handles.lookup session = none
  noDialogs : r.dialogBySession.lookup session = none
  noOwner : ∀ dialog handle, r.getHandleByDialog dialog = some handle → handle.sessionId ≠ session

theorem Gone.unregisterDialog (h : r.Gone session) : (r.unregisterDialog dialog).Gone session := by
  unfold ActiveProxyCallRegistry.unregisterDialog
  split
  · exact h
  next handle hold =>
    refine ⟨h.noEntry, h.noHandle, ?_, fun dialog' handle' hget => ?_⟩
    · grind [lookup_erase_eq, lookup_insert_eq, h.noDialogs]
    · rw [getHandleByDialog, lookup_erase_eq, ite_none_left_eq_some] at hget
      exact h.noOwner dialog' handle' hget.2

theorem Listed.remove (h : r.Listed) (session : String) :
    (r.remove session).Listed ∧
      ∀ session', session' = session ∨ r.Gone session' → (r.remove session).Gone session' := by
  have howner (dialog handle) (hget : (r.remove session).getHandleByDialog dialog = some handle) :
      r.getHandleByDialog dialog = some handle ∧ handle.sessionId ≠ session := by
    rw [getHandleByDialog_remove, ite_none_left_eq_some] at hget
    exact ⟨hget.2, fun heq => hget.1 (heq ▸ h dialog handle hget.2)⟩
  refine ⟨fun dialog handle hget => ?_, fun session' hgone => ⟨?_, ?_, ?_, ?_⟩⟩
  · obtain ⟨hget, hne⟩ := howner dialog handle hget
    rw [dialogsOf_remove, if_neg hne]
    exact h dialog handle hget
  all_goals grind [ActiveProxyCallRegistry.remove, lookup_erase_eq, Gone]

theorem Listed.removeAll (h : r.Listed) (sessions : List String) :
    (sessions.foldl ActiveProxyCallRegistry.remove r).Listed ∧
      ∀ session, session ∈ sessions ∨ r.Gone session →
        (sessions.foldl ActiveProxyCallRegistry.remove r).Gone session := by
  induction sessions generalizing r with
  | nil => exact ⟨h, fun session hgone => hgone.resolve_left not_mem_nil⟩
  | cons first sessions ih =>
    obtain ⟨hlisted, hfirst⟩ := h.remove first
    obtain ⟨hlisted, hrest⟩ := ih hlisted
    exact ⟨hlisted, fun session hgone => hrest session (by grind)⟩

end ActiveProxyCallRegistry

/-! ## Runs -/

inductive CallOp (χ : Type) where
  | upsert (entry : ActiveProxyCallEntry) (handle : SipSessionHandle χ)
  | registerDialog (dialogId : String) (handle : SipSessionHandle χ)
  | unregisterDialog (dialogId : String)
  | registerCallId (callId : String) (handle : SipSessionHandle χ)
  | remove (sessionId : String)
  | cleanupStale (now : Int) (maxAge : Nat)

namespace CallOp

variable {χ : Type}

def run (r : ActiveProxyCallRegistry χ) : CallOp χ → ActiveProxyCallRegistry χ
  | .upsert entry handle => r.upsert entry handle
  | .registerDialog dialogId handle => r.registerDialog dialogId handle
  | .unregisterDialog dialogId => r.unregisterDialog dialogId
  | .registerCallId callId handle => r.registerCallId callId handle
  | .remove sessionId => r.remove sessionId
  | .cleanupStale now maxAge => (r.cleanupStale now maxAge).2

def registers : CallOp χ → Option (String × SipSessionHandle χ)
  | .registerDialog dialogId handle | .registerCallId dialogId handle => some (dialogId, handle)
  | _ => none

def removes (r : ActiveProxyCallRegistry χ) : CallOp χ → List String
  | .remove sessionId => [sessionId]
  | .cleanupStale now maxAge => r.stale (ActiveProxyCallRegistry.staleCutoff now maxAge)
  | _ => []

/-- No session registers a dialog that is among those of another session. -/
def Unclaimed (r : ActiveProxyCallRegistry χ) (op : CallOp χ) : Prop :=
  ∀ registered ∈ op.registers, ∀ session ≠ registered.2.sessionId,
    registered.1 ∉ r.dialogsOf session

/-- The dialog is neither registered again nor unregistered, and the session is not removed. -/
def Spares (dialog session : String) (r : ActiveProxyCallRegistry χ) (op : CallOp χ) : Prop :=
  (∀ registered ∈ op.registers, registered.1 ≠ dialog) ∧ op ≠ .unregisterDialog dialog ∧
    session ∉ op.removes r

def Runs (C : ActiveProxyCallRegistry χ → CallOp χ → Prop) :
    ActiveProxyCallRegistry χ → ActiveProxyCallRegistry χ → Prop :=
  Relation.ReflTransGen fun r r' => ∃ op : CallOp χ, C r op ∧ r' = op.run r

variable {op : CallOp χ} {dialog : String} {handle : SipSessionHandle χ}

open ActiveProxyCallRegistry

theorem Unclaimed.filed (hc : op.Unclaimed r) (h : r.Filed) : (op.run r).Filed := by
  cases op with
  | upsert entry handle => exact h
  | registerDialog dialogId handle | registerCallId dialogId handle =>
    exact h.registerDialog (hc (dialogId, handle) rfl)
  | unregisterDialog dialogId => exact h.unregisterDialog dialogId
  | remove sessionId => exact h.remove sessionId
  | cleanupStale now maxAge => exact h.removeAll _

theorem Spares.getHandleByDialog (hs : op.Spares dialog handle.sessionId r) (h : r.Filed)
    (hget : r.getHandleByDialog dialog = some handle) :
    (op.run r).getHandleByDialog dialog = some handle := by
  obtain ⟨hregisters, hunregisters, hremoves⟩ := hs
  cases op with
  | upsert entry handle => exact hget
  | registerDialog dialogId handle' | registerCallId dialogId handle' =>
    have hne := (hregisters (dialogId, handle') rfl).symm
    exact getHandleByDialog_registerDialog.trans ((if_neg hne).trans hget)
  | unregisterDialog dialogId =>
    have hne : dialog ≠ dialogId := fun heq => hunregisters (by rw [heq])
    exact getHandleByDialog_unregisterDialog.trans ((if_neg hne).trans hget)
  | remove sessionId =>
    exact h.getHandleByDialog_remove hget fun heq => hremoves (mem_singleton.mpr heq.symm)
  | cleanupStale now maxAge => exact h.getHandleByDialog_removeAll hget hremoves

theorem Runs.filed (hruns : Runs (fun r op => op.Unclaimed r) r r') (h : r.Filed) : r'.Filed := by
  induction hruns with
  | refl => exact h
  | tail _ hstep ih =>
    obtain ⟨op, hc, rfl⟩ := hstep
    exact hc.filed ih

theorem Runs.getHandleByDialog
    (hruns : Runs (fun r op => op.Unclaimed r ∧ op.Spares dialog handle.sessionId r) r r')
    (h : r.Filed) (hget : r.getHandleByDialog dialog = some handle) :
    r'.Filed ∧ r'.getHandleByDialog dialog = some handle := by
  induction hruns with
  | refl => exact ⟨h, hget⟩
  | tail _ hstep ih =>
    obtain ⟨op, ⟨hc, hs⟩, rfl⟩ := hstep
    exact ⟨hc.filed ih.1, hs.getHandleByDialog ih.1 ih.2⟩

theorem getHandleByDialog_of_registers (h : op.registers = some (dialog, handle)) :
    (op.run r).getHandleByDialog dialog = some handle := by
  cases op with
  | registerDialog | registerCallId =>
    cases h
    exact getHandleByDialog_registerDialog.trans (if_pos rfl)
  | _ => cases h

/-- **A dialog leads to the session that registered it last**, until it is unregistered or that
session is removed, and no other removal takes it out of reach. -/
theorem dialog_reaches_latest (hbefore : Runs (fun r op => op.Unclaimed r) {} r)
    (hop : op.Unclaimed r) (hregisters : op.registers = some (dialog, handle))
    (hafter : Runs (fun r op => op.Unclaimed r ∧ op.Spares dialog handle.sessionId r)
      (op.run r) r') : r'.getHandleByDialog dialog = some handle ∧
      ∀ dialog' handle', r'.getHandleByDialog dialog' = some handle' →
        (∀ session ≠ handle'.sessionId,
          (r'.remove session).getHandleByDialog dialog' = some handle') ∧
        ∀ now maxAge, handle'.sessionId ∉ r'.stale (staleCutoff now maxAge) →
          (r'.cleanupStale now maxAge).2.getHandleByDialog dialog' = some handle' := by
  have hfiled : (op.run r).Filed := hop.filed (hbefore.filed filed_empty)
  obtain ⟨hfiled', hget⟩ :=
    hafter.getHandleByDialog hfiled (getHandleByDialog_of_registers hregisters)
  refine ⟨hget, fun dialog' handle' hget' => ⟨fun session hne => ?_, fun now maxAge hlive => ?_⟩⟩
  · exact hfiled'.getHandleByDialog_remove hget' hne
  · exact hfiled'.getHandleByDialog_removeAll hget' hlive

theorem dialog_reaches_latest_call : ∃ r : ActiveProxyCallRegistry Unit,
    r.getHandleByDialog "e" = some ⟨"b", ()⟩ ∧ r.getHandleByDialog "d" = some ⟨"a", ()⟩ ∧
      (r.remove "b").getHandleByDialog "d" = some ⟨"a", ()⟩ ∧
      (r.remove "b").getHandleByDialog "e" = none := by
  let one := (CallOp.registerDialog "e" ⟨"b", ()⟩).run ({} : ActiveProxyCallRegistry Unit)
  have hone : Runs (fun r op => op.Unclaimed r) {} one :=
    .single ⟨_, fun _ _ _ _ => not_mem_nil, rfl⟩
  have hop : (CallOp.registerDialog "d" (⟨"a", ()⟩ : SipSessionHandle Unit)).Unclaimed one := by
    rintro _ ⟨⟩ session -
    refine dialogsOf_registerDialog ▸ ?_
    split
    · exact fun h => absurd (mem_singleton.mp h) (by decide)
    · exact not_mem_nil
  obtain ⟨hget, hremove⟩ := dialog_reaches_latest hone hop rfl .refl
  exact ⟨_, by decide, hget, (hremove "d" ⟨"a", ()⟩ hget).1 "b" (by decide), by decide⟩

/-- A dialog that has moved from one session to another is lost when the first is removed. -/
theorem moved_dialog_lost : ∃ r : ActiveProxyCallRegistry Unit, Runs (fun _ _ => True) {} r ∧
      r.getHandleByDialog "d" = some ⟨"b", ()⟩ ∧ (r.remove "a").getHandleByDialog "d" = none := by
  let before := (CallOp.registerDialog "d" ⟨"a", ()⟩).run ({} : ActiveProxyCallRegistry Unit)
  have hfirst : Runs (fun _ _ => True) {} before := .single ⟨_, trivial, rfl⟩
  exact ⟨(CallOp.registerDialog "d" ⟨"b", ()⟩).run before, .tail hfirst ⟨_, trivial, rfl⟩,
    by decide, by decide⟩

def adds : CallOp χ → List String
  | .upsert entry handle => [entry.sessionId, handle.sessionId]
  | .registerDialog _ handle | .registerCallId _ handle => [handle.sessionId]
  | _ => []

theorem gone_run (h : r.Listed) (op : CallOp χ) : (op.run r).Listed ∧ ∀ session ∉ op.adds,
    session ∈ op.removes r ∨ r.Gone session → (op.run r).Gone session := by
  cases op with
  | upsert entry handle =>
    refine ⟨h, fun session hadds hgone => ?_⟩
    obtain ⟨hentry, hhandle, hdialogs, howner⟩ := hgone.resolve_left not_mem_nil
    rw [adds, mem_cons, mem_singleton, not_or] at hadds
    exact ⟨(lookup_insert_eq _ _ _ _).trans ((if_neg hadds.1).trans hentry),
      (lookup_insert_eq _ _ _ _).trans ((if_neg hadds.2).trans hhandle), hdialogs, howner⟩
  | registerDialog dialogId handle | registerCallId dialogId handle =>
    refine ⟨fun dialog' handle' hget => ?_, fun session hadds hgone => ?_⟩
    · have hget := getHandleByDialog_registerDialog.symm.trans hget
      refine dialogsOf_registerDialog ▸ ?_
      grind [h dialog' handle']
    · obtain ⟨hentry, hhandle, hdialogs, howner⟩ := hgone.resolve_left not_mem_nil
      rw [adds, mem_singleton] at hadds
      refine ⟨hentry, hhandle, (lookup_insert_eq _ _ _ _).trans ((if_neg hadds).trans hdialogs),
        fun dialog' handle' hget => ?_⟩
      have hget := getHandleByDialog_registerDialog.symm.trans hget
      grind
  | unregisterDialog dialogId =>
    refine ⟨fun dialog' handle' hget => ?_, fun session _ hgone => ?_⟩
    · rw [run, getHandleByDialog_unregisterDialog, ite_none_left_eq_some] at hget
      rw [run]
      cases hold : r.getHandleByDialog dialogId with
      | none =>
        rw [unregisterDialog_of_none hold]
        exact h dialog' handle' hget.2
      | some handle =>
        rw [dialogsOf_unregisterDialog hold]
        grind [h dialog' handle' hget.2]
    · exact (hgone.resolve_left not_mem_nil).unregisterDialog
  | remove sessionId =>
    exact ⟨(h.remove sessionId).1, fun session _ => (h.removeAll [sessionId]).2 session⟩
  | cleanupStale now maxAge => exact ⟨(h.removeAll _).1, fun session _ => (h.removeAll _).2 session⟩

/-- `cleanup_stale` removes the sessions from the other maps only. -/
def removesHeartbeat : CallOp χ → List String
  | .remove sessionId => [sessionId]
  | _ => []

end CallOp

/-- The registry with the contexts and the heartbeats of the sessions. -/
structure SessionMaps (χ μ : Type) where
  calls : ActiveProxyCallRegistry χ := {}
  contextMeta : Table String μ := ∅
  heartbeats : Table String UInt64 := ∅

inductive SessionOp (χ μ : Type) where
  | call (op : CallOp χ)
  | update (sessionId : String) (updater : ActiveProxyCallEntry → ActiveProxyCallEntry)
  | setContextMeta (sessionId : String) (context : μ)
  | touchHeartbeat (sessionId : String) (now : UInt64)

namespace SessionOp

variable {χ μ : Type} {m : SessionMaps χ μ} {op : SessionOp χ μ}

def run (m : SessionMaps χ μ) : SessionOp χ μ → SessionMaps χ μ
  | .call op =>
    { calls := op.run m.calls
      contextMeta := m.contextMeta.eraseAll (op.removes m.calls)
      heartbeats := m.heartbeats.eraseAll op.removesHeartbeat }
  | .update sessionId updater =>
    { m with calls.entries := m.calls.entries.mapRows fun key entry =>
        if key = sessionId then updater entry else entry }
  | .setContextMeta sessionId context =>
    { m with contextMeta := m.contextMeta.insert sessionId context }
  | .touchHeartbeat sessionId now => { m with heartbeats := m.heartbeats.insert sessionId now }

def adds : SessionOp χ μ → List String
  | .call op => op.adds
  | .update _ _ => []
  | .setContextMeta sessionId _ | .touchHeartbeat sessionId _ => [sessionId]

/-- The operation takes a session out of all maps, if it has no heartbeat that is left. -/
def Clears (m : SessionMaps χ μ) (session : String) : SessionOp χ μ → Prop
  | .call op => session ∈ op.removes m.calls ∧
      (session ∈ op.removesHeartbeat ∨ m.heartbeats.lookup session = none)
  | _ => False

structure Cleared (m : SessionMaps χ μ) (session : String) : Prop where
  calls : m.calls.Gone session
  noContext : m.contextMeta.lookup session = none
  noHeartbeat : m.heartbeats.lookup session = none

theorem cleared_run (h : m.calls.Listed) (op : SessionOp χ μ) : (op.run m).calls.Listed ∧
    ∀ session ∉ op.adds, op.Clears m session ∨ Cleared m session → Cleared (op.run m) session := by
  cases op with
  | call op =>
    obtain ⟨hlisted, hgone⟩ := CallOp.gone_run h op
    refine ⟨hlisted, fun session hadds hcleared => ⟨hgone session hadds ?_, ?_, ?_⟩⟩
    · exact hcleared.imp And.left Cleared.calls
    · exact (lookup_eraseAll _ _ _).trans (by grind [Clears, Cleared])
    · exact (lookup_eraseAll _ _ _).trans (by grind [Clears, Cleared])
  | update sessionId updater =>
    refine ⟨h, fun session _ hcleared => ?_⟩
    obtain ⟨hcalls, hcontext, hheartbeat⟩ := hcleared.resolve_left id
    refine ⟨⟨?_, hcalls.noHandle, hcalls.noDialogs, hcalls.noOwner⟩, hcontext, hheartbeat⟩
    exact (lookup_mapRows _ _ _).trans (by rw [hcalls.noEntry]; rfl)
  | setContextMeta | touchHeartbeat =>
    refine ⟨h, fun session hadds hcleared => ?_⟩
    obtain ⟨hcalls, hcontext, hheartbeat⟩ := hcleared.resolve_left id
    constructor <;> grind [run, lookup_insert_eq, adds]

theorem cleared_runs (h : m.calls.Listed) (ops : List (SessionOp χ μ)) :
    (ops.foldl run m).calls.Listed ∧ ∀ session, (∀ op ∈ ops, session ∉ op.adds) →
      Cleared m session → Cleared (ops.foldl run m) session := by
  induction ops generalizing m with
  | nil => exact ⟨h, fun _ _ => id⟩
  | cons op ops ih =>
    obtain ⟨hlisted, hstep⟩ := cleared_run h op
    refine ⟨(ih hlisted).1, fun session hadds hcleared => ?_⟩
    obtain ⟨hfirst, hrest⟩ := forall_mem_cons.mp hadds
    exact (ih hlisted).2 session hrest (hstep session hfirst (.inr hcleared))

/-- **Nothing is left of a session** after it is removed, or cleaned up when it has no heartbeat, as
long as nothing of it is added again. -/
theorem session_leaves_nothing (before after : List (SessionOp χ μ)) (op : SessionOp χ μ)
    (session : String) (hclears : op.Clears (before.foldl run {}) session)
    (hadds : ∀ op ∈ after, session ∉ op.adds) :
    Cleared ((before ++ op :: after).foldl run {}) session := by
  have hnone : session ∉ op.adds := by
    cases op with
    | call op => cases op <;> first | exact not_mem_nil | cases hclears.1
    | _ => cases hclears
  have hempty : ({} : SessionMaps χ μ).calls.Listed := fun _ _ h => nomatch h
  obtain ⟨hlisted, hstep⟩ := cleared_run (cleared_runs hempty before).1 op
  rw [foldl_append]
  exact (cleared_runs hlisted after).2 session hadds (hstep session hnone (.inl hclears))

def beating : List (SessionOp Unit Unit) :=
  [.call (.upsert ⟨"a", none, none, "inbound", 0, none, .ringing⟩ ⟨"a", ()⟩), .touchHeartbeat "a" 0]

theorem session_leaves_nothing_beating :
    Cleared ((beating ++ [call (.remove "a")]).foldl run {}) "a" :=
  session_leaves_nothing beating [] _ "a" ⟨by decide, by decide⟩ nofun

/-- The heartbeat of a session that is cleaned up stays. -/
theorem heartbeat_left :
    let m := (beating ++ [call (.cleanupStale (Time.secs 7200) (Time.secs 3600))]).foldl run {}
    m.calls.entries.lookup "a" = none ∧ m.heartbeats.lookup "a" = some 0 := by
  decide

end SessionOp

end RustPbx.Proxy
