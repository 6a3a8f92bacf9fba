import RustPbx.Lib.Machine
import RustPbx.Lib.Table

/-!
The conference manager.

Rooms, the attachments of legs and the rooms that legs are in are kept in three concurrent maps. The
operations, the timers of the rooms and their watchdogs are tasks that run side by side, and each
access to a map and each wait is a step of its own. What a step depends on besides the maps is in
its `Choice`. Legs, rooms and the queues of sessions are known by their identity only. Muting is
left out: nothing here looks at it.
-/

namespace RustPbx.Conference

abbrev LegId := String

abbrev ConferenceId := String

/-- `session` is the command queue of the session that owns the leg. -/
structure ConferenceParticipant where
  session : Option Nat := none

structure ConferenceRoom where
  focusUri : Option String := none
  participants : Table LegId ConferenceParticipant := ∅
  hostLegId : Option LegId := none
  createdAt : Nat
  maxParticipants : Option Nat
  maxParticipantsSeen : Nat := 0
  lastParticipantChange : Nat

inductive ConferenceError where
  | alreadyExists (conf : ConferenceId)
  | notFound (conf : ConferenceId)
  | inOther (leg : LegId) (conf : ConferenceId)
  | atMaximumCapacity
  | alreadyIn (leg : LegId)
  | notIn (leg : LegId)
  | notHost (leg : LegId) (conf : ConferenceId)
  | mixerStopped
  /-- The room is gone before `create_conference_ex` returns it, which panics. -/
  | justInserted

namespace ConferenceRoom

def new (now : Nat) (maxParticipants : Option Nat) (host : Option LegId) : ConferenceRoom where
  hostLegId := host
  createdAt := now
  maxParticipants := maxParticipants
  lastParticipantChange := now

variable (room : ConferenceRoom)

def participantCount : Nat :=
  room.participants.entries.length

def isFull : Bool :=
  room.maxParticipants.any (· ≤ room.participantCount)

def addParticipant (now : Nat) (leg : LegId) (room : ConferenceRoom) :
    Except ConferenceError ConferenceRoom :=
  if room.isFull then .error .atMaximumCapacity
  else if leg ∈ room.participants then .error (.alreadyIn leg)
  else
    let participants := room.participants.insert leg {}
    .ok { room with
      participants
      maxParticipantsSeen := max room.maxParticipantsSeen participants.entries.length
      lastParticipantChange := now }

def removeParticipant (now : Nat) (leg : LegId) (room : ConferenceRoom) :
    Except ConferenceError ConferenceRoom :=
  if leg ∈ room.participants then
    .ok { room with
      participants := room.participants.erase leg
      lastParticipantChange := now }
  else .error (.notIn leg)

def isHost (leg : LegId) (room : ConferenceRoom) : Bool :=
  room.hostLegId = some leg

def managedOwner : Option Nat := do
  let owner ← room.hostLegId
  let participant ← room.participants.lookup owner
  participant.session

def sessions : List (LegId × Option Nat) :=
  room.participants.entries.map fun row => (row.1, row.2.session)

end ConferenceRoom

/-- `token` is the cancellation token of the timer of the room. -/
structure ConferenceState where
  room : ConferenceRoom
  token : Option Nat := none

/-! ## Tasks -/

inductive Operation where
  | create (conf : ConferenceId) (maxParticipants : Option Nat) (host : Option LegId)
    (maxDuration : Option Nat)
  | destroy (conf : ConferenceId)
  | endByHost (conf : ConferenceId) (host : LegId)
  | add (conf : ConferenceId) (leg : LegId)
  | remove (conf : ConferenceId) (leg : LegId)
  | removeLegFromAll (leg : LegId)

inductive Origin where
  /-- Someone asked for it, or its time is up. -/
  | request
  /-- The last participant has left. -/
  | departure
  | watchdog

/-- What `remove_participant` has found out when it has changed the room. -/
structure Departure where
  creatorLeft : Bool
  owner : Option Nat
  remaining : Nat

/-- Where a task is: what it does with its next step. -/
inductive Task where
  | idle
  | finished (error : Option ConferenceError)
  -- `create_conference_ex`
  | claims (conf : ConferenceId) (createdAt : Nat) (maxParticipants : Option Nat)
    (host : Option LegId) (maxDuration : Option Nat)
  | spawnsTimer (conf : ConferenceId) (maxDuration : Nat)
  | spawnsWatchdog (conf : ConferenceId)
  | returnsRoom (conf : ConferenceId)
  -- the spawned tasks
  | timer (conf : ConferenceId) (deadline token : Nat)
  | watchdog (conf : ConferenceId) (wake : Nat)
  -- `destroy_conference`
  | destroys (origin : Origin) (conf : ConferenceId)
  | unmaps (conf : ConferenceId) (leg : LegId) (session : Option Nat)
    (rest : List (LegId × Option Nat))
  | detaches (conf : ConferenceId) (leg : LegId) (session : Option Nat)
    (rest : List (LegId × Option Nat))
  | stopsMixer
  | asksHost (conf : ConferenceId) (host : LegId)
  -- `add_participant_ex`
  | checks (conf : ConferenceId) (leg : LegId)
  | joins (conf : ConferenceId) (leg : LegId)
  | mixes (conf : ConferenceId) (leg : LegId)
  | attaches (conf : ConferenceId) (leg : LegId)
  | maps (conf : ConferenceId) (leg : LegId)
  -- `remove_leg_from_all` and `remove_participant`
  | looksUp (leg : LegId)
  | leaves (conf : ConferenceId) (leg : LegId)
  | unmixes (conf : ConferenceId) (leg : LegId) (departure : Departure)
  | detachesLeg (conf : ConferenceId) (leg : LegId) (departure : Departure)
  | unmapsLeg (conf : ConferenceId) (leg : LegId) (departure : Departure)
  | winds (conf : ConferenceId) (departure : Departure)

/-- The first step of an operation, up to its first access to a map. -/
def Operation.task (now : Nat) : Operation → Task
  | .create conf maxParticipants host maxDuration =>
    .claims conf now maxParticipants host maxDuration
  | .destroy conf => .destroys .request conf
  | .endByHost conf host => .asksHost conf host
  | .add conf leg => .checks conf leg
  | .remove conf leg => .leaves conf leg
  | .removeLegFromAll leg => .looksUp leg

/-- Nothing of the task is left to do, apart from the timers and watchdogs, which wait. -/
def Task.resting : Task → Bool
  | .idle | .finished _ | .timer .. | .watchdog .. => true
  | _ => false

structure Choice where
  mixer : Bool := true
  /-- The task that a spawned task becomes. -/
  child : Nat := 0
  order : List (LegId × Option Nat) := []
  /-- Whether a timer looks at its token rather than at the time. -/
  token : Bool := false

inductive Input where
  | tick (elapsed : Nat)
  | call (i : Nat) (operation : Operation)
  | run (i : Nat) (choice : Choice)
  | setFocus (conf : ConferenceId) (uri : String)
  | bindTransferOwner (conf : ConferenceId) (caller peer : LegId)
  | bindParticipantSession (conf : ConferenceId) (leg : LegId) (session : Nat)

/-- `ended` are the queues that were told that a conference has ended. -/
structure ConferenceManager where
  emptyRoomGrace : Nat
  now : Nat := 0
  conferences : ConferenceId → Option ConferenceState := fun _ => none
  legAttachments : LegId → Bool := fun _ => false
  legToConference : LegId → Option ConferenceId := fun _ => none
  cancelled : List Nat := []
  nextToken : Nat := 0
  tasks : Nat → Task := fun _ => .idle
  ended : List (Nat × ConferenceId) := []

namespace ConferenceManager

/-! ## Steps -/

def setTask (i : Nat) (task : Task) (m : ConferenceManager) : ConferenceManager :=
  { m with tasks := Function.update m.tasks i task }

def setConference (conf : ConferenceId) (state : Option ConferenceState) (m : ConferenceManager) :
    ConferenceManager :=
  { m with conferences := Function.update m.conferences conf state }

def setRoom (conf : ConferenceId) (state : ConferenceState) (room : ConferenceRoom)
    (m : ConferenceManager) : ConferenceManager :=
  m.setConference conf (some { state with room })

def finish (i : Nat) (m : ConferenceManager) : ConferenceManager :=
  m.setTask i (.finished none)

def fail (i : Nat) (error : ConferenceError) (m : ConferenceManager) : ConferenceManager :=
  m.setTask i (.finished (some error))

def spawn (child : Nat) (task : Task) (m : ConferenceManager) : Option ConferenceManager :=
  match m.tasks child with
  | .idle | .finished _ => some (m.setTask child task)
  | _ => none

def notify (session : Option Nat) (conf : ConferenceId) (m : ConferenceManager) :
    ConferenceManager :=
  { m with ended := m.ended ++ session.toList.map (·, conf) }

def afterClaim (conf : ConferenceId) : Option Nat → Task
  | some maxDuration => .spawnsTimer conf maxDuration
  | none => .spawnsWatchdog conf

def claim (i : Nat) (conf : ConferenceId) (room : ConferenceRoom) (maxDuration : Option Nat)
    (m : ConferenceManager) : ConferenceManager :=
  match m.conferences conf with
  | none => (m.setConference conf (some { room })).setTask i (afterClaim conf maxDuration)
  | some _ => m.fail i (.alreadyExists conf)

def spawnTimer (i : Nat) (conf : ConferenceId) (maxDuration child : Nat) (m : ConferenceManager) :
    Option ConferenceManager :=
  let token := m.nextToken
  let conferences := Function.update m.conferences conf
    ((m.conferences conf).map fun state => { state with token := some token })
  spawn child (.timer conf (m.now + maxDuration) token)
    ({ m with conferences, nextToken := token + 1 }.setTask i (.spawnsWatchdog conf))

def spawnWatchdog (i : Nat) (conf : ConferenceId) (child : Nat) (m : ConferenceManager) :
    Option ConferenceManager :=
  let m := m.setTask i (.returnsRoom conf)
  if m.emptyRoomGrace = 0 then some m
  else m.spawn child (.watchdog conf (m.now + m.emptyRoomGrace))

def returnRoom (i : Nat) (conf : ConferenceId) (m : ConferenceManager) : ConferenceManager :=
  match m.conferences conf with
  | some _ => m.finish i
  | none => m.fail i .justInserted

def runTimer (i : Nat) (conf : ConferenceId) (deadline token : Nat) (choice : Choice)
    (m : ConferenceManager) : Option ConferenceManager :=
  if choice.token then
    if token ∈ m.cancelled then some (m.finish i) else none
  else if deadline ≤ m.now then some (m.setTask i (.destroys .request conf))
  else none

variable (m : ConferenceManager)

def verdict (room : ConferenceRoom) : Bool :=
  room.participantCount = 0 ∨
    room.participantCount = 1 ∧ room.hostLegId = none ∧ 2 ≤ room.maxParticipantsSeen ∧
      m.emptyRoomGrace ≤ m.now - room.lastParticipantChange

def sweep (i : Nat) (conf : ConferenceId) (wake : Nat) (m : ConferenceManager) :
    Option ConferenceManager :=
  if wake ≤ m.now then
    match m.conferences conf with
    | none => some (m.finish i)
    | some state =>
      if m.verdict state.room then some (m.setTask i (.destroys .watchdog conf))
      else some (m.setTask i (.watchdog conf (m.now + m.emptyRoomGrace)))
  else none

def visit (conf : ConferenceId) : List (LegId × Option Nat) → Task
  | [] => .stopsMixer
  | (leg, session) :: rest => .unmaps conf leg session rest

def destroy (i : Nat) (conf : ConferenceId) (order : List (LegId × Option Nat))
    (m : ConferenceManager) : Option ConferenceManager :=
  match m.conferences conf with
  | none => some (m.finish i)
  | some state =>
    if order.isPerm state.room.sessions then
      some { (m.setConference conf none).setTask i (visit conf order) with
        cancelled := m.cancelled ++ state.token.toList }
    else none

def unmap (leg : LegId) (m : ConferenceManager) : ConferenceManager :=
  { m with legToConference := Function.update m.legToConference leg none }

def detach (leg : LegId) (m : ConferenceManager) : ConferenceManager :=
  { m with legAttachments := Function.update m.legAttachments leg false }

def askHost (i : Nat) (conf : ConferenceId) (host : LegId) (m : ConferenceManager) :
    ConferenceManager :=
  match m.conferences conf with
  | none => m.fail i (.notFound conf)
  | some state =>
    if state.room.isHost host then m.setTask i (.destroys .request conf)
    else m.fail i (.notHost host conf)

def check (i : Nat) (conf : ConferenceId) (leg : LegId) (m : ConferenceManager) :
    ConferenceManager :=
  match m.legToConference leg with
  | some existing =>
    if existing ≠ conf then m.fail i (.inOther leg existing) else m.setTask i (.joins conf leg)
  | none => m.setTask i (.joins conf leg)

def join (i : Nat) (conf : ConferenceId) (leg : LegId) (m : ConferenceManager) :
    ConferenceManager :=
  match m.conferences conf with
  | none => m.fail i (.notFound conf)
  | some state =>
    match state.room.addParticipant m.now leg with
    | .error error => m.fail i error
    | .ok room => (m.setRoom conf state room).setTask i (.mixes conf leg)

def lookUp (i : Nat) (leg : LegId) (m : ConferenceManager) : ConferenceManager :=
  match m.legToConference leg with
  | none => m.finish i
  | some conf => m.setTask i (.leaves conf leg)

/-- A focus, or a managed host, makes the departure of the host end the conference; a managed host
in a room without focus is told of the departure of others. -/
def departureOf (leg : LegId) (room room' : ConferenceRoom) : Departure :=
  let creatorLeft := room.isHost leg && (room.focusUri.isSome || room.managedOwner.isSome)
  { creatorLeft
    owner := if !creatorLeft && room.focusUri.isNone then room.managedOwner else none
    remaining := room'.participantCount }

def leave (i : Nat) (conf : ConferenceId) (leg : LegId) (m : ConferenceManager) :
    ConferenceManager :=
  match m.conferences conf with
  | none => m.fail i (.notFound conf)
  | some state =>
    match state.room.removeParticipant m.now leg with
    | .error error => m.fail i error
    | .ok room =>
      (m.setRoom conf state room).setTask i (.unmixes conf leg (departureOf leg state.room room))

def windUp (i : Nat) (conf : ConferenceId) (departure : Departure) (child : Nat)
    (m : ConferenceManager) : Option ConferenceManager :=
  if departure.creatorLeft then some (m.setTask i (.destroys .request conf))
  else
    let m := (m.notify departure.owner conf).finish i
    if departure.remaining = 0 then m.spawn child (.destroys .departure conf) else some m

def runTask (i : Nat) (choice : Choice) (m : ConferenceManager) : Option ConferenceManager :=
  match m.tasks i with
  | .idle | .finished _ => none
  | .claims conf createdAt maxParticipants host maxDuration =>
    some (m.claim i conf (.new createdAt maxParticipants host) maxDuration)
  | .spawnsTimer conf maxDuration => m.spawnTimer i conf maxDuration choice.child
  | .spawnsWatchdog conf => m.spawnWatchdog i conf choice.child
  | .returnsRoom conf => some (m.returnRoom i conf)
  | .timer conf deadline token => m.runTimer i conf deadline token choice
  | .watchdog conf wake => m.sweep i conf wake
  | .destroys _ conf => m.destroy i conf choice.order
  | .unmaps conf leg session rest =>
    some ((m.unmap leg).setTask i (.detaches conf leg session rest))
  | .detaches conf leg session rest =>
    some (((m.detach leg).notify session conf).setTask i (visit conf rest))
  | .stopsMixer => some (m.finish i)
  | .asksHost conf host => some (m.askHost i conf host)
  | .checks conf leg => some (m.check i conf leg)
  | .joins conf leg => some (m.join i conf leg)
  | .mixes conf leg =>
    some (if choice.mixer then m.setTask i (.attaches conf leg) else m.fail i .mixerStopped)
  | .attaches conf leg =>
    some ({ m with legAttachments := Function.update m.legAttachments leg true }.setTask i
      (.maps conf leg))
  | .maps conf leg =>
    some ({ m with legToConference := Function.update m.legToConference leg (some conf) }.finish i)
  | .looksUp leg => some (m.lookUp i leg)
  | .leaves conf leg => some (m.leave i conf leg)
  | .unmixes conf leg departure =>
    some (if choice.mixer then m.setTask i (.detachesLeg conf leg departure)
      else m.fail i .mixerStopped)
  | .detachesLeg conf leg departure =>
    some ((m.detach leg).setTask i (.unmapsLeg conf leg departure))
  | .unmapsLeg conf leg departure => some ((m.unmap leg).setTask i (.winds conf departure))
  | .winds conf departure => m.windUp i conf departure choice.child

def modifyRoom (conf : ConferenceId) (f : ConferenceRoom → Option ConferenceRoom)
    (m : ConferenceManager) : ConferenceManager :=
  match m.conferences conf with
  | none => m
  | some state =>
    match f state.room with
    | none => m
    | some room => m.setRoom conf state room

def bindOwner (caller peer : LegId) (room : ConferenceRoom) : Option ConferenceRoom :=
  let attached (leg : LegId) := (room.participants.lookup leg).any (·.session.isSome)
  if attached caller && attached peer then some { room with hostLegId := some caller } else none

def bindSession (leg : LegId) (session : Nat) (room : ConferenceRoom) : Option ConferenceRoom :=
  if leg ∈ room.participants then
    some { room with participants := room.participants.insert leg { session := some session } }
  else none

def step : Input → Option ConferenceManager
  | .tick elapsed => some { m with now := m.now + elapsed }
  | .call i operation => m.spawn i (operation.task m.now)
  | .run i choice => m.runTask i choice
  | .setFocus conf uri =>
    some (m.modifyRoom conf fun room => some { room with focusUri := some uri })
  | .bindTransferOwner conf caller peer => some (m.modifyRoom conf (bindOwner caller peer))
  | .bindParticipantSession conf leg session =>
    some (m.modifyRoom conf (bindSession leg session))

/-- The steps from one state to another, where each of them meets `C`. -/
def Runs (C : ConferenceManager → Input → Prop) : ConferenceManager → ConferenceManager → Prop :=
  Relation.ReflTransGen fun m m' => ∃ input, C m input ∧ m.step input = some m'

def play (inputs : List Input) (m : ConferenceManager) : Option ConferenceManager :=
  inputs.foldlM step m

theorem Runs.next {m : ConferenceManager} (input : Input)
    (hruns : Runs C m m₁) (hstep : m₁.step input = some m₂) (hC : C m₁ input) : Runs C m m₂ :=
  hruns.tail ⟨input, hC, hstep⟩

theorem runs_play {m : ConferenceManager} (inputs : List Input) (h : m.play inputs = some m') :
    Runs (fun _ _ => True) m m' :=
  Machine.Runs.steps .refl h fun _ _ _ => trivial

structure Start (m : ConferenceManager) : Prop where
  conferences : ∀ conf, m.conferences conf = none
  legAttachments : ∀ leg, m.legAttachments leg = false
  legToConference : ∀ leg, m.legToConference leg = none
  tasks : ∀ i, m.tasks i = .idle

def Member (leg : LegId) (conf : ConferenceId) : Prop :=
  ∃ state, m.conferences conf = some state ∧ leg ∈ state.room.participants

end ConferenceManager

end RustPbx.Conference
