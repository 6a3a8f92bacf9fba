import RustPbx.Call.Location
import RustPbx.Routing.Types

/-!
The plan a call is queued with.
-/

namespace RustPbx.Routing

open Sip Call

inductive TransferEndpoint where
  | uri (uri : String)
  | queue (name : String)
  | routePoint (name : String)
  | ivr (name : String)
  | voicemail (mailbox : String)
  | conference (room : String)
  | realtime (preset : String)

inductive FailureAction where
  | hangup (code : Option UInt16) (reason : Option String)
  | playThenHangup (audioFile : String) (useEarlyMedia : Bool) (statusCode : UInt16)
      (reason : Option String)
  | transfer (endpoint : TransferEndpoint)

inductive QueueFallbackAction where
  | failure (action : FailureAction)
  | redirect (target : Uri)

structure QueueHoldConfig where
  audioFile : Option String := none
  loopPlayback : Bool := true

structure ComfortPrompt where
  audioFile : String
  /-- Seconds between two plays of the prompt. -/
  intervalSecs : Nat := 30

structure VoicePrompts where
  transferPrompt : Option String := none
  busyPrompt : Option String := none
  noAnswerPrompt : Option String := none
  positionPrompt : Option String := none
  finalDestinationPrompt : Option String := none
  comfortPrompts : List ComfortPrompt := []
  servicePrompt : Option String := none

inductive DialStrategy where
  | sequential (targets : List Location)
  | parallel (targets : List Location)

def defaultQueueHoldAudio : String := "sounds/phone-calling.wav"

def defaultQueueFailureAudio : String := "sounds/unavailable-phone.wav"

def temporarilyUnavailable : UInt16 := 480

structure QueuePlan where
  acceptImmediately : Bool := false
  hold : Option QueueHoldConfig := some { audioFile := some defaultQueueHoldAudio }
  fallback : Option QueueFallbackAction :=
    some (.failure (.playThenHangup defaultQueueFailureAudio false temporarilyUnavailable
      (some "All agents are currently unavailable")))
  dialStrategy : Option DialStrategy := none
  /-- In seconds. -/
  ringTimeout : Option Nat := none
  voicePrompts : Option VoicePrompts := none
  queueName : String := ""

end RustPbx.Routing
