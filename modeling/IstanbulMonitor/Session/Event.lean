import IstanbulMonitor.Session.State

/-!
# Runs of a session

Everything that can happen to a session, as events that may come in any order.
`Session.step` says what an event does; one that cannot happen in a state leaves
it as it is. A caller whose mailbox holds an answer takes it rather than give up
in time, as long as its frame is on its way.
-/

set_option autoImplicit false

namespace IstanbulMonitor

/-- What happens to a session. -/
inductive SessionEvent where
  | called (method : String) (kind : CallKind) (timeout : Span)
  | accepted (id : UInt64)
  | refused (id : UInt64)
  | woken (id : UInt64)
  | expired (id : UInt64)
  | cancelled (id : UInt64)
  | textArrived (text : String)
  | bytesArrived
  | connectionLost (reason : String)
  | closeRequested
  | readerObeyed
  | writeFailed (reason : String)
  | writerObeyed
  | channelRead (id : UInt64)
  | channelReleased (id : UInt64)

namespace Caller

/-- Whether a caller still waits for room or for its answer. -/
def waits (c : Caller) : Bool := c.sending || c.mail.isNone

end Caller

namespace Session

/-- The caller of a call that has not ended. -/
def caller? (s : Session) (id : UInt64) : Option Caller := s.callers.find? (·.id = id)

/-- The session after an event. -/
def step (s : Session) : SessionEvent → Session
  | .called method kind timeout => (s.start method kind timeout).1
  | .accepted id => if s.writerStopped then s else s.accepted id
  | .refused id => if s.writerStopped && (s.caller? id).any (·.sending) then s.refuse id else s
  | .woken id => s.wake id
  | .expired id => if (s.caller? id).any (·.waits) then s.expire id else s
  | .cancelled id => s.cancel id
  | .textArrived text => s.dispatch text
  | .bytesArrived => if s.isClosed then s else s.warn .notText
  | .connectionLost reason => s.lose reason
  | .closeRequested => s.raise .close
  | .readerObeyed => s.obey
  | .writeFailed reason => s.failWriting reason
  | .writerObeyed => s.stopWriting
  | .channelRead id => (s.receive id).2
  | .channelReleased id => s.release id

/-- The session after a list of events. -/
def run (s : Session) (events : List SessionEvent) : Session := events.foldl step s

theorem run_append (s : Session) (before after : List SessionEvent) :
    s.run (before ++ after) = (s.run before).run after := List.foldl_append

end Session

end IstanbulMonitor
