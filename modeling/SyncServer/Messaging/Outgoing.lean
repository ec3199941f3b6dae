import SyncServer.Schema

/-! # What the server sends

Events for the mailboxes of users, which Redis carries to their sessions, notifications
for their devices, and activities for the inboxes of other servers.
-/

namespace SyncServer

/-- The events of a mailbox. -/
inductive Event where
  | newMessage (message : Message)
  | newRoomMessage (roomId : Uuid) (message : RoomMessage)
  | typing (senderId recipientId : Uuid) (isTyping : Bool)
  | incomingCall (callId callerId : Uuid) (callType sdpOffer : String)
  | callAnswered (callId calleeId : Uuid) (sdpAnswer : String)
  | callRejected (callId calleeId : Uuid)
  | callHangup (callId fromUserId : Uuid)
  | iceCandidate (callId fromUserId : Uuid) (candidate : String) (sdpMid : Option String)
      (sdpMlineIndex : Option Nat)
deriving DecidableEq, Repr

/-- The user that an event comes from. -/
def Event.sender : Event → Uuid
  | .newMessage message => message.senderId
  | .newRoomMessage _ message => message.senderId
  | .typing senderId _ _ => senderId
  | .incomingCall _ callerId _ _ => callerId
  | .callAnswered _ calleeId _ => calleeId
  | .callRejected _ calleeId => calleeId
  | .callHangup _ fromUserId => fromUserId
  | .iceCandidate _ fromUserId _ _ _ => fromUserId

def Event.signal : Event → Option (Uuid × Uuid)
  | .callAnswered callId calleeId _ => some (callId, calleeId)
  | .callRejected callId calleeId => some (callId, calleeId)
  | .callHangup callId fromUserId => some (callId, fromUserId)
  | .iceCandidate callId fromUserId _ _ _ => some (callId, fromUserId)
  | _ => none

/-- The notifications that `push_dispatch_service` sends. -/
inductive Push where
  | newMessage (senderId messageId : Uuid) (content : String)
  | incomingCall (callerId : Uuid) (callerDisplayName : String) (callId : Uuid) (callType : String)
deriving DecidableEq, Repr

/-- The user that a notification comes from. -/
def Push.sender : Push → Uuid
  | .newMessage senderId _ _ => senderId
  | .incomingCall callerId _ _ _ => callerId

inductive Outgoing where
  | publish (channel : Uuid) (event : Event)
  | push (recipient : Uuid) (notification : Push)
  | activity (destination keyId : String) (payload : Json)

def Outgoing.passes (a b : Uuid) : Outgoing → Bool
  | .publish channel event => event.sender = a && channel = b
  | .push recipient notification => notification.sender = a && recipient = b
  | .activity _ _ _ => false

theorem Outgoing.passes_publish {a b channel : Uuid} {event : Event} :
    (publish channel event).passes a b = false ↔ (event.sender = a → channel ≠ b) := by
  simp [passes]

theorem Outgoing.passes_push {a b recipient : Uuid} {notification : Push} :
    (push recipient notification).passes a b = false ↔ (notification.sender = a → recipient ≠ b) := by
  simp [passes]

end SyncServer
