import SharedMailbox.Duration
import SharedMailbox.Text.Quoted

namespace SharedMailbox

/-!
# Errors

* `RequestFault`: why a framed request has not the form of one.
* `MessageError`: why a send, a receive or a frame failed. None of them breaks the endpoint.
* `LayoutError`: why a region cannot be divided as its parameters say.
* `SetupError`: why a mailbox could not be made or opened, or an endpoint not attached.

Each has one function with its text. What is quoted in a text depends on the characters that do not
show by themselves, which `hidden` tells.
-/

/-- Peer identifier within one mailbox. -/
abbrev PeerId := UInt16

open Numeral (decimal signedDecimal)

/-! ### Requests -/

/-- Why a request has not the form of one. -/
inductive RequestFault where
  | noColon
  | selectorNotUtf8
  | badSelector (selector : String)
  deriving DecidableEq

/-- The reason in words. -/
def RequestFault.reason (hidden : Char → Bool) : RequestFault → String
  | .noColon => "no colon"
  | .selectorNotUtf8 => "selector is not UTF-8"
  | .badSelector selector => "bad selector " ++ Quoted.quote hidden selector

/-! ### Messages -/

/-- Why a send, a receive or a frame failed. -/
inductive MessageError where
  /-- No mailslot belongs to this peer id. -/
  | addressOutOfRange (peer : Int)
  /-- The payload does not fit the mailslot, or not the buffer of the caller. -/
  | oversizedPayload (len max : Nat)
  /-- Payloads without a byte are not sent. -/
  | emptyPayload
  /-- The subnet id names no subnet that can be reached. -/
  | unreachableDestination (sid : Int32)
  /-- The own mailslot was still occupied at the deadline. -/
  | slotBusyTimeout (lastResponder : UInt64) (waited : Duration)
  /-- Nothing is pending and the caller did not want to wait. -/
  | wouldBlock
  /-- A wait was called off. -/
  | interrupted
  /-- Fewer bytes were staged than asked for. -/
  | partialTransfer (sent expected : Nat)
  /-- A wait reached its limit. -/
  | timedOut
  /-- A framed request does not have the form of one. -/
  | malformedRequest (fault : RequestFault)
  deriving DecidableEq

/-- The text about a malformed request, with the reason in words. -/
def MessageError.malformed (reason : String) : String := "malformed request: " ++ reason

/-- The text of a message error. -/
def MessageError.message (hidden : Char → Bool) : MessageError → String
  | .addressOutOfRange peer => "mailslot " ++ signedDecimal peer ++ " is out of range"
  | .oversizedPayload len max =>
    "payload too large: " ++ decimal len ++ " bytes, max " ++ decimal max
  | .emptyPayload => "empty payload"
  | .unreachableDestination sid =>
    "destination SID " ++ signedDecimal sid.toInt ++ " is unreachable"
  | .slotBusyTimeout lastResponder waited =>
    "own mailslot still busy after " ++ waited.text ++ " (last responder "
      ++ decimal lastResponder.toNat ++ ")"
  | .wouldBlock => "no message pending"
  | .interrupted => "wait interrupted"
  | .partialTransfer sent expected =>
    "partial transfer: " ++ decimal sent ++ " of " ++ decimal expected ++ " bytes"
  | .timedOut => "timed out"
  | .malformedRequest fault => malformed (fault.reason hidden)

/-- Results can be compared if their values can. -/
instance (priority := 1100) {α : Type} [DecidableEq α] : DecidableEq (Except MessageError α)
  | .ok _, .ok _ => decidable_of_iff _ ⟨congrArg Except.ok, Except.ok.inj⟩
  | .error _, .error _ => decidable_of_iff _ ⟨congrArg Except.error, Except.error.inj⟩
  | .ok _, .error _ => isFalse nofun
  | .error _, .ok _ => isFalse nofun

/-! ### Layouts -/

/-- Why a region cannot be divided as its parameters say. -/
inductive LayoutError where
  /-- The payload offset is not the size of a mailslot header. -/
  | headerSizeMismatch (expected found : UInt64)
  /-- The slots leave no room for a payload. -/
  | strideTooSmall (stride headerSize : UInt64)
  /-- The id of the coordinator is one of a client. -/
  | coordinatorInClientRange (coordinator nClients : UInt64)
  /-- Not every peer has an event. -/
  | tooFewEvents (nEvents maxPeer : UInt64)
  /-- The memory is smaller than the slots need. -/
  | regionTooSmall (required found : Nat)
  /-- There is no client. -/
  | noClients
  /-- A peer id needs more than 16 bits. -/
  | peerIdsTooWide
  /-- The size of the region needs more than 64 bits. -/
  | regionOverflow
  deriving DecidableEq

/-- The text of a layout error. -/
def LayoutError.message : LayoutError → String
  | .headerSizeMismatch expected found =>
    "payload offset " ++ decimal found.toNat ++ " does not match mailslot header size "
      ++ decimal expected.toNat
  | .strideTooSmall stride headerSize =>
    "slot size " ++ decimal stride.toNat ++ " must exceed header size " ++ decimal headerSize.toNat
  | .coordinatorInClientRange coordinator nClients =>
    "coordinator id " ++ decimal coordinator.toNat ++ " overlaps clients 1..="
      ++ decimal nClients.toNat
  | .tooFewEvents nEvents maxPeer =>
    decimal nEvents.toNat ++ " events cannot cover peer id " ++ decimal maxPeer.toNat
  | .regionTooSmall required found =>
    "region too small: need " ++ decimal required ++ " bytes, got " ++ decimal found
  | .noClients => "invalid layout: n_clients must be > 0"
  | .peerIdsTooWide => "invalid layout: peer ids must fit in 16 bits"
  | .regionOverflow => "invalid layout: region size overflows"

/-! ### Setup -/

/-- Why a mailbox could not be made or opened, or an endpoint not attached. -/
inductive SetupError where
  /-- The backing memory could not be had; the reason is the system's. -/
  | storage (reason : String)
  /-- The region cannot be divided. -/
  | layout (error : LayoutError)
  /-- No mailslot belongs to the peer id. -/
  | addressOutOfRange (peer : PeerId)
  /-- The mailslot is stamped with another id. -/
  | peerIdMismatch (expected : PeerId) (found : UInt64)
  /-- The vector table does not cover every event. -/
  | insufficientVectors (needed : UInt64) (available : Nat)
  /-- The peer id has an endpoint already. -/
  | alreadyAttached (peer : PeerId)
  /-- The vectors of the peer do not fit in 32 bits. -/
  | vectorOverflow (peer : PeerId) (nEvents : UInt64)
  /-- The interrupt line could not be opened; the reason is the system's. -/
  | interruptLine (reason : String)
  deriving DecidableEq

/-- The text of a setup error. -/
def SetupError.message : SetupError → String
  | .storage reason => "I/O error: " ++ reason
  | .layout error => "layout error: " ++ error.message
  | .addressOutOfRange peer => "peer id " ++ decimal peer.toNat ++ " has no mailslot"
  | .peerIdMismatch expected found =>
    "server-defined peer id " ++ decimal found.toNat ++ " does not match "
      ++ decimal expected.toNat
  | .insufficientVectors needed available =>
    "need " ++ decimal needed.toNat ++ " interrupt vectors, only " ++ decimal available
      ++ " available"
  | .alreadyAttached peer => "peer " ++ decimal peer.toNat ++ " is already attached"
  | .vectorOverflow peer nEvents =>
    decimal nEvents.toNat ++ " interrupt vectors for peer " ++ decimal peer.toNat
      ++ " overflow the vector space"
  | .interruptLine reason => "failed to start interrupt thread: " ++ reason

/-- The text of the error behind a setup error, if there is one. -/
def SetupError.source : SetupError → Option String
  | .storage reason => some reason
  | .interruptLine reason => some reason
  | .layout error => some error.message
  | _ => none

end SharedMailbox
