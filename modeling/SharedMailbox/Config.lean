import SharedMailbox.Duration
import SharedMailbox.Layout
import SharedMailbox.Text.Utf8

namespace SharedMailbox

/-!
# Configuration

Parameters of a mailbox, of the wait for a busy mailslot, and of an endpoint, with their defaults.
-/

/-- Class of an endpoint before any driver binds one. -/
def defaultClass : String := "FEEadapter"

/-- What the host answers when it is asked for its name: nothing if the call fails, else the buffer
    that it has filled. -/
abbrev HostAnswer := Option (List UInt8)

/-- Host name where the host gives none. -/
def localHost : String := "localhost"

/-- The host name in an answer: the text in front of the first NUL. A buffer without a NUL or with
    an empty text gives none. -/
def HostAnswer.name : HostAnswer → String
  | none => localHost
  | some buffer =>
    let text := buffer.takeWhile (· ≠ 0)
    if 0 ∈ buffer ∧ text ≠ [] then Utf8.decodeLossy text else localHost

/-- Parameters of a mailbox. -/
structure MailboxConfig where
  slotSize : UInt64 := Layout.defaultStride
  nClients : UInt64 := Layout.defaultClients
  deriving DecidableEq, Repr

/-- The layout of a mailbox with these parameters. -/
def MailboxConfig.layout (c : MailboxConfig) : Layout := Layout.conventional c.slotSize c.nClients

/-- How a sender polls its own mailslot, and how long. -/
structure SendTimings where
  initialDelay : Duration := Duration.ofMillis 1
  delayStep : Duration := Duration.ofMillis 2
  maxDelay : Duration := Duration.ofMillis 10
  baseDeadline : Duration := Duration.ofSecs 5
  deadlineCeiling : Duration := Duration.ofSecs 20
  deriving DecidableEq

/-- Short timings, for readers in the same process. -/
def SendTimings.fast : SendTimings where
  initialDelay := Duration.ofMicros 100
  delayStep := Duration.ofMicros 200
  maxDelay := Duration.ofMillis 1
  baseDeadline := Duration.ofMillis 200
  deadlineCeiling := Duration.ofMillis 800

/-- Parameters of an endpoint. An endpoint without a node name takes that of its host. -/
structure EndpointConfig where
  nodeName : Option String := none
  className : String := defaultClass
  timings : SendTimings := {}
  deriving DecidableEq

/-- The name that an endpoint writes into its slot: the node or else the host, a point, and the peer
    id in hexadecimal. -/
def EndpointConfig.label (c : EndpointConfig) (host : HostAnswer) (peer : PeerId) : String :=
  c.nodeName.getD host.name ++ "." ++ Numeral.hexPadded peer.toNat

end SharedMailbox
