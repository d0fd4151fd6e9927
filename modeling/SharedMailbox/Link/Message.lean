import SharedMailbox.Link.Scan
import SharedMailbox.Text.Utf8

namespace SharedMailbox.Link

/-!
# Link messages

The texts by which peers find each other and get their component ids, and the parsers that read
them back. What follows the last field of a text is not looked at.

* `ping`, `pong`: proof of life and its answer.
* `peerAttribute`, `LinkAck`: who are you, and the answer.
* `CtlWrite`, `standaloneAck`: assignment of component ids, and the answer.
-/

open Numeral (signedDecimal)

/-! ### Fixed texts -/

/-- Asks for a sign of life. -/
def ping : List UInt8 := Utf8.encode "ping"

/-- Answers a ping. -/
def pong : List UInt8 := Utf8.encode "pong"

/-- Asks the coordinator to dump its switch state. -/
def switchDump : List UInt8 := Utf8.encode "dump"

/-- Asks a peer for its class and ids. -/
def peerAttribute : String := "Link CTL Peer-Attribute"

/-! ### Assignment of ids -/

/-- Component ids for a peer, the address of its manager, and a tag that the answer repeats. -/
structure CtlWrite where
  pfmcid : Int32
  pfmsid : Int32
  cid : Int32
  sid : Int32
  tag : Int32
  deriving DecidableEq, Repr

/-- The text of an assignment. -/
def CtlWrite.text (w : CtlWrite) : String :=
  "CTL-Write Space=0,PFMCID=" ++ signedDecimal w.pfmcid.toInt
    ++ ",PFMSID=" ++ signedDecimal w.pfmsid.toInt
    ++ ",CID=" ++ signedDecimal w.cid.toInt
    ++ ",SID=" ++ signedDecimal w.sid.toInt
    ++ ",Tag=" ++ signedDecimal w.tag.toInt

/-- The assignment in a message. -/
def CtlWrite.parse? (message : List UInt8) : Option CtlWrite := do
  let rest ← Scan.literal (Utf8.encode "CTL-Write Space=0,PFMCID=") message
  let (pfmcid, rest) ← Scan.int rest
  let rest ← Scan.literal (Utf8.encode ",PFMSID=") rest
  let (pfmsid, rest) ← Scan.int rest
  let rest ← Scan.literal (Utf8.encode ",CID=") rest
  let (cid, rest) ← Scan.int rest
  let rest ← Scan.literal (Utf8.encode ",SID=") rest
  let (sid, rest) ← Scan.int rest
  let rest ← Scan.literal (Utf8.encode ",Tag=") rest
  let (tag, _) ← Scan.int rest
  return ⟨pfmcid, pfmsid, cid, sid, tag⟩

/-! ### Answers -/

/-- Class and ids of a peer. -/
structure LinkAck where
  className : String
  cid0 : Int32
  sid0 : Int32
  deriving DecidableEq, Repr

/-- The text of an answer to a peer attribute query. -/
def LinkAck.text (a : LinkAck) : String :=
  "Link CTL ACK C-Class=" ++ a.className
    ++ ",CID0=" ++ signedDecimal a.cid0.toInt
    ++ ",SID0=" ++ signedDecimal a.sid0.toInt

/-- The class and ids in a message. The class ends at the first comma. -/
def LinkAck.parse? (message : List UInt8) : Option LinkAck := do
  let rest ← Scan.literal (Utf8.encode "Link CTL ACK C-Class=") message
  let (className, rest) ← Scan.upTo Scan.comma rest
  let rest ← Scan.literal (Utf8.encode ",CID0=") rest
  let (cid0, rest) ← Scan.int rest
  let rest ← Scan.literal (Utf8.encode ",SID0=") rest
  let (sid0, _) ← Scan.int rest
  return ⟨Utf8.decodeLossy className, cid0, sid0⟩

/-- The text of an answer to an assignment. -/
def standaloneAck (tag : Int32) : String :=
  "Standalone Acknowledgment Tag=" ++ signedDecimal tag.toInt ++ ",Reason=OK"

/-- The tag in an answer to an assignment that was carried out. -/
def parseStandaloneAck? (message : List UInt8) : Option Int32 := do
  let rest ← Scan.literal (Utf8.encode "Standalone Acknowledgment Tag=") message
  let (tag, rest) ← Scan.int rest
  let _ ← Scan.literal (Utf8.encode ",Reason=OK") rest
  return tag

end SharedMailbox.Link
