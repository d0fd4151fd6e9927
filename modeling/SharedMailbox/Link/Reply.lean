import SharedMailbox.Link.Message

namespace SharedMailbox.Link

/-!
# Link replies

Link requests never reach a consumer: the endpoint that gets one answers it by itself.
-/

/-- Who an endpoint is on the subnet. Ids are 0 before they are assigned and -1 when unused. -/
structure Identity where
  className : String
  cid0 : Int32 := 0
  sid0 : Int32 := 0
  pmcid : Int32 := 0
  pfmcid : Int32 := 0
  pfmsid : Int32 := 0
  deriving DecidableEq, Repr

/-- An identity after an assignment of ids. -/
def Identity.assign (id : Identity) (w : CtlWrite) : Identity where
  className := id.className
  cid0 := w.cid
  sid0 := w.sid
  pmcid := -1
  pfmcid := w.pfmcid
  pfmsid := w.pfmsid

/-- The answer to a link request and the identity after it, `none` for any other message. A ping
    is answered only if it is the whole message; a query may go on after its text. -/
def respond (id : Identity) (message : List UInt8) : Option (Identity × List UInt8) :=
  if message = ping then some (id, pong)
  else if (Utf8.encode peerAttribute).isPrefixOf message then
    some (id, Utf8.encode (LinkAck.text ⟨id.className, id.cid0, id.sid0⟩))
  else match CtlWrite.parse? message with
    | some w => some (id.assign w, Utf8.encode (standaloneAck w.tag))
    | none => none

end SharedMailbox.Link
