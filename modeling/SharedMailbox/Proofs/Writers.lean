import SharedMailbox.Proofs.Acting

namespace SharedMailbox

/-!
# Who writes where

An action of an endpoint writes into the slot of its own peer, and in the slots of others it only
marks messages consumed and stamps ids.

* `Network.sends`: what is sent in an action.
* `Network.Performs`: what an action of an endpoint writes and tells.
* `Network.keepsOut_of_perform`: no action of an endpoint does more, in whatever state.
-/

/-- A send tells of one message iff it succeeds. -/
theorem Sent.filterMap_events (s : Sent) (result : Except MessageError Nat) :
    (s.events result).filterMap Event.sent? = (s.ofResult? result).toList := by
  cases result <;> rfl

namespace Inbox

variable (i : Inbox) (p : PeerId)

/-- An arrival tells of no send. -/
theorem filterMap_onArrival (d : Delivery) : (i.onArrival p d).filterMap Event.sent? = [] := by
  unfold onArrival
  cases i.stomped <;> rfl

/-- Taking a delivery in hand tells of no send. -/
theorem filterMap_onTaking : (i.onTaking p).filterMap Event.sent? = [] := by
  unfold onTaking
  cases i.pending <;> rfl

/-- A release tells of no send. -/
theorem filterMap_onRelease : (i.onRelease p).filterMap Event.sent? = [] := by
  unfold onRelease
  cases i.release.2 <;> rfl

/-- A framed read tells of no send. -/
theorem filterMap_onReading (result : Except MessageError Nat) :
    (i.onReading p result).filterMap Event.sent? = [] := by
  unfold onReading
  split
  · rw [List.filterMap_append, filterMap_onTaking, filterMap_onRelease, List.append_nil]
  · exact i.filterMap_onTaking p

end Inbox

/-- A message that was handled tells of the answer that was sent, if any. -/
theorem Receipt.filterMap_events (receipt : Receipt) (i : Inbox) (p : PeerId) :
    (receipt.events i p).filterMap Event.sent? = (receipt.sent? p).toList := by
  rcases receipt with _ | _ | ⟨a, answer, result⟩ | ⟨a, _ | d⟩
  · rfl
  · rfl
  · exact Sent.filterMap_events _ result
  · rfl
  · exact i.filterMap_onArrival p d

/-- An interrupt tells of the answer that was sent, if any. -/
theorem Handling.filterMap_events (handling : Handling) (i : Inbox) (p : PeerId) :
    (handling.events i p).filterMap Event.sent? = (handling.sent? p).toList := by
  cases handling with
  | foreign => rfl
  | handled => exact Receipt.filterMap_events _ i p

/-- A ring tells of the answer that was sent, if any. -/
theorem RingResult.filterMap_events (result : RingResult) (i : Inbox) (p : PeerId) :
    (result.events i p).filterMap Event.sent? = (result.sent? p).toList := by
  cases result with
  | unattached | noVector => rfl
  | reached handling => exact handling.filterMap_events i p

namespace Network

/-- What is sent in an action. -/
def sends (net : Network) (action : Action) : List Sent :=
  (net.events action).filterMap Event.sent?

/-- The peer whose endpoint acts. A ring lets its destination act. -/
def actor? (net : Network) : Action → Option PeerId
  | .attach p _ _ _ | .detach p | .forget p | .send p _ _ _ | .requestDump p | .write p _
  | .interrupt p _ | .await p _ | .release p | .read p _ | .setClass p _ => some p
  | .raise w => some w.dest
  | .deliver place => net.rings[place]?.map DoorbellWord.dest

end Network

/-- An endpoint is told to send. -/
def Action.IsSend : Action → Prop
  | .send .. | .requestDump _ | .write .. => True
  | _ => False

namespace Network

variable {net after : Network} {l : Layout} {p : PeerId} {e : Endpoint} {action : Action}
  {sent : Option Sent}

/-- What an action of the endpoint of `p` writes and tells, with the message that it sends. It sends
    only while its slot is idle, unless it has just answered a link request of its own. -/
structure Performs (l : Layout) (p : PeerId) (net : Network) (action : Action) (sent : Option Sent)
    (outcome : Outcome) (after : Network) : Prop where
  told : (net.tell action outcome).filterMap Event.sent? = sent.toList
  deeds : Memory.Deeds l p net.memory sent after.memory
  idle : sent ≠ none → ((l.slotAt p).busy net.memory).IsIdle ∨
    (¬ action.IsSend ∧ Link.IsRequest ((l.slotAt p).staged net.memory).message)

variable {outcome : Outcome}

/-- An act that sends nothing, and tells of no send, is what an action performs. -/
theorem Acts.performs (acts : net.Acts l p none after)
    (told : (net.tell action outcome).filterMap Event.sent? = []) :
    ∃ sent, net.Performs l p action sent outcome after :=
  ⟨none, told, acts.deeds, fun h => absurd rfl h⟩

/-- What submits a message, and tells of it, is what an action performs. -/
theorem Submits.performs (submits : net.Submits l p sent after)
    (told : (net.tell action outcome).filterMap Event.sent? = sent.toList) :
    ∃ sent, net.Performs l p action sent outcome after :=
  ⟨sent, told, submits.deeds, fun h => .inl (submits.idle h)⟩

/-- Who responds with a message had an idle slot, or answered a request of its own. -/
theorem Responds.idle (responds : net.Responds l p sent after) (some : sent ≠ none) :
    ((l.slotAt p).busy net.memory).IsIdle ∨
      Link.IsRequest ((l.slotAt p).staged net.memory).message := by
  cases responds with
  | silent => exact absurd rfl some
  | @answered a id id' answer result mid _ owner busy response clears idle kept replies =>
    by_cases own : p = a
    · -- it was its own request that it has answered
      subst own
      refine .inr ?_
      by_contra plain
      rw [Link.respond_eq_none_iff.mpr plain] at response
      cases response
    · have free : ((l.slotAt p).staged mid.memory).len = 0 := replies.idle some
      rw [kept own] at free
      exact .inl free

/-- An endpoint acts, if the peer has one. -/
theorem performs_actAs {act : Endpoint → Outcome × Network} (absent : net.tell action .absent = [])
    (acts : ∀ e, net.endpoint? p = some e →
      ∃ sent, net.Performs l p action sent (act e).1 (act e).2) :
    ∃ sent, net.Performs l p action sent (net.actAs p act).1 (net.actAs p act).2 := by
  unfold Network.actAs
  rcases he : net.endpoint? p with _ | e
  · exact (Acts.refl l p net).performs (by rw [absent]; rfl)
  · exact acts e he

/-- What a ring sends is what it tells, for only an endpoint tells anything. -/
theorem filterMap_onInbox (net : Network) (busyPeers : List PeerId) (ring : DoorbellWord) :
    (net.onInbox ring.dest ((net.raise .queue busyPeers ring).1.events · ring.dest)).filterMap
      Event.sent? = ((net.raise .queue busyPeers ring).1.sent? ring.dest).toList := by
  -- without an inbox there is no endpoint that could answer
  rcases here : net.inbox? ring.dest with _ | i
  · have nobody : net.endpoint? ring.dest = none := Option.map_eq_none_iff.mp here
    simp [onInbox, here, raise, nobody, RingResult.sent?]
  · rw [onInbox_eq here]
    exact RingResult.filterMap_events _ i _

/-- Every action of an endpoint is one of these. -/
theorem performs_perform (layout : net.layout = l) (valid : l.Valid)
    (seats : ∀ e, net.endpoint? p = some e → e.Seated l p) (actor : net.actor? action = some p) :
    ∃ sent, net.Performs l p action sent (net.perform .queue action).1
      (net.perform .queue action).2 := by
  -- Three families: an arriving ring may be answered, a client operation sends at most what it
  -- was told to, and everything else touches the inbox and busy words without sending.
  have nothing := Acts.refl l p net
  cases action with
  | deliver place =>
    obtain ⟨ring, found, rfl⟩ := Option.map_eq_some_iff.mp actor
    have responds := responds_raise (net.dequeue place) valid [] seats
    simp only [Network.perform, deliver?_of_ring found]
    exact ⟨_, (net.dequeue place).filterMap_onInbox [] ring, responds.acts.deeds, fun some =>
      (responds.idle some).imp_right fun request => ⟨id, request⟩⟩
  | raise ring =>
    obtain rfl := Option.some.inj actor
    have responds := responds_raise net valid [] seats
    simp only [Network.perform]
    exact ⟨_, net.filterMap_onInbox [] ring, responds.acts.deeds, fun some =>
      (responds.idle some).imp_right fun request => ⟨id, request⟩⟩
  | interrupt _ vector =>
    obtain rfl := Option.some.inj actor
    refine performs_actAs rfl fun e he => ?_
    have responds := net.responds_interrupt valid (seats e he) [] vector
    refine ⟨_, ?_, responds.acts.deeds, fun some =>
      (responds.idle some).imp_right fun request => ⟨id, request⟩⟩
    simp only [tell, onInbox_eq (inbox?_of_endpoint? he)]
    exact Handling.filterMap_events _ _ _
  -- a new or a parting endpoint tells nothing, and writes into its own slot only
  | attach p vectors config host =>
    obtain rfl := Option.some.inj actor
    simp only [Network.perform, layout]
    rcases made : net.attach l p vectors config host with fault | after
    · exact nothing.performs rfl
    · exact (acts_attach valid made).performs rfl
  | detach =>
    obtain rfl := Option.some.inj actor
    exact (acts_detach net l _).performs rfl
  | forget =>
    obtain rfl := Option.some.inj actor
    exact (acts_forget net l _).performs rfl
  -- a sender is told what it sends, if the slot lets it
  | send _ mode dest message =>
    obtain rfl := Option.some.inj actor
    refine performs_actAs rfl fun e he => ?_
    exact (net.submits_send (seats e he) [] mode dest message).performs
      (Sent.filterMap_events _ _)
  | requestDump =>
    obtain rfl := Option.some.inj actor
    subst layout
    refine performs_actAs rfl fun e he => ?_
    exact (net.submits_requestDump (seats e he)).performs (Sent.filterMap_events _ _)
  | write _ request =>
    obtain rfl := Option.some.inj actor
    subst layout
    refine performs_actAs rfl fun e he => ?_
    refine (net.submits_write (seats e he) request).performs ?_
    simp only [tell]
    rcases Request.parse net.layout request with fault | ⟨dest, body⟩
    · rfl
    · exact Sent.filterMap_events _ _
  -- a consumer marks what it gives up as consumed, in the slots of the senders
  | await _ patience =>
    obtain rfl := Option.some.inj actor
    refine performs_actAs rfl fun e he => ?_
    refine (net.acts_await valid (seats e he) patience).performs ?_
    simp only [tell, onInbox_eq (inbox?_of_endpoint? he)]
    exact Inbox.filterMap_onTaking _ _
  | release =>
    obtain rfl := Option.some.inj actor
    refine performs_actAs rfl fun e he => ?_
    refine (net.acts_release valid (seats e he)).performs ?_
    simp only [tell, onInbox_eq (inbox?_of_endpoint? he)]
    exact Inbox.filterMap_onRelease _ _
  | read _ buffer =>
    obtain rfl := Option.some.inj actor
    refine performs_actAs rfl fun e he => ?_
    refine (acts_read valid seats he buffer).performs ?_
    simp only [tell, onInbox_eq (inbox?_of_endpoint? he)]
    exact Inbox.filterMap_onReading _ _ _
  | setClass _ name =>
    obtain rfl := Option.some.inj actor
    refine performs_actAs rfl fun e he => ?_
    exact (net.acts_setClass (seats e he) name).performs rfl

/-- What an action of the endpoint of `p` may change in the region. -/
structure KeepsOut (l : Layout) (p : PeerId) (net : Network) (action : Action) (after : Network) :
    Prop where
  /-- In the slots of other peers messages are marked consumed and ids are stamped. -/
  others : ∀ q, q ≠ p → (l.slotAt q).Spared q net.memory after.memory
  /-- The parameters in slot 0 stay. -/
  globals : Layout.load after.memory = Layout.load net.memory
  /-- As long as nothing is sent, the own slot is as busy as before, or idle. -/
  silent : net.sends action = [] →
    (l.slotAt p).busy after.memory = (l.slotAt p).busy net.memory ∨
      (l.slotAt p).busy after.memory = .idle
  /-- At most one message is sent, and the own slot is busy with its length then. -/
  announced : ∀ s ∈ net.sends action, net.sends action = [s] ∧ s.origin = p ∧
    ((l.slotAt p).busy after.memory).len.toNat = s.message.length
  /-- The own slot was idle before, unless it held a link request that has just been answered. -/
  idle : net.sends action ≠ [] → ((l.slotAt p).busy net.memory).IsIdle ∨
    (¬ action.IsSend ∧ Link.IsRequest ((l.slotAt p).staged net.memory).message)
  /-- The message is the last that is written, into a slot that is idle by then. -/
  deeds : Memory.Deeds l p net.memory (net.sends action).head? after.memory

/-- **One writer.** Whatever the state of the region, the inboxes, the vectors and the rings, an
    action of an endpoint writes into the slot of its own peer. In other slots it marks messages
    consumed and stamps the ids of their owners, and it announces a message in an idle slot only. -/
theorem keepsOut_of_perform (layout : net.layout = l) (valid : l.Valid)
    (seats : ∀ e, net.endpoint? p = some e → e.Seated l p) (actor : net.actor? action = some p) :
    net.KeepsOut l p action (net.perform .queue action).2 := by
  obtain ⟨sent, performs⟩ := performs_perform layout valid seats actor
  have sends : net.sends action = sent.toList := performs.told
  have deeds := performs.deeds
  have chain : Memory.Deeds l p net.memory (net.sends action).head?
      (net.perform .queue action).2.memory := by
    rw [sends]
    cases sent <;> exact deeds
  refine ⟨fun q other => deeds.spared valid other, deeds.load_eq valid, ?_, ?_, ?_, chain⟩
  · intro silent
    rw [sends, Option.toList_eq_nil_iff] at silent
    subst silent
    cases deeds with
    | silent writes =>
      rcases Memory.own_of_writes valid writes with same | idle
      · exact .inl (congrArg (fun s => BusyCell.mk s.len) same)
      · exact .inr (congrArg BusyCell.mk idle)
  · intro s told
    rw [sends, Option.mem_toList] at told
    obtain rfl := Option.mem_def.mp told
    obtain ⟨origin, len, -⟩ := deeds.staged_of_sent
    exact ⟨sends, origin, len⟩
  · intro some
    rw [sends, ne_eq, Option.toList_eq_nil_iff] at some
    exact performs.idle some

/-- Peer 1 asks peer 2 for a sign of life while a message of peer 3 to it is under way. -/
def pinging : List Action :=
  [join 1, join 2, join 3, hail 3 1, .send 1 .spin (.peer 2) Link.ping]

/-- Peer 2 answers. -/
theorem keepsOut_of_perform_small :
    let net := (ofMailbox smallMailbox).run .queue pinging
    net.KeepsOut smallLayout 2 (.deliver 1) (net.perform .queue (.deliver 1)).2 := by
  have wf := wellFormed_of_run create_small pinging
  exact keepsOut_of_perform wf.layout wf.valid (wf.seated.seats 2) (by decide +kernel)

end Network

end SharedMailbox
