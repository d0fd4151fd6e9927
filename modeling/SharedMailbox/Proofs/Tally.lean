import SharedMailbox.Proofs.Writers

namespace SharedMailbox

/-!
# What endpoints count

What an operation of an endpoint does to its counters, except for those of failed attempts on the
own slot and of bytes.

* `Tally`, `Network.tally?`: the counters of an endpoint, and how many deliveries are pending.
* `Network.tally?_send`, `Network.tally?_release` and so on: what operations make of them.
* `Network.raise_of_listening`: a ring of a peer with a slot is dispatched;
  `Network.tally?_dispatch_plain`, `Network.tally?_dispatch_request`: what that counts.
-/

/-- How many deliveries are pending. -/
def Inbox.waiting (i : Inbox) : Nat := i.pending.toList.length

/-- The counters of an endpoint in which messages show, which wrap around, and how many deliveries
    are pending. -/
structure Tally where
  sent : UInt64 := 0
  answered : UInt64 := 0
  /-- Answers that could not be sent. -/
  failed : UInt64 := 0
  delivered : UInt64 := 0
  stomped : UInt64 := 0
  dropped : UInt64 := 0
  spurious : UInt64 := 0
  pending : Nat := 0

/-- What an endpoint has counted. -/
def Endpoint.tally (e : Endpoint) : Tally where
  sent := e.metrics.messagesSent
  answered := e.metrics.linkHandled
  failed := e.metrics.replyFailures
  delivered := e.metrics.delivered
  stomped := e.metrics.incomingStomps
  dropped := e.metrics.droppedInterrupts
  spurious := e.metrics.spuriousInterrupts
  pending := e.inbox.waiting

namespace Tally

/-- A message is sent, if there is one. -/
def submit (t : Tally) (sent : Option Sent) : Tally :=
  { t with sent := t.sent + UInt64.ofNat sent.toList.length }

/-- The answer to a link request is sent, or that fails. -/
def answer (t : Tally) : Except MessageError Nat → Tally
  | .ok _ => { t with answered := t.answered + 1, sent := t.sent + 1 }
  | .error _ => { t with answered := t.answered + 1, failed := t.failed + 1 }

/-- A message becomes the pending delivery, and displaces the one that was pending. -/
def receive (t : Tally) : Tally :=
  { t with
    delivered := t.delivered + 1
    stomped := t.stomped + UInt64.ofNat t.pending
    pending := 1 }

/-- Without a message nothing is counted. -/
@[simp] theorem submit_none (t : Tally) : t.submit none = t := by
  simp [submit]

end Tally

namespace Inbox

/-- A release leaves no more pending than before. -/
theorem waiting_release_le (i : Inbox) : i.release.1.waiting ≤ i.waiting := by
  unfold waiting release
  rcases i.inHand with _ | held
  · exact Nat.zero_le _
  · rcases i.pending with _ | q
    · exact Nat.le_refl _
    · simp only [Option.filter_some]
      split <;> simp

end Inbox

namespace Network

variable {net after : Network} {l : Layout} {p q : PeerId} {e : Endpoint}

/-- The tally of the endpoint of a peer. -/
def tally? (net : Network) (p : PeerId) : Option Tally := (net.endpoint? p).map Endpoint.tally

/-- The tally of a peer is that of its endpoint. -/
theorem tally?_of_endpoint? (he : net.endpoint? p = some e) : net.tally? p = some e.tally := by
  rw [tally?, he, Option.map_some]

/-- What an endpoint does leaves the tallies of others as they are. -/
theorem Acts.tally?_of_ne {sent : Option Sent} (acts : net.Acts l p sent after) (other : q ≠ p) :
    after.tally? q = net.tally? q := by
  rw [tally?, tally?, acts.others q other]

/-- Updating an endpoint shows in its tally as it does in that of every endpoint. -/
theorem tally?_update {f : Endpoint → Endpoint} {g : Tally → Tally}
    (shows : ∀ e, (f e).tally = g e.tally) :
    (net.update p f).tally? p = (net.tally? p).map g := by
  rw [tally?, tally?, endpoint?_update_self, Option.map_map, Option.map_map]
  exact congrArg (Option.map · _) (funext shows)

/-- Writing to memory is not counted. -/
@[simp] theorem tally?_remember (net : Network) (f : Memory → Memory) (p : PeerId) :
    (net.remember f).tally? p = net.tally? p := by
  simp only [tally?, endpoint?_remember]

/-- Clearing the slot of a delivery that was given up is not counted. -/
@[simp] theorem tally?_clearGivenUp (net : Network) (e : Endpoint) (o : Option Delivery)
    (p : PeerId) : (net.clearGivenUp e o).tally? p = net.tally? p := by
  cases o with
  | none => rfl
  | some d =>
    simp only [clearGivenUp, clearSender]
    split
    · exact tally?_remember ..
    · rfl

/-! ### Sending -/

/-- A send is counted iff it succeeds. -/
theorem tally?_send (net : Network) (peer : e.peer = p) (busyPeers : List PeerId) (mode : WaitMode)
    (dest : Destination) (message : List UInt8) :
    (net.send .queue busyPeers e mode dest message).2.tally? p = (net.tally? p).map
      (·.submit (Sent.ofResult? ⟨p, dest, message⟩
        (net.send .queue busyPeers e mode dest message).1)) := by
  subst peer
  unfold Network.send
  rcases e.admit dest message with fault | target
  · simp [Sent.ofResult?]
  · simp only
    split
    · exact tally?_update fun e => (Tally.submit_none _).symm
    · exact tally?_update fun e => rfl

/-- A patient send is counted once, if it succeeds in the end. -/
theorem tally?_sendPatiently (peer : e.peer = p) (dest : Destination) (body : List UInt8)
    (attempts : Nat) (net : Network) :
    (net.sendPatiently .queue e dest body attempts).2.tally? p = (net.tally? p).map
      (·.submit (Sent.ofResult? ⟨p, dest, body⟩
        (net.sendPatiently .queue e dest body attempts).1)) := by
  induction attempts generalizing net with
  | zero => simp [Network.sendPatiently, Sent.ofResult?]
  | succ attempts ih =>
    have once := net.tally?_send peer [] .sleep dest body
    unfold Network.sendPatiently
    rcases outcome : net.send .queue [] e .sleep dest body with ⟨result, after⟩
    rw [outcome] at once
    split
    next same =>
      -- an attempt that finds the slot busy counts nothing here
      obtain ⟨rfl, rfl⟩ := Prod.mk.inj same
      simp only [Sent.ofResult?, Tally.submit_none, Option.map_id'] at once
      rw [ih after, once]
    next => exact once

/-- Asking for a dump is counted as a send. -/
theorem tally?_requestDump (net : Network) (seat : e.Seated l p) :
    (net.requestDump .queue e).2.tally? p = (net.tally? p).map
      (·.submit (Sent.ofResult? ⟨p, .coordinator l, Link.switchDump⟩
        (net.requestDump .queue e).1)) := by
  rw [Network.requestDump, seat.layout]
  exact net.tally?_send seat.peer [] .sleep _ _

/-- A framed write is counted as the send of its body. -/
theorem tally?_write (net : Network) (seat : e.Seated l p) (request : List UInt8) :
    (net.write .queue e request).2.tally? p = (net.tally? p).map (·.submit
      (match Request.parse l request with
        | .ok (dest, body) => Sent.ofResult? ⟨p, dest, body⟩ (net.write .queue e request).1
        | .error _ => none)) := by
  unfold Network.write
  simp only [seat.layout]
  split_ifs with long
  · split <;> simp [Sent.ofResult?]
  · rcases parsed : Request.parse l request with fault | ⟨dest, body⟩
    · simp
    · have sends := tally?_sendPatiently seat.peer dest body writeAttempts net
      simp only
      rcases outcome : net.sendPatiently .queue e dest body writeAttempts with ⟨fault | len, after⟩
      · rwa [outcome] at sends
      · rw [outcome] at sends
        have full : len = body.length := length_of_sendPatiently (congrArg Prod.fst outcome)
        simp only [full, ne_eq, not_true_eq_false, if_false]
        exact sends

/-! ### Receiving -/

/-- Another inbox shows in a tally by what is pending there. -/
theorem tally?_giveUp (he : net.endpoint? p = some e) (peer : e.peer = p) (i : Inbox)
    (o : Option Delivery) :
    ((net.update e.peer fun e => { e with inbox := i }).clearGivenUp e o).tally? p =
      some { e.tally with pending := i.waiting } := by
  rw [tally?_clearGivenUp, peer, tally?_update (g := fun t => { t with pending := i.waiting })
    fun _ => rfl, tally?_of_endpoint? he, Option.map_some]

/-- A wait leaves the tally: what is taken in hand is still pending. -/
theorem tally?_await (he : net.endpoint? p = some e) (peer : e.peer = p) (patience : Patience) :
    (net.await e patience).2.tally? p = some e.tally := by
  unfold Network.await
  rcases e.inbox.pending with _ | d
  · exact tally?_of_endpoint? he
  · have taken := tally?_giveUp he peer (e.inbox.handOut d).1 (e.inbox.handOut d).2
    simp only
    split <;> exact taken

/-- A release leaves the tally, but for what is pending. -/
theorem tally?_release (he : net.endpoint? p = some e) (peer : e.peer = p) :
    ∃ n, n ≤ e.inbox.waiting ∧ (net.release e).2.tally? p = some { e.tally with pending := n } :=
  ⟨_, e.inbox.waiting_release_le, tally?_giveUp he peer _ _⟩

/-- A framed read leaves the tally, but for what is pending. -/
theorem tally?_read (valid : l.Valid) (seats : ∀ e, net.endpoint? p = some e → e.Seated l p)
    (he : net.endpoint? p = some e) (buffer : List UInt8) :
    ∃ n, n ≤ e.inbox.waiting ∧
      (net.read e buffer).2.2.tally? p = some { e.tally with pending := n } := by
  have peer := (seats e he).peer
  have taken := net.acts_await valid (seats e he) .none
  have kept := tally?_await he peer .none
  rcases net.network_read e buffer with left | ⟨e', he', left⟩
  · rw [left]
    exact ⟨_, Nat.le_refl _, kept⟩
  · rw [peer] at he'
    -- the endpoint that is released counts as before the wait
    have same : e'.tally = e.tally := Option.some.inj ((tally?_of_endpoint? he').symm.trans kept)
    have waiting : e'.inbox.waiting = e.inbox.waiting := congrArg Tally.pending same
    obtain ⟨n, fewer, released⟩ := tally?_release he' (taken.seated seats e' he').peer
    rw [left, released, same]
    exact ⟨n, waiting ▸ fewer, rfl⟩

/-! ### Coming and going -/

/-- Who attaches starts to count. -/
theorem tally?_attach {vectors : VectorTable} {config : EndpointConfig} {host : HostAnswer}
    (h : net.attach l p vectors config host = .ok after) : after.tally? p = some {} := by
  obtain ⟨slot, -, -, rfl⟩ := attach_eq_ok h
  simp [tally?, endpoint?, newEndpoint, Endpoint.tally, Inbox.waiting]

/-- Who detaches keeps its tally. -/
theorem tally?_detach (net : Network) (p : PeerId) :
    (net.detach p).2.tally? p = net.tally? p := by
  unfold Network.detach
  split
  · exact (tally?_update fun e => rfl).trans Option.map_id'
  · rfl

/-- Who is forgotten has no tally any more. -/
theorem tally?_forget (net : Network) (p : PeerId) : (net.forget p).2.tally? p = none := by
  simp [Network.forget, tally?, endpoint?]

/-- Naming an endpoint is not counted. -/
theorem tally?_setClass (net : Network) (peer : e.peer = p) (name : String) :
    (net.setClass e name).tally? p = net.tally? p := by
  subst peer
  exact (tally?_update fun e => rfl).trans Option.map_id'

/-! ### Interrupts -/

/-- A fresh delivery is received, and displaces what was pending. -/
theorem tally?_install (he : net.endpoint? p = some e) (peer : e.peer = p) {a : PeerId}
    {len : UInt64} {d : Delivery} (fresh : e.inbox.fresh? a len = some d) :
    (net.install e a len).tally? p = some e.tally.receive := by
  subst peer
  unfold Network.install
  simp only [Inbox.install_of_fresh? fresh]
  have received : (net.update e.peer fun e' =>
      { e' with inbox := e.inbox.accept d, metrics.delivered := e'.metrics.delivered + 1 }).tally?
        e.peer = some { e.tally with delivered := e.tally.delivered + 1, pending := 1 } := by
    rw [tally?_update (g := fun t => { t with delivered := t.delivered + 1, pending := 1 })
      fun _ => rfl, tally?_of_endpoint? he, Option.map_some]
  have before : e.tally.pending = e.inbox.pending.toList.length := rfl
  -- a delivery that was pending is displaced, whether it is given up or not
  rcases pending : e.inbox.pending with _ | q
  · rw [pending] at before
    simp [received, Tally.receive, before]
  · have stomped : ∀ mid : Network,
        mid.tally? e.peer =
          some { e.tally with delivered := e.tally.delivered + 1, pending := 1 } →
        (mid.update e.peer (.count fun c =>
          { c with incomingStomps := c.incomingStomps + 1 })).tally? e.peer =
            some e.tally.receive := by
      intro mid counted
      rw [tally?_update (g := fun t => { t with stomped := t.stomped + 1 }) fun _ => rfl, counted,
        Option.map_some, Tally.receive, before, pending]
      rfl
    simp only
    split
    · exact stomped _ received
    · exact (tally?_clearGivenUp _ e (some q) _).trans (stomped _ received)

/-- What a message counts that is left for the consumer, if none of its sender is pending. -/
theorem tally?_dispatch_plain (he : net.endpoint? p = some e) (peer : e.peer = p)
    (busyPeers : List PeerId) {a : PeerId} {slot : Slot} {d : Delivery}
    (busy : (slot.staged net.memory).len ≠ 0)
    (plain : ¬ Link.IsRequest (slot.staged net.memory).message)
    (fresh : e.inbox.fresh? a (slot.staged net.memory).len = some d) :
    (net.dispatch .queue busyPeers e a slot).2.tally? p = some e.tally.receive := by
  rw [dispatch_of_plain _ _ busy plain]
  have here : (net.stampSender slot a).endpoint? p = some e := he
  exact tally?_install here peer fresh

/-- A reply is counted, as sent or as failed. -/
theorem tally?_reply (net : Network) (peer : e.peer = p) (busyPeers : List PeerId)
    (sender : PeerId) (answer : List UInt8) :
    (net.reply .queue busyPeers e sender answer).2.tally? p = (net.tally? p).map fun t =>
      match (net.reply .queue busyPeers e sender answer).1 with
      | .ok _ => { t with sent := t.sent + 1 }
      | .error _ => { t with failed := t.failed + 1 } := by
  have sends := net.tally?_send peer busyPeers .spin (.peer sender) answer
  unfold Network.reply
  rcases outcome : net.send .queue busyPeers e .spin (.peer sender) answer with ⟨fault | len, after⟩
  · rw [outcome] at sends
    simp only [Sent.ofResult?, Tally.submit_none, Option.map_id'] at sends
    rw [← sends, ← peer]
    exact tally?_update fun _ => rfl
  · rwa [outcome] at sends

/-- What a link request counts. -/
theorem tally?_dispatch_request (he : net.endpoint? p = some e) (peer : e.peer = p)
    (busyPeers : List PeerId) {a : PeerId} {slot : Slot} {identity : Link.Identity}
    {answer : List UInt8} (busy : (slot.staged net.memory).len ≠ 0)
    (response : Link.respond e.identity (slot.staged net.memory).message =
      some (identity, answer)) :
    ∃ result, (net.dispatch .queue busyPeers e a slot).1 = .answered a answer result ∧
      (net.dispatch .queue busyPeers e a slot).2.tally? p = some (e.tally.answer result) := by
  rw [dispatch_of_request _ _ busy response]
  refine ⟨_, rfl, ?_⟩
  have here : (net.stampSender slot a).endpoint? p = some e := he
  generalize net.stampSender slot a = mid at here
  have acknowledged : (mid.acknowledge e slot identity).tally? p =
      some { e.tally with answered := e.tally.answered + 1 } := by
    rw [acknowledge, peer, tally?_update (g := fun t => { t with answered := t.answered + 1 })
      fun _ => rfl, tally?_remember, tally?_of_endpoint? here, Option.map_some]
  have replies := tally?_reply (mid.acknowledge e slot identity) peer busyPeers a answer
  rw [acknowledged, Option.map_some] at replies
  rw [replies]
  rcases ((mid.acknowledge e slot identity).reply .queue busyPeers e a answer).1 with _ | _ <;> rfl

/-! ### Rings -/

/-- A ring is lost if nobody listens at its destination. -/
theorem raise_of_silent {w : DoorbellWord}
    (silent : ∀ e, net.endpoint? w.dest = some e → e.listening = false) :
    net.raise .queue [] w = (.unattached, net) := by
  unfold Network.raise
  rcases he : net.endpoint? w.dest with _ | e
  · rfl
  · simp [silent e he]

/-- A ring of a peer with a slot is dispatched if somebody listens who has enough vectors, none of
    them twice. -/
theorem raise_of_listening {w : DoorbellWord} (valid : l.Valid)
    (he : net.endpoint? w.dest = some e) (seat : e.Seated l w.dest)
    (listening : e.listening = true) (distinct : e.vectors.NoRepeats)
    (enough : l.nEvents.toNat ≤ e.vectors.size) (owner : l.HasSlot w.origin.toUInt64) :
    net.raise .queue [] w =
      (.reached (.handled (net.dispatch .queue [] e w.origin (l.slotAt w.origin)).1),
        (net.dispatch .queue [] e w.origin (l.slotAt w.origin)).2) := by
  obtain ⟨-, -, -, -, -, events, -⟩ := (Layout.valid_iff l).mp valid
  have bound : w.origin.toNat < e.vectors.size := by
    have low := owner.le_maxPeer
    simp only [UInt64.le_iff_toNat_le, UInt64.lt_iff_toNat_lt, UInt16.toNat_toUInt64] at low events
    omega
  obtain ⟨vector, raised⟩ := VectorTable.exists_get?_of_lt bound
  have known := VectorTable.peerFor_of_vectorFor distinct raised
  unfold Network.raise Network.interrupt
  simp only [he, listening, if_true, VectorTable.vectorFor, raised, known, Endpoint.slotOf?,
    seat.layout, Layout.slot?_of_hasSlot valid owner]

end Network

end SharedMailbox
