import SharedMailbox.Proofs.Delivery
import SharedMailbox.Proofs.Stale

namespace SharedMailbox

/-!
# What an interrupt installs

An interrupt of a peer with a message makes a delivery of that peer the pending one, with the length
that is staged: unless a delivery of the same peer is pending already, which stays as it is. A peer
that attaches anew may have staged a message of another length by then.

* `View.Handles.exists_pending`: what is pending after an interrupt.
* `Network.Presents`, `WellFormed.presents_iff`: a consumer that waits now reads what is staged, and
  its release frees the sender.
* `Network.UpToDate`: what is pending of a peer has the length that the peer has staged.
* `Network.announces_of_run`: the message is presented after an interrupt, if and only if what was
  pending of its sender is up to date.
-/

namespace View

variable {l : Layout} {v w : View} {p a : PeerId} {i : Inbox} {receipt : Receipt}

/-- After an interrupt of a peer with a message, a delivery of it is pending and the message is
    still staged. The delivery was pending before, or no delivery of the peer was and it has the
    length that is staged. -/
theorem Handles.exists_pending (handles : v.Handles l p i a receipt w) (here : v.inbox p = some i)
    (offers : v.Offers l a) : ∃ j d, w.inbox p = some j ∧ j.pending = some d ∧ d.sender = a ∧
      w.staged a = v.staged a ∧ (i.pending = some d ∨
        (i.pending.map Delivery.sender ≠ some a ∧ d.len = (v.staged a).len)) := by
  cases handles with
  | slotless nowhere => exact absurd offers.owner nowhere
  | spurious idle => exact absurd idle offers.busy
  | answered _ request => exact absurd request offers.plain
  | waiting _ _ stale =>
    obtain ⟨d, pending, sender⟩ := Option.map_eq_some_iff.mp (Inbox.fresh?_eq_none.mp stale)
    exact ⟨i, d, here, pending, sender, rfl, .inl pending⟩
  | @installed d _ _ _ fresh =>
    obtain ⟨waiting, rfl⟩ := Inbox.fresh?_eq_some.mp fresh
    refine ⟨_, _, by rw [install, inbox_giveUp, inbox_setInbox_self], rfl, rfl, ?_,
      .inr ⟨waiting, rfl⟩⟩
    -- what is displaced is of another sender
    rw [install, staged_giveUp_of_ne, staged_setInbox]
    intro c given sender
    rw [(Inbox.stomped_eq_some.mp given).1] at waiting
    exact waiting (congrArg some sender)

end View

namespace Network

variable {net : Network} {l : Layout} {stray : Prop} {p a : PeerId} {vector : UInt32}
  {message : List UInt8}

/-! ### Waiting and releasing -/

/-- A consumer that waits while a delivery is pending and then releases it reads the slot of the
    sender as it is staged, and clears it by the length of the delivery. -/
theorem WellFormed.consume (wf : WellFormed l stray net) {i : Inbox} {d : Delivery}
    (here : net.inbox? p = some i) (pending : i.pending = some d) (patience : Patience) :
    (net.perform .queue (.await p patience)).1 =
        .received (.ok ⟨d.sender, l.slotAt d.sender, d.len.toNat⟩) ∧
      (net.run .queue [.await p patience]).view.staged d.sender = net.view.staged d.sender ∧
      WellFormed l stray (net.run .queue [.await p patience, .release p]) ∧
      (net.run .queue [.await p patience, .release p]).view.staged d.sender =
        (net.view.staged d.sender).clear d.len := by
  obtain ⟨e, he, rfl⟩ := exists_of_inbox? here
  obtain ⟨wf', ok, shown⟩ := wf.await he pending patience
  have waits : net.perform .queue (.await p patience) =
      (.received (net.await e patience).1, (net.await e patience).2) := by
    simp only [Network.perform, Network.actAs, he]
  -- what is superseded is of another sender
  have kept : (net.await e patience).2.view.staged d.sender = net.view.staged d.sender := by
    rw [shown, View.handOut, View.staged_giveUp_of_ne, View.staged_setInbox]
    exact fun c given => (Inbox.superseded_eq_some.mp given).2
  have there : (net.await e patience).2.inbox? p = some (e.inbox.handOut d).1 := by
    rw [← inbox_view, shown, View.handOut, View.inbox_giveUp, View.inbox_setInbox_self]
  obtain ⟨e', he', inbox⟩ := exists_of_inbox? there
  obtain ⟨wf'', -, released⟩ := wf'.release he'
  have releases : (net.await e patience).2.perform .queue (.release p) =
      (.answered ((net.await e patience).2.release e').1,
        ((net.await e patience).2.release e').2) := by
    simp only [Network.perform, Network.actAs, he']
  refine ⟨by rw [waits, ok], ?_, ?_, ?_⟩
  · rw [run_cons, run_nil, waits, kept]
  · rwa [run_cons, run_cons, run_nil, waits, releases]
  · rw [run_cons, run_cons, run_nil, waits, releases, released, inbox, ← kept]
    exact View.staged_giveUp_self _ d

/-- A peer whose slot is idle sends what is admitted. -/
theorem WellFormed.send_of_idle (wf : WellFormed l stray net) {e : Endpoint}
    (he : net.endpoint? a = some e) (idle : (net.view.staged a).len = 0) {dest : Destination}
    {target : UInt64} (admitted : e.admit dest message = .ok target) (mode : WaitMode) :
    (net.perform .queue (.send a mode dest message)).1 = .sent (.ok message.length) := by
  have fits := wf.fits a e he
  have own : e.slot = net.layout.slotAt a := by
    rw [Endpoint.slot, fits.layout, fits.peer, ← wf.layout]
    rfl
  have free : ¬ net.Wedged [] e mode := by
    rintro (⟨-, there⟩ | busy)
    · cases there
    · rw [own] at busy
      exact busy idle
  simp only [Network.perform, Network.actAs, he, Network.send, admitted, if_neg free]

/-- The message that `a` has staged is pending at `p`: a consumer that waits for it now reads the
    message, and a release right after that lets `a` send again. -/
structure Presents (net : Network) (p a : PeerId) (message : List UInt8) : Prop where
  pending : ∃ i d, net.inbox? p = some i ∧ i.pending = some d ∧ d.sender = a ∧
    d.len.toNat = message.length
  shown : ∀ patience, ∃ incoming,
    (net.perform .queue (.await p patience)).1 = .received (.ok incoming) ∧ incoming.sender = a ∧
      incoming.Shows (net.run .queue [.await p patience]).memory message
  freed : ∀ patience, ((net.run .queue [.await p patience, .release p]).staged a).len = 0
  sends : ∀ patience e mode dest text target,
    (net.run .queue [.await p patience, .release p]).endpoint? a = some e →
    e.admit dest text = .ok target →
    ((net.run .queue [.await p patience, .release p]).perform .queue (.send a mode dest text)).1 =
      .sent (.ok text.length)

/-- It is so if and only if what is pending has the length that is staged. -/
theorem WellFormed.presents_iff (wf : WellFormed l stray net) {i : Inbox} {d : Delivery}
    (here : net.inbox? p = some i) (pending : i.pending = some d) {s : Sent}
    (staged : s.StagedAs l (net.staged d.sender)) :
    net.Presents p d.sender s.message ↔ d.len = (net.staged d.sender).len := by
  constructor
  · intro presents
    obtain ⟨j, c, here', pending', -, len⟩ := presents.pending
    obtain rfl := Option.some.inj (here.symm.trans here')
    obtain rfl := Option.some.inj (pending.symm.trans pending')
    rw [← UInt64.toNat_inj, len, staged.len]
  · intro same
    have consumes := wf.consume here pending
    -- after the release nothing is staged
    have freed : ∀ patience,
        ((net.run .queue [.await p patience, .release p]).staged d.sender).len = 0 := by
      intro patience
      obtain ⟨-, -, -, cleared⟩ := consumes patience
      simp only [staged_view] at cleared
      rw [cleared, same, Staged.len_clear_self]
    refine ⟨⟨i, d, here, pending, rfl, by rw [same, staged.len]⟩, fun patience => ?_, freed,
      fun patience e mode dest text target he admitted => ?_⟩
    · obtain ⟨received, stays, -⟩ := consumes patience
      refine ⟨_, received, rfl, ?_⟩
      -- until then it is what is staged now
      have left : (l.slotAt d.sender).staged (net.run .queue [.await p patience]).memory =
          net.staged d.sender := by
        rw [← staged_view, ← stays, staged_view, Network.staged, run_cons, run_nil,
          wf.layout_perform]
      exact Incoming.shows_of_stagedAs (left ▸ staged) (by rw [left, same])
    · obtain ⟨-, -, wf', -⟩ := consumes patience
      exact wf'.send_of_idle he (freed patience) admitted mode

/-! ### Interrupts -/

/-- What is pending of a peer at another one has the length that the peer has staged. -/
def UpToDate (net : Network) (p a : PeerId) : Prop :=
  ∀ i d, net.inbox? p = some i → i.pending = some d → d.sender = a → d.len = (net.staged a).len

/-- After an interrupt of a peer with a message, the message is presented if and only if what was
    pending of the peer before is up to date. -/
theorem WellFormed.presents_interrupt_iff (wf : WellFormed l stray net) {e : Endpoint}
    (he : net.endpoint? p = some e) (known : e.vectors.peerFor vector = some a)
    (offers : net.view.Offers l a) {s : Sent} (staged : s.StagedAs l (net.staged a)) :
    (net.perform .queue (.interrupt p vector)).2.Presents p a s.message ↔ net.UpToDate p a := by
  obtain ⟨wf', receipt, -, handles⟩ := wf.interrupt he [] known
  have after : (net.perform .queue (.interrupt p vector)).2 =
      (net.interrupt .queue [] e vector).2 := by rw [perform_interrupt he]
  rw [after]
  generalize (net.interrupt .queue [] e vector).2 = mid at wf' handles
  have here := inbox?_of_endpoint? he
  -- Afterwards something of the peer is pending: what was pending of it before, or else a new
  -- delivery of the length that is in its slot.
  obtain ⟨j, d, there, pending, rfl, kept, origin⟩ := handles.exists_pending here offers
  simp only [inbox_view, staged_view] at there kept origin
  have presents := wf'.presents_iff there pending (s := s) (by rwa [kept])
  rw [presents, kept]
  constructor
  · intro same i c here' pending' sender
    obtain rfl := Option.some.inj (here.symm.trans here')
    rcases origin with before | ⟨waiting, -⟩
    · rw [Option.some.inj (pending'.symm.trans before), same]
    · rw [pending', Option.map_some, sender] at waiting
      exact absurd rfl waiting
  · intro date
    rcases origin with before | ⟨-, same⟩
    · exact date _ d here before rfl
    · exact same

/-! ### Runs -/

variable {storage : Storage} {b : Mailbox} {actions : List Action}

/-- What an interrupt of `a` at `p` makes of what `a` has sent last in a run. -/
structure Announces (l : Layout) (net : Network) (actions : List Action) (p a : PeerId)
    (vector : UInt32) (s : Sent) : Prop where
  latest : (net.story actions).latest? a = some s
  staged : s.StagedAs l ((net.run .queue actions).staged a)
  /-- The message is presented if and only if what was pending of `a` is up to date. -/
  presents : ((net.run .queue actions).perform .queue (.interrupt p vector)).2.Presents p a
    s.message ↔ (net.run .queue actions).UpToDate p a
  /-- It is, if no stray rings arrive and `a` attaches only while nothing of it is about. -/
  current : (∀ action ∈ actions, action.Orderly) → net.AttachesQuietly actions a →
    (net.run .queue actions).UpToDate p a

/-- **Interrupts.** After every run from a new mailbox, whoever attaches in it as often as may be:
    an interrupt of a peer with a message presents what the peer has sent last, if and only if what
    was pending of the peer is up to date. -/
theorem announces_of_run (created : Mailbox.create storage l = .ok b) {e : Endpoint}
    (he : ((ofMailbox b).run .queue actions).endpoint? p = some e)
    (known : e.vectors.peerFor vector = some a)
    (offers : ((ofMailbox b).run .queue actions).view.Offers l a) :
    ∃ s, Announces l (ofMailbox b) actions p a vector s := by
  obtain ⟨wf, recorded⟩ := recorded_of_run created actions
  obtain ⟨s, latest, staged⟩ := recorded.ledger a offers.busy
  refine ⟨s, latest, staged, wf.presents_interrupt_iff he known offers staged,
    fun orderly quietly i d here pending sender => ?_⟩
  obtain ⟨owned, -⟩ := owned_of_quietly created orderly quietly
  exact ((owned.sound p i here).refs d (.inl pending) sender).len

/-- The ring of peer 1 is still under way when peer 2 is interrupted. -/
theorem announces_of_run_small : ∃ s,
    Announces smallLayout (ofMailbox smallMailbox) [join 1, join 2, hail 1 2] 2 1 1 s :=
  announces_of_run create_small
    (Option.some_get (show (((ofMailbox smallMailbox).run .queue
      [join 1, join 2, hail 1 2]).endpoint? 2).isSome by decide +kernel)).symm
    (by decide +kernel) ⟨by decide, by decide +kernel, by decide +kernel⟩

/-- Peer 1 attaches anew while its first message is pending at peer 2, and sends a longer one. What
    is pending keeps its length then, and the release does not free peer 1. -/
theorem not_presented_small :
    let net := (ofMailbox smallMailbox).run .queue
      [join 1, join 2, hail 1 2, .deliver 0, join 1, .send 1 .spin (.peer 2) [7, 8]]
    let after := (net.perform .queue (.interrupt 2 1)).2
    (net.staged 1).message = [7, 8] ∧
      ((after.inbox? 2).bind Inbox.pending).map Delivery.len = some 1 ∧
      ((after.run .queue [.await 2 .none, .release 2]).staged 1).len = 2 := by
  decide +kernel

end Network

end SharedMailbox
