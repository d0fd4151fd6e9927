import SharedMailbox.Proofs.Steps

namespace SharedMailbox

/-!
# Deliveries given up

Whether it is released, stomped or superseded: a delivery that is given up was referred to, and its
length is compared with the one in the slot of its sender.

* `View.GivesUp`: what becomes of the slot of its sender.
* `Network.WellFormed.givesUp`: that is what every action does that gives up a delivery.
-/

namespace View

variable {l : Layout} {v w : View} {p : PeerId} {i : Inbox} {event : Event} {q : PeerId}
  {d : Delivery}

/-- A delivery is given up in a step: its endpoint referred to it, and the slot of its sender is
    cleared if it holds the length of the delivery. -/
def GivesUp (v w : View) (q : PeerId) (d : Delivery) : Prop :=
  v.Refers q d ∧ w.staged d.sender = (v.staged d.sender).clear d.len

/-- A send gives up no delivery. -/
theorem not_mem_events_of_givenUp? {s : Sent} {result : Except MessageError Nat}
    (gave : event.givenUp? = some (q, d)) : event ∉ s.events result := by
  intro told
  cases result with
  | error => cases told
  | ok =>
    obtain rfl := List.mem_singleton.mp told
    cases gave

/-- What is given up while a message is handled is the delivery that it displaces. -/
theorem Handles.givesUp {a : PeerId} {receipt : Receipt} (handles : v.Handles l p i a receipt w)
    (here : v.inbox p = some i) (told : event ∈ receipt.events i p)
    (gave : event.givenUp? = some (q, d)) : v.GivesUp w q d := by
  cases handles with
  | slotless | spurious | waiting => cases told
  | answered => exact absurd told (not_mem_events_of_givenUp? gave)
  | installed =>
    -- of the two events of an arrival only the stomp gives something up
    rcases List.mem_cons.mp told with rfl | told
    · cases gave
    · obtain ⟨c, stomped, rfl⟩ := Option.map_eq_some_iff.mp (Option.mem_toList.mp told)
      cases gave
      refine ⟨⟨i, here, .inl (Inbox.stomped_eq_some.mp stomped).1⟩, ?_⟩
      rw [install, stomped, staged_giveUp_self, staged_setInbox]

/-- What is given up while a delivery is taken in hand is the one that was in hand. -/
theorem givesUp_of_onTaking {c : Delivery} (here : v.inbox p = some i)
    (pending : i.pending = some c) (told : event ∈ i.onTaking p)
    (gave : event.givenUp? = some (q, d)) :
    v.GivesUp (v.handOut p i c) q d ∧ (i.handOut c).2 = some d := by
  simp only [Inbox.onTaking, pending, Option.map_some, Option.toList_some, List.mem_singleton]
    at told
  subst told
  rcases superseded : (i.handOut c).2 with _ | b
  · simp [Event.givenUp?, superseded] at gave
  · simp only [Event.givenUp?, superseded, Option.some.injEq, Prod.mk.injEq] at gave
    obtain ⟨rfl, rfl⟩ := gave
    refine ⟨⟨⟨i, here, .inr (Inbox.superseded_eq_some.mp superseded).1⟩, ?_⟩, rfl⟩
    rw [handOut, superseded, staged_giveUp_self, staged_setInbox]

/-- What is given up in a release is what the consumer is done with. -/
theorem givesUp_of_onRelease (here : v.inbox p = some i) (told : event ∈ i.onRelease p)
    (gave : event.givenUp? = some (q, d)) :
    v.GivesUp (v.release p i) q d ∧ i.release.2 = some d ∧ q = p := by
  obtain ⟨c, given, rfl⟩ := Option.map_eq_some_iff.mp (Option.mem_toList.mp told)
  cases gave
  refine ⟨⟨⟨i, here, Inbox.refers_of_released given⟩, ?_⟩, given, rfl⟩
  rw [release, given, staged_giveUp_self, staged_setInbox]

/-- A frame that is read is taken in hand and given up; whose delivery it supersedes has another
    slot. -/
theorem Reads.givesUp {c : Delivery} {result : Except MessageError Nat}
    (reads : v.Reads p i c result w) (here : v.inbox p = some i) (pending : i.pending = some c)
    (told : event ∈ i.onReading p result) (gave : event.givenUp? = some (q, d)) :
    v.GivesUp w q d := by
  cases reads with
  | refused fault =>
    simp only [Inbox.onReading, pending] at told
    exact (givesUp_of_onTaking here pending told gave).1
  | read total =>
    have released : (i.handOut c).1.release.2 = some c := rfl
    have there : (v.handOut p i c).inbox p = some (i.handOut c).1 := by simp [handOut]
    simp only [Inbox.onReading, pending] at told
    rcases List.mem_append.mp told with told | told
    · -- what was superseded is of another sender than what is released right after
      obtain ⟨⟨refers, cleared⟩, superseded⟩ := givesUp_of_onTaking here pending told gave
      refine ⟨refers, ?_⟩
      rw [release, released, ← cleared, staged_giveUp_of_ne, staged_setInbox]
      rintro _ ⟨⟩
      exact (Inbox.superseded_eq_some.mp superseded).2.symm
    · -- what is released has just been taken in hand, so it was pending
      obtain ⟨⟨-, cleared⟩, given, rfl⟩ := givesUp_of_onRelease there told gave
      obtain rfl := Option.some.inj (released.symm.trans given)
      refine ⟨⟨i, here, .inl pending⟩, ?_⟩
      rw [cleared, handOut, staged_giveUp_of_ne, staged_setInbox]
      exact fun b h => (Inbox.superseded_eq_some.mp h).2

end View

namespace Network

variable {net : Network} {l : Layout} {stray : Prop} {event : Event} {q : PeerId} {d : Delivery}

/-- What is given up when a ring arrives is given up at its destination. -/
theorem givesUp_of_raises {u w : View} {ring : DoorbellWord} {result : RingResult}
    (same : u.inbox = net.view.inbox) (raises : u.Raises l stray ring result w)
    (told : event ∈ net.onInbox ring.dest (result.events · ring.dest))
    (gave : event.givenUp? = some (q, d)) : u.GivesUp w q d := by
  cases raises with
  | unattached | noVector | foreign =>
    simp [RingResult.events, Handling.events, onInbox_nil] at told
  | reached here origin handles =>
    have there := here
    rw [same] at there
    rw [onInbox_eq there] at told
    exact handles.givesUp here told gave

/-- An endpoint has acted if there is something to tell. -/
theorem exists_of_actAs {p : PeerId} {act : Endpoint → Outcome × Network} {action : Action}
    (absent : net.tell action .absent = []) (told : event ∈ net.tell action (net.actAs p act).1) :
    ∃ e, net.endpoint? p = some e ∧ net.actAs p act = act e ∧
      event ∈ net.tell action (act e).1 := by
  rcases he : net.endpoint? p with _ | e
  · have silent : net.actAs p act = (.absent, net) := by simp [actAs, he]
    rw [silent, absent] at told
    cases told
  · have acts : net.actAs p act = act e := by simp [actAs, he]
    exact ⟨e, rfl, acts, acts ▸ told⟩

/-- An action that gives up a delivery clears the slot of its sender if that holds the length of the
    delivery, and leaves what is staged there alone otherwise. -/
theorem WellFormed.givesUp (wf : WellFormed l stray net) {action : Action}
    (told : event ∈ net.events action) (gave : event.givenUp? = some (q, d)) :
    net.view.GivesUp (net.perform .queue action).2.view q d := by
  -- Only the arrival of a ring, a wait, a release and a read give up deliveries; everywhere
  -- else `told` is contradictory.
  unfold events at told
  cases action with
  | attach p vectors config host =>
    simp only [Network.perform] at told
    rcases made : net.attach net.layout p vectors config host with fault | after <;>
      rw [made] at told
    · cases told
    · obtain rfl := List.mem_singleton.mp told
      cases gave
  | detach p => cases told
  | forget p => cases told
  | send p mode dest message =>
    obtain ⟨e, -, -, told⟩ := exists_of_actAs rfl told
    exact absurd told (View.not_mem_events_of_givenUp? gave)
  | requestDump p =>
    obtain ⟨e, -, -, told⟩ := exists_of_actAs rfl told
    exact absurd told (View.not_mem_events_of_givenUp? gave)
  | write p request =>
    obtain ⟨e, -, -, told⟩ := exists_of_actAs rfl told
    simp only [tell] at told
    split at told
    · exact absurd told (View.not_mem_events_of_givenUp? gave)
    · cases told
  -- a stomped delivery is given up at the destination of the ring
  | deliver place =>
    simp only [Network.perform] at told ⊢
    rcases delivered : net.deliver? place with _ | ⟨ring, result, after⟩
    · rw [delivered] at told
      cases told
    · rw [delivered] at told
      obtain ⟨-, -, raises⟩ := wf.deliver? delivered
      exact givesUp_of_raises (u := net.view.drop place) rfl raises told gave
  | raise ring =>
    obtain ⟨-, raises⟩ := wf.raise [] ring
    exact givesUp_of_raises rfl raises told gave
  | interrupt p vector =>
    obtain ⟨e, he, acts, told⟩ := exists_of_actAs rfl told
    have here := inbox?_of_endpoint? he
    simp only [Network.perform, acts]
    rcases known : e.vectors.peerFor vector with _ | a
    · obtain ⟨-, handling, -⟩ := wf.interrupt_foreign (e := e) [] known
      simp only [tell, handling, onInbox_eq here] at told
      cases told
    · obtain ⟨-, receipt, handling, handles⟩ := wf.interrupt he [] known
      simp only [tell, handling, onInbox_eq here] at told
      exact handles.givesUp here told gave
  -- what was in hand is given up for what is taken
  | await p patience =>
    obtain ⟨e, he, acts, told⟩ := exists_of_actAs rfl told
    have here := inbox?_of_endpoint? he
    simp only [Network.perform, acts]
    simp only [tell, onInbox_eq here] at told
    rcases pending : e.inbox.pending with _ | c
    · simp [Inbox.onTaking, pending] at told
    · obtain ⟨-, -, shown⟩ := wf.await he pending patience
      rw [shown]
      exact (View.givesUp_of_onTaking here pending told gave).1
  -- what is in hand is given up, or else what is pending
  | release p =>
    obtain ⟨e, he, acts, told⟩ := exists_of_actAs rfl told
    have here := inbox?_of_endpoint? he
    obtain ⟨-, -, shown⟩ := wf.release he
    simp only [Network.perform, acts, shown]
    simp only [tell, onInbox_eq here] at told
    exact (View.givesUp_of_onRelease here told gave).1
  -- a read takes, and releases what it took if the frame fits
  | read p buffer =>
    obtain ⟨e, he, acts, told⟩ := exists_of_actAs rfl told
    have here := inbox?_of_endpoint? he
    simp only [Network.perform, acts]
    simp only [tell, onInbox_eq here] at told
    rcases pending : e.inbox.pending with _ | c
    · simp [Inbox.onReading, Inbox.onTaking, pending] at told
    · obtain ⟨-, reads⟩ := wf.read he pending buffer
      exact reads.givesUp here pending told gave
  | setClass p name =>
    obtain ⟨e, -, -, told⟩ := exists_of_actAs rfl told
    cases told

end Network

end SharedMailbox
