import SharedMailbox.Proofs.Ledger
import SharedMailbox.Proofs.Orderly

namespace SharedMailbox

/-!
# Deliveries in hand

What a consumer has in hand stays staged until the consumer lets go of it, even if rings are raised
more than once and whatever the vector tables are: unless another delivery of the same sender
becomes pending meanwhile and is displaced in turn, since that one counts as another generation.

* `Story.Addressed`, `Event.Displaces`: rings of a peer arrive where its message is for; a delivery
  is given up by an interrupt while another one of its sender is in hand.
* `View.Anchored`, `View.Held`: whoever refers to a peer refers to what that has staged for it; a
  delivery of a peer is in hand, and what is staged stays as it was.
* `Network.held_of_await`: what holds of a run after a wait that has returned a delivery.
* `Network.Displaces`, `Network.guards_of_run`: which interrupts empty the slot of a delivery in
  hand.
-/

/-! ### Stories -/

/-- Whatever was installed of the messages of a peer was installed where the last one of them was
    for. -/
def Story.Addressed (l : Layout) (a : PeerId) (story : Story) : Prop :=
  story.Arrivals fun before p d => d.sender = a →
    (before.latest? a).map (fun s => s.dest.resolve l) = some (.ok p.toUInt64)

instance (l : Layout) (a : PeerId) (story : Story) : Decidable (story.Addressed l a) :=
  inferInstanceAs (Decidable (story.Arrivals _))

/-- An interrupt gives up a delivery of a peer while another one of that peer is in hand. -/
def Event.Displaces (a : PeerId) : Event → Prop
  | stomped _ d (some held) => d.sender = a ∧ held.sender = a
  | _ => False

instance (a : PeerId) : (event : Event) → Decidable (event.Displaces a)
  | .stomped _ _ (some _) => inferInstanceAs (Decidable (_ ∧ _))
  | .stomped _ _ none | .attached _ | .sent _ | .installed .. | .taken .. | .released .. =>
    inferInstanceAs (Decidable False)

/-- All that arrives of the messages of a peer arrives where it is for, and none is given up by an
    interrupt while another one is in hand. -/
structure Story.Steady (l : Layout) (a : PeerId) (story : Story) : Prop where
  addressed : story.Addressed l a
  still : ∀ event ∈ story, ¬ event.Displaces a

namespace Story

variable {l : Layout} {a : PeerId} {story after : Story}

/-- What is steady all along is steady at the beginning. -/
theorem Steady.of_append (h : Steady l a (story ++ after)) : story.Steady l a :=
  ⟨Arrivals.of_append h.addressed, fun event told => h.still event (List.mem_append_left _ told)⟩

end Story

namespace View

variable {l : Layout} {r : Rules} {v u w : View} {a p : PeerId} {before story : Story}

/-! ### References -/

/-- Whoever refers to a message of a peer refers to what the peer has staged for it. -/
def Anchored (v : View) (a : PeerId) : Prop :=
  ∀ p d, v.Refers p d → d.sender = a → d.Current p (v.staged a)

/-- An inbox changes and a delivery to which it referred is given up. If that is one of the peer,
    nobody refers to the peer afterwards. -/
theorem Anchored.changed (anchored : v.Anchored a) {k : Option Inbox} {o : Option Delivery}
    (staged : u.staged a = v.staged a) (inbox : u.inbox = v.inbox) (given : ∀ d ∈ o, v.Refers p d)
    (kept : ∀ j ∈ k, ∀ d, j.Refers d → d.sender = a → d.Current p (v.staged a))
    (cleared : ∀ d ∈ o, d.sender = a → ∀ j ∈ k, ∀ c, j.Refers c → c.sender ≠ a) :
    ((u.setInbox p k).giveUp o).Anchored a := by
  intro q c h sender
  by_cases own : ∃ d ∈ o, d.sender = a
  · obtain ⟨d, gave, sender'⟩ := own
    rcases refers_changed h with ⟨-, j, there, refers⟩ | ⟨other, refers⟩
    · exact absurd sender (cleared d gave sender' j there c refers)
    · -- nobody else refers to the peer
      have here := (anchored p d (given d gave) sender').dest
      have there := (anchored q c ((refers_congr inbox).mp refers) sender).dest
      exact absurd (UInt16.toUInt64_inj.mp (there.symm.trans here)) other
  · have unchanged : ((u.setInbox p k).giveUp o).staged a = v.staged a := by
      rw [staged_giveUp_of_ne _ fun d h sender => own ⟨d, h, sender⟩, staged_setInbox, staged]
    rw [unchanged]
    rcases refers_changed h with ⟨rfl, j, there, refers⟩ | ⟨-, refers⟩
    · exact kept j there c refers sender
    · exact anchored q c ((refers_congr inbox).mp refers) sender

/-- A delivery becomes the pending one. It is of what its sender has staged for the endpoint, and
    what it displaces of the peer is not given up while another delivery of the peer is in hand. -/
theorem Anchored.install {stray : Prop} (anchored : v.Anchored a) {b : PeerId}
    (arrival : v.Arrival stray p b u) {i : Inbox} (here : v.inbox p = some i) {d : Delivery}
    (current : d.sender = a → d.Current p (v.staged a))
    (waiting : i.pending.map Delivery.sender ≠ some d.sender)
    (still : ∀ e ∈ i.stomped, e.sender = a → ∀ h, i.inHand = some h → h.sender ≠ a) :
    (u.install p i d).Anchored a := by
  have refers : ∀ c, i.Refers c → v.Refers p c := fun c h => ⟨i, here, h⟩
  -- the new delivery is current by assumption, and the one in hand was current before
  refine anchored.changed (congrFun arrival.staged_eq a) arrival.inbox_eq
    (fun c h => refers c (.inl (Inbox.stomped_eq_some.mp h).1)) ?_ ?_
  · rintro j ⟨⟩ c h sender
    rcases Inbox.refers_accept h with rfl | old
    · exact current sender
    · exact anchored p c (refers c (.inr old)) sender
  · -- if a delivery of the peer is stomped, neither the new one nor the one in hand is of the peer
    rintro e given sender j ⟨⟩ c refers'
    rcases Inbox.refers_accept refers' with rfl | held
    · intro sender'
      rw [(Inbox.stomped_eq_some.mp given).1] at waiting
      exact waiting (congrArg some (sender.trans sender'.symm))
    · exact still e given sender c held

/-- Steps preserve this as long as the story is steady. -/
theorem Anchored.step (quiet : ∀ v, r.claim v a → v.Quiet a) (ledger : Ledger l a before v)
    (steady : Story.Steady l a (before ++ story)) (anchored : v.Anchored a)
    (step : Step l r v story u) : u.Anchored a := by
  cases step with
  | @occupy q claim =>
    by_cases same : a = q
    · -- the peer is quiet when it claims its slot, so that nobody refers to what it wipes
      subst same
      intro p c h sender
      rcases refers_changed (o := none) h with ⟨-, j, there, h⟩ | ⟨-, h⟩
      · cases there
        simp [Inbox.Refers] at h
      · exact absurd sender ((quiet v claim).refs p c h)
    · refine anchored.changed (o := none) (staged_setStaged_of_ne v same _) rfl (by simp) ?_
        (by simp)
      rintro j ⟨⟩ d h
      simp [Inbox.Refers] at h
  | forget q =>
    exact anchored.changed (k := none) (o := none) rfl rfl (by simp) (by simp) (by simp)
  | @post s target here admits =>
    intro q d h sender
    by_cases same : s.origin = a
    · -- the peer is idle, so that nobody refers to it
      subst same
      exact absurd admits.idle (anchored q d h sender).busy
    · have unchanged : (v.post s.origin target s.message).staged a = v.staged a :=
        staged_setStaged_of_ne v (Ne.symm same) _
      exact unchanged ▸ anchored q d h sender
  | lose place => exact anchored
  | @answer q b w arrival busy request =>
    intro p d h sender
    have current := anchored p d ((refers_congr arrival.inbox_eq).mp h) sender
    have other : a ≠ b := by
      rintro rfl
      exact current.plain request
    rw [staged_clear_of_ne w other, arrival.staged_eq]
    exact current
  | @install q b w i d arrival here busy plain fresh =>
    obtain ⟨waiting, rfl⟩ := Inbox.fresh?_eq_some.mp fresh
    refine anchored.install arrival here ?_ waiting ?_
    · -- what arrives is the last message of the peer, which is for this endpoint
      rintro rfl
      obtain ⟨s, latest, staged⟩ := ledger busy
      have resolved := Story.Arrivals.next steady.addressed rfl
      rw [latest, Option.map_some, staged.resolved] at resolved
      exact ⟨rfl, busy, Except.ok.inj (Option.some.inj resolved), plain⟩
    · intro e given sender h held sender'
      refine steady.still (.stomped q e i.inHand) ?_ (held ▸ ⟨sender, sender'⟩)
      simp [Inbox.onArrival, Option.mem_def.mp given]
  | @take q i d here pending =>
    refine anchored.changed rfl rfl ?_ ?_ ?_
    · exact fun c h => ⟨i, here, .inr (Inbox.superseded_eq_some.mp h).1⟩
    · rintro j ⟨⟩ c h
      rw [Inbox.refers_handOut pending h]
      exact anchored q d ⟨i, here, .inl pending⟩
    · rintro c h sender j ⟨⟩ c' h'
      rw [Inbox.refers_handOut pending h', ← sender]
      exact (Inbox.superseded_eq_some.mp h).2.symm
  -- what is given up is no longer referred to, and an equal sender would be the one in hand
  | @release q i d here given =>
    refine anchored.changed rfl rfl ?_ ?_ ?_
    · exact fun c h => ⟨i, here, Inbox.refers_of_released h⟩
    · rintro j ⟨⟩ c h
      exact anchored q c ⟨i, here, .inl (Inbox.refers_release h)⟩
    · rintro c h sender j ⟨⟩ c' h'
      rw [← sender]
      exact Inbox.ne_of_refers_release h h'

/-- A slot that is owned is such a one. -/
theorem Owned.anchored (owned : v.Owned a) : v.Anchored a := by
  rintro p d ⟨i, here, refers⟩ sender
  exact (owned.sound p i here).refs d refers sender

/-! ### What is in hand -/

/-- A delivery was taken in hand at a peer: what its sender has staged is as it was then, nothing
    else of the sender is referred to, and the consumer has not let go of the sender. -/
structure Held (p : PeerId) (d : Delivery) (left : Staged) (v : View) : Prop where
  current : d.Current p left
  anchored : v.Anchored d.sender
  staged : v.staged d.sender = left
  hand : ∀ i, v.inbox p = some i → ∃ c, i.inHand = some c ∧ c.sender = d.sender

variable {d : Delivery} {left : Staged}

/-- Only the consumer refers to the sender. -/
theorem Held.eq_of_refers (held : v.Held p d left) {q : PeerId} {c : Delivery} (h : v.Refers q c)
    (sender : c.sender = d.sender) : q = p := by
  have there := (held.anchored q c h sender).dest
  rw [held.staged] at there
  exact UInt16.toUInt64_inj.mp (there.symm.trans held.current.dest)

/-- An inbox changes, and only deliveries of other senders are given up. -/
theorem Held.changed (held : v.Held p d left) {q : PeerId} {k : Option Inbox} {o : Option Delivery}
    (anchored : ((u.setInbox q k).giveUp o).Anchored d.sender)
    (staged : u.staged d.sender = v.staged d.sender) (inbox : u.inbox = v.inbox)
    (given : ∀ c ∈ o, c.sender ≠ d.sender)
    (hand : q = p → ∀ j ∈ k, ∃ c, j.inHand = some c ∧ c.sender = d.sender) :
    ((u.setInbox q k).giveUp o).Held p d left where
  current := held.current
  anchored := anchored
  staged := by
    rw [staged_giveUp_of_ne _ given, staged_setInbox, staged]
    exact held.staged
  hand i there := by
    rw [inbox_giveUp] at there
    by_cases same : p = q
    · subst same
      rw [inbox_setInbox_self] at there
      exact hand rfl i there
    · rw [inbox_setInbox_of_ne u same, inbox] at there
      exact held.hand i there

/-- A delivery is held until its consumer lets go of it, as long as the story is steady. -/
theorem Held.step (quiet : ∀ v a, r.claim v a → v.Quiet a) (ledger : Ledger l d.sender before v)
    (steady : Story.Steady l d.sender (before ++ story)) (held : v.Held p d left)
    (step : Step l r v story u) (holds : ∀ event ∈ story, ¬ event.LetsGo p d.sender)
    (unclaimed : .attached p ∉ story ∧ .attached d.sender ∉ story) : u.Held p d left := by
  have anchored : u.Anchored d.sender :=
    held.anchored.step (fun v => quiet v d.sender) ledger steady step
  have still : ∀ event ∈ story, ¬ event.Displaces d.sender :=
    fun event told => steady.still event (List.mem_append_right _ told)
  have staged := held.staged
  cases step with
  | @occupy q claim =>
    obtain ⟨other, another⟩ : p ≠ q ∧ d.sender ≠ q := by simpa using unclaimed
    exact held.changed (o := none) anchored (staged_setStaged_of_ne v another _) rfl (by simp)
      fun same => absurd same.symm other
  | forget q => exact held.changed (o := none) anchored rfl rfl (by simp) (by simp)
  | @post s target here admits =>
    -- the sender itself cannot send while its slot is busy
    have other : d.sender ≠ s.origin := by
      intro same
      have idle := admits.idle
      rw [← same, staged] at idle
      exact held.current.busy idle
    exact ⟨held.current, anchored, (staged_setStaged_of_ne v other _).trans staged, held.hand⟩
  | lose place => exact ⟨held.current, anchored, staged, held.hand⟩
  | @answer q b w arrival busy request =>
    -- what is held was not answered on arrival, so it is no link request
    have other : d.sender ≠ b := by
      rintro rfl
      exact held.current.plain (staged ▸ request)
    refine ⟨held.current, anchored, ?_, ?_⟩
    · rw [staged_clear_of_ne w other, arrival.staged_eq]
      exact staged
    · rw [inbox_clear, arrival.inbox_eq]
      exact held.hand
  | @install q b w i c arrival here busy plain fresh =>
    refine held.changed anchored (congrFun arrival.staged_eq _) arrival.inbox_eq
      (fun e h sender => ?_) ?_
    · -- it would be given up while another one of its sender is in hand
      obtain ⟨pending, -⟩ := Inbox.stomped_eq_some.mp h
      obtain rfl := held.eq_of_refers ⟨i, here, .inl pending⟩ sender
      obtain ⟨c', inHand, sender'⟩ := held.hand i here
      refine still (.stomped q e i.inHand) ?_ (inHand ▸ ⟨sender, sender'⟩)
      simp [Inbox.onArrival, Option.mem_def.mp h]
    · rintro rfl j ⟨⟩
      exact held.hand i here
  | @take q i c here pending =>
    -- the consumer takes a delivery of the same sender again, which supersedes nothing
    have kept : q = p → c.sender = d.sender := by
      rintro rfl
      have stays := holds _ (List.mem_singleton_self _)
      simpa [Event.LetsGo] using stays
    refine held.changed anchored rfl rfl (fun e h sender => ?_) ?_
    · obtain ⟨inHand, other⟩ := Inbox.superseded_eq_some.mp h
      have here' := held.eq_of_refers ⟨i, here, .inr inHand⟩ sender
      exact other (sender.trans (kept here').symm)
    · rintro same j ⟨⟩
      exact ⟨c, rfl, kept same⟩
  | @release q i c here given =>
    -- it is another consumer that is done, and nobody else refers to the sender
    have other : q ≠ p := by
      rintro rfl
      exact holds _ (List.mem_singleton_self _) rfl
    refine held.changed anchored rfl rfl (fun e h sender => ?_) fun same => absurd same other
    exact other (held.eq_of_refers ⟨i, here, Inbox.refers_of_released h⟩ sender)

/-- So it is along a chain of steps. -/
theorem Held.path (quiet : ∀ v a, r.claim v a → v.Quiet a) (path : Path l r v story u)
    (ledger : Ledger l d.sender before v) (steady : Story.Steady l d.sender (before ++ story))
    (held : v.Held p d left) (holds : ∀ event ∈ story, ¬ event.LetsGo p d.sender)
    (unclaimed : .attached p ∉ story ∧ .attached d.sender ∉ story) : u.Held p d left := by
  induction path generalizing before with
  | nil => exact held
  | cons step _ ih =>
    simp only [List.mem_append, not_or] at holds unclaimed
    rw [← List.append_assoc] at steady
    have held := held.step quiet ledger steady.of_append step (fun event h => holds event (.inl h))
      ⟨unclaimed.1.1, unclaimed.2.1⟩
    exact ih (ledger.step step) steady held (fun event h => holds event (.inr h))
      ⟨unclaimed.1.2, unclaimed.2.2⟩

end View

/-! ### Interrupts while a delivery is in hand -/

/-- Of the peer one delivery is in hand, and another one is pending. -/
def Inbox.Doubled (i : Inbox) (a : PeerId) : Prop :=
  ∃ q h, i.pending = some q ∧ i.inHand = some h ∧ q.sender = a ∧ h.sender = a ∧
    q.generation ≠ h.generation

/-- The pending delivery of a doubled inbox is displaced by an interrupt, although its sender is
    in hand. -/
theorem Inbox.Doubled.stomped {i : Inbox} {a : PeerId} (doubled : i.Doubled a) :
    ∃ q h, i.stomped = some q ∧ i.inHand = some h ∧ q.sender = a ∧ h.sender = a := by
  obtain ⟨q, h, pending, inHand, sender, sender', other⟩ := doubled
  have free : ¬ i.Holds q := by simpa [Holds, inHand] using Ne.symm other
  exact ⟨q, h, stomped_eq_some.mpr ⟨pending, free⟩, inHand, sender, sender'⟩

/-- An inbox whose displaced delivery is of the sender in hand is doubled. -/
theorem Inbox.doubled_of_stomped {i : Inbox} {q h : Delivery} (given : i.stomped = some q)
    (inHand : i.inHand = some h) (same : q.sender = h.sender) : i.Doubled h.sender := by
  obtain ⟨pending, free⟩ := stomped_eq_some.mp given
  exact ⟨q, h, pending, inHand, same, rfl, fun same' => free (by simp [Holds, inHand, same'])⟩

namespace View

variable {l : Layout} {v w : View} {p a b : PeerId} {d : Delivery} {left : Staged} {i : Inbox}
  {receipt : Receipt}

/-- A peer with a slot has a message staged that endpoints do not answer by themselves. -/
structure Offers (l : Layout) (v : View) (b : PeerId) : Prop where
  owner : l.HasSlot b.toUInt64
  busy : (v.staged b).len ≠ 0
  plain : ¬ Link.IsRequest (v.staged b).message

/-- An interrupt of another peer with a message empties the slot of a delivery in hand if another
    one of that sender is pending. -/
theorem Held.lost (held : v.Held p d left) (here : v.inbox p = some i)
    (handles : v.Handles l p i b receipt w) (doubled : i.Doubled d.sender) (other : b ≠ d.sender)
    (offers : v.Offers l b) : (w.staged d.sender).len = 0 ∧
      ∃ event ∈ receipt.events i p, event.Displaces d.sender := by
  obtain ⟨q, h, given, inHand, sender, sender'⟩ := doubled.stomped
  have pending := (Inbox.stomped_eq_some.mp given).1
  -- with another delivery of the sender pending, only an installation stomps it, and its slot is
  -- freed for a length that is also that of the delivery in hand
  cases handles with
  | slotless nowhere => exact absurd offers.owner nowhere
  | spurious idle => exact absurd idle offers.busy
  | answered busy request => exact absurd request offers.plain
  | waiting busy plain stale =>
    rw [Inbox.fresh?_eq_none, pending] at stale
    exact absurd ((Option.some.inj stale).symm.trans sender) other
  | installed =>
    have len := (held.anchored p q ⟨i, here, .inl pending⟩ sender).len
    refine ⟨?_, .stomped p q (some h), ?_, sender, sender'⟩
    · rw [View.install, given, ← sender, staged_giveUp_self, staged_setInbox, sender, len]
      exact Staged.len_clear_self
    · simp [Receipt.events, Inbox.onArrival, given, inHand]

/-- Every other interrupt leaves the slot of a delivery in hand as it is. -/
theorem Held.kept (held : v.Held p d left) (here : v.inbox p = some i)
    (handles : v.Handles l p i b receipt w)
    (single : ¬ (i.Doubled d.sender ∧ b ≠ d.sender ∧ v.Offers l b)) :
    w.staged d.sender = v.staged d.sender ∧
      ∀ event ∈ receipt.events i p, ¬ event.Displaces d.sender := by
  cases handles with
  | slotless | spurious | waiting => exact ⟨rfl, by simp [Receipt.events]⟩
  | @answered answer result w busy request sends =>
    have other : d.sender ≠ b := by
      rintro rfl
      exact held.current.plain (held.staged ▸ request)
    have cleared : (v.clear b (v.staged b).len).staged d.sender = v.staged d.sender :=
      staged_clear_of_ne v other _
    cases sends with
    | refused => exact ⟨cleared, by simp [Receipt.events, Sent.events]⟩
    | posted admits =>
      -- the endpoint cannot answer while its own message is in hand
      have away : d.sender ≠ p := by
        rintro rfl
        have idle := admits.idle
        rw [cleared, held.staged] at idle
        exact held.current.busy idle
      refine ⟨(staged_setStaged_of_ne _ away _).trans cleared, ?_⟩
      simp [Receipt.events, Sent.events, Event.Displaces]
  | @installed c owner busy plain fresh =>
    -- one of the sender would be given up only if two of them were about
    have others : ∀ q ∈ i.stomped, q.sender ≠ d.sender := by
      intro q given sender
      obtain ⟨h, inHand, sender'⟩ := held.hand i here
      have doubled := Inbox.doubled_of_stomped given inHand (sender.trans sender'.symm)
      refine single ⟨sender' ▸ doubled, ?_, owner, busy, plain⟩
      rintro rfl
      refine (Inbox.fresh?_eq_some.mp fresh).1 ?_
      rw [(Inbox.stomped_eq_some.mp given).1, Option.map_some, sender]
    refine ⟨?_, fun event told displaces => ?_⟩
    · rw [View.install, staged_giveUp_of_ne _ others, staged_setInbox]
    · rcases List.mem_cons.mp told with rfl | told
      · exact displaces
      · obtain ⟨q, given, rfl⟩ := Option.map_eq_some_iff.mp (Option.mem_toList.mp told)
        rcases inHand : i.inHand with _ | h <;> rw [inHand] at displaces
        · exact displaces
        · exact others q given displaces.1

end View

/-! ### Runs -/

namespace Network

variable {storage : Storage} {l : Layout} {b : Mailbox} {net : Network}

/-- An interrupt of a vector at a peer is that of a message of a third peer, while one delivery of a
    sender is in hand and another one is pending. -/
def Displaces (net : Network) (p a : PeerId) (vector : UInt32) : Prop :=
  ∃ e q, net.endpoint? p = some e ∧ e.vectors.peerFor vector = some q ∧
    e.inbox.Doubled a ∧ q ≠ a ∧ net.view.Offers net.layout q

/-- The slot of a delivery that was handed out at a peer is guarded. -/
structure Guards (net : Network) (p : PeerId) (incoming : Incoming) : Prop where
  /-- It is busy with the length that was handed out. -/
  busy : incoming.len ≠ 0 ∧ (net.staged incoming.sender).len.toNat = incoming.len
  /-- An interrupt that does not displace another delivery of the sender leaves it as it is. -/
  kept : ∀ vector, ¬ net.Displaces p incoming.sender vector →
    (net.perform .queue (.interrupt p vector)).2.staged incoming.sender =
      net.staged incoming.sender
  /-- One that does empties it. -/
  lost : ∀ vector, net.Displaces p incoming.sender vector →
    ((net.perform .queue (.interrupt p vector)).2.staged incoming.sender).len = 0
  /-- That is what the story of the interrupt tells. -/
  told : ∀ vector, net.Displaces p incoming.sender vector ↔
    ∃ event ∈ net.events (.interrupt p vector), event.Displaces incoming.sender

/-- After a steady run in which no peer attaches twice, whoever refers to a peer refers to what that
    has staged for it. -/
theorem anchored_of_run (created : Mailbox.create storage l = .ok b) {actions : List Action}
    (once : ((ofMailbox b).story actions).Once) {a : PeerId}
    (steady : ((ofMailbox b).story actions).Steady l a) :
    ((ofMailbox b).run .queue actions).view.Anchored a := by
  obtain ⟨-, path⟩ := path_of_once True created (fun _ _ => .inl trivial) once
  have untouched := untouched_of_create created a
  have invariant := path.invariant []
    (I := fun story v => View.Ledger l a story v ∧ (story.Steady l a → v.Anchored a)) ?_
    ⟨fun busy => absurd untouched.idle busy, fun _ => untouched.toQuiet.owned.anchored⟩
  · exact invariant.2 steady
  · rintro before story v u step ⟨ledger, anchored⟩
    exact ⟨ledger.step step, fun steady =>
      (anchored steady.of_append).step (fun _ => View.Untouched.toQuiet) ledger steady step⟩

/-- A wait that ends with a delivery has taken the pending one in hand. -/
theorem WellFormed.exists_of_received {stray : Prop} (wf : WellFormed l stray net) {p : PeerId}
    {patience : Patience} {incoming : Incoming}
    (received : (net.perform .queue (.await p patience)).1 = .received (.ok incoming)) :
    ∃ i d, incoming = ⟨d.sender, l.slotAt d.sender, d.len.toNat⟩ ∧
      (net.perform .queue (.await p patience)).2.view = net.view.handOut p i d := by
  simp only [Network.perform, Network.actAs] at received ⊢
  rcases he : net.endpoint? p with _ | e
  · rw [he] at received
    cases received
  · simp only [he] at received ⊢
    rcases pending : e.inbox.pending with _ | d
    · rw [await_of_none pending] at received
      cases received
    · obtain ⟨-, ok, shown⟩ := wf.await he pending patience
      rw [ok] at received
      cases received
      exact ⟨e.inbox, d, rfl, shown⟩

/-- What it has taken is held, if whoever refers to its sender refers to what that has staged. -/
theorem WellFormed.held_of_received {stray : Prop} (wf : WellFormed l stray net) {p : PeerId}
    {patience : Patience} {incoming : Incoming} {after : Network}
    (reached : (net.perform .queue (.await p patience)).2 = after)
    (received : (net.perform .queue (.await p patience)).1 = .received (.ok incoming)) :
    ∃ d, incoming = ⟨d.sender, l.slotAt d.sender, d.len.toNat⟩ ∧ after.view.inbox p ≠ none ∧
      (after.view.Anchored d.sender → after.view.Held p d (after.view.staged d.sender)) := by
  obtain ⟨i, d, rfl, shown⟩ := wf.exists_of_received received
  rw [reached] at shown
  -- what the wait has returned is in hand now
  have here : after.view.inbox p = some (i.handOut d).1 := by
    rw [shown]
    simp [View.handOut]
  refine ⟨d, rfl, here ▸ Option.some_ne_none _, fun anchored => ?_⟩
  exact
    { current := anchored p d ⟨_, here, .inr rfl⟩ rfl
      anchored := anchored
      staged := rfl
      hand := fun j there => by
        rw [here] at there
        cases there
        exact ⟨d, rfl, rfl⟩ }

/-- What a consumer takes in hand is held until the consumer lets go of it. -/
theorem held_of_await (created : Mailbox.create storage l = .ok b) {before after : List Action}
    {p : PeerId} {patience : Patience}
    (once : ((ofMailbox b).story ((before ++ [.await p patience]) ++ after)).Once)
    {incoming : Incoming}
    (received : (((ofMailbox b).run .queue before).perform .queue (.await p patience)).1 =
      .received (.ok incoming))
    (holds : ∀ event ∈ ((ofMailbox b).run .queue (before ++ [.await p patience])).story after,
      ¬ event.LetsGo p incoming.sender)
    (steady : ((ofMailbox b).story ((before ++ [.await p patience]) ++ after)).Steady l
      incoming.sender) :
    ∃ d left, incoming = ⟨d.sender, l.slotAt d.sender, d.len.toNat⟩ ∧
      ((ofMailbox b).run .queue ((before ++ [.await p patience]) ++ after)).view.Held p d left := by
  have untouched := untouched_of_create created
  have wf : WellFormed l True (ofMailbox b) := wellFormed_of_create created
  have abides := wf.abides_of_once untouched (fun _ _ => .inl trivial) once
  have early : ∀ first action rest, before = first ++ action :: rest →
      ((ofMailbox b).run .queue first).Abides ⟨True, View.Untouched⟩ action :=
    fun first action rest split =>
      abides first action (rest ++ [.await p patience] ++ after) (by simp [split])
  -- the run is taken apart at the wait: what comes before it, and what comes after it
  obtain ⟨wf₀, -⟩ := wf.run early
  obtain ⟨-, path⟩ := WellFormed.run_from (r := ⟨True, View.Untouched⟩) wf abides
  rw [story_append] at once steady
  obtain ⟨-, path'⟩ := path_of_once True created (fun _ _ => .inl trivial) once.of_append
  have reached : (((ofMailbox b).run .queue before).perform .queue (.await p patience)).2 =
      (ofMailbox b).run .queue (before ++ [.await p patience]) := by
    rw [run_append, run_cons, run_nil]
  obtain ⟨d, rfl, here, start⟩ := wf₀.held_of_received reached received
  have held := start (anchored_of_run created once.of_append steady.of_append)
  have ledger := path'.invariant [] (I := fun story v => View.Ledger l d.sender story v)
    (fun step ledger => ledger.step step) fun busy => absurd (untouched d.sender).idle busy
  -- whoever is about by then has attached, and does not attach again
  have claimed : ∀ q,
      ¬ ((ofMailbox b).run .queue (before ++ [.await p patience])).view.Untouched q →
      .attached q ∉ ((ofMailbox b).run .queue (before ++ [.await p patience])).story after := by
    intro q touched again
    exact touched (untouched_of_path path' (untouched q) (once.not_mem again))
  exact ⟨d, _, rfl, held.path (fun _ _ => View.Untouched.toQuiet) path ledger steady holds
    ⟨claimed p fun h => here h.absent,
      claimed d.sender fun h => held.current.busy (held.staged ▸ h.idle)⟩⟩

/-- Without an endpoint there is no interrupt. -/
theorem perform_interrupt_of_none {p : PeerId} (he : net.endpoint? p = none) (vector : UInt32) :
    net.perform .queue (.interrupt p vector) = (.absent, net) := by
  simp only [Network.perform, Network.actAs, he]

/-- An interrupt is that of the endpoint. -/
theorem perform_interrupt {p : PeerId} {e : Endpoint} (he : net.endpoint? p = some e)
    (vector : UInt32) : net.perform .queue (.interrupt p vector) =
      (.interrupted (net.interrupt .queue [] e vector).1,
        (net.interrupt .queue [] e vector).2) := by
  simp only [Network.perform, Network.actAs, he]

/-- While a delivery is held, an interrupt either displaces another one of its sender and empties
    the slot, or does neither. -/
theorem WellFormed.displaces_or {stray : Prop} (wf : WellFormed l stray net) {p : PeerId}
    {d : Delivery} {left : Staged} (held : net.view.Held p d left) (vector : UInt32) :
    (net.Displaces p d.sender vector ∧
        ((net.perform .queue (.interrupt p vector)).2.view.staged d.sender).len = 0 ∧
        ∃ event ∈ net.events (.interrupt p vector), event.Displaces d.sender) ∨
      (¬ net.Displaces p d.sender vector ∧
        (net.perform .queue (.interrupt p vector)).2.view.staged d.sender =
          net.view.staged d.sender ∧
        ∀ event ∈ net.events (.interrupt p vector), ¬ event.Displaces d.sender) := by
  rw [events]
  -- without an endpoint, or with a vector of nobody, nothing happens at all
  rcases he : net.endpoint? p with _ | e
  · rw [perform_interrupt_of_none he]
    refine .inr ⟨?_, rfl, by simp [tell]⟩
    rintro ⟨e, q, there, -⟩
    rw [he] at there
    cases there
  · have here := inbox?_of_endpoint? he
    rw [perform_interrupt he]
    simp only [tell, onInbox_eq here]
    rcases known : e.vectors.peerFor vector with _ | q
    · obtain ⟨-, handling, unseen⟩ := wf.interrupt_foreign (e := e) [] known
      rw [handling, unseen]
      refine .inr ⟨?_, rfl, by simp [Handling.events]⟩
      rintro ⟨e', q, there, known', -⟩
      obtain rfl := Option.some.inj (he.symm.trans there)
      rw [known] at known'
      cases known'
    · obtain ⟨-, receipt, handling, handles⟩ := wf.interrupt he [] known
      rw [handling]
      by_cases displaces : e.inbox.Doubled d.sender ∧ q ≠ d.sender ∧ net.view.Offers l q
      · obtain ⟨doubled, other, offers⟩ := displaces
        exact .inl ⟨⟨e, q, he, known, doubled, other, wf.layout.symm ▸ offers⟩,
          held.lost here handles doubled other offers⟩
      · refine .inr ⟨?_, held.kept here handles displaces⟩
        rintro ⟨e', q', there, known', doubled, other, offers⟩
        obtain rfl := Option.some.inj (he.symm.trans there)
        obtain rfl := Option.some.inj (known.symm.trans known')
        exact displaces ⟨doubled, other, wf.layout ▸ offers⟩

/-- A network in which a delivery is held guards its slot. -/
theorem WellFormed.guards {stray : Prop} (wf : WellFormed l stray net) {p : PeerId} {d : Delivery}
    {left : Staged} (held : net.view.Held p d left) :
    net.Guards p ⟨d.sender, l.slotAt d.sender, d.len.toNat⟩ := by
  have staged : net.staged d.sender = left := held.staged
  have busy : d.len.toNat ≠ 0 := by
    rw [held.current.len]
    exact fun zero => held.current.busy (UInt64.toNat_inj.mp zero)
  -- an interrupt displaces the delivery, or it leaves the slot as it is and tells nothing
  refine ⟨⟨busy, ?_⟩, fun vector single => ?_, fun vector displaces => ?_, fun vector => ?_⟩
  · rw [staged, held.current.len]
  · obtain ⟨displaces, -⟩ | ⟨-, kept, -⟩ := wf.displaces_or held vector
    · exact absurd displaces single
    · exact kept
  · obtain ⟨-, lost, -⟩ | ⟨single, -⟩ := wf.displaces_or held vector
    · exact lost
    · exact absurd displaces single
  · obtain ⟨displaces, -, told⟩ | ⟨single, -, silent⟩ := wf.displaces_or held vector
    · exact iff_of_true displaces told
    · exact iff_of_false single fun ⟨event, told, displaces⟩ => silent event told displaces

/-- **A delivery in hand.** In every run from a new mailbox in which no peer attaches twice, with
    whatever rings and vector tables: a delivery that a wait has returned stays staged until the
    consumer lets go of it, if the story is steady as far as its sender is concerned. Interrupts may
    empty its slot only by making the story unsteady. -/
theorem guards_of_run (created : Mailbox.create storage l = .ok b) {before after : List Action}
    {p : PeerId} {patience : Patience}
    (once : ((ofMailbox b).story ((before ++ [.await p patience]) ++ after)).Once)
    {incoming : Incoming}
    (received : (((ofMailbox b).run .queue before).perform .queue (.await p patience)).1 =
      .received (.ok incoming))
    (holds : ∀ event ∈ ((ofMailbox b).run .queue (before ++ [.await p patience])).story after,
      ¬ event.LetsGo p incoming.sender)
    (steady : ((ofMailbox b).story ((before ++ [.await p patience]) ++ after)).Steady l
      incoming.sender) :
    ((ofMailbox b).run .queue ((before ++ [.await p patience]) ++ after)).Guards p incoming := by
  obtain ⟨wf, -⟩ := path_of_once True created (fun _ _ => .inl trivial) once
  obtain ⟨d, left, rfl, held⟩ := held_of_await created once received holds steady
  exact wf.guards held

/-- Peer 3 has a message of peer 1 in hand while one of peer 2 arrives, and peer 1 rings again. -/
theorem guards_of_run_small : ((ofMailbox smallMailbox).run .queue
    (([join 1, join 2, join 3, hail 1 3, .deliver 0] ++ [.await 3 .none]) ++
      [hail 2 3, .deliver 0, .raise (.new 1 3), hail 2 3])).Guards 3 ⟨1, ⟨256, 128⟩, 1⟩ :=
  guards_of_run (b := smallMailbox) (l := smallLayout) create_small
    (by decide +kernel) (by decide +kernel) (by decide +kernel)
    ⟨by decide +kernel, by decide +kernel⟩

/-- When peer 2 rings after that, the slot of peer 1 is emptied, though its message is still in
    hand. -/
theorem not_guarded_small :
    let net := (ofMailbox smallMailbox).run .queue
      [join 1, join 2, join 3, hail 1 3, .deliver 0, .await 3 .none, hail 2 3, .deliver 0,
        .raise (.new 1 3), hail 2 3]
    let after := (net.perform .queue (.interrupt 3 2)).2
    ((net.inbox? 3).bind Inbox.inHand = some ⟨1, 1, 1⟩ ∧ (net.staged 1).len = 1) ∧
      ((after.inbox? 3).bind Inbox.inHand = some ⟨1, 1, 1⟩ ∧ (after.staged 1).len = 0) := by
  decide +kernel

end Network

end SharedMailbox
