import SharedMailbox.Proofs.Frames

namespace SharedMailbox

/-!
# A frame is read as a whole or not at all

A read that finds a delivery pending gives its frame if the buffer has room for it. Otherwise the
delivery waits: the slot of its sender stays as it is, and so does the delivery, until something
else arrives at the peer or its consumer lets go, so that a later read gives the same frame.

* `frameOf`: the frame of a message; `Network.frame_of_current`: it is what a read gives.
* `View.Introduced`: who has anything about has attached; `Network.stamped_of_refers`: the slot of
  the sender of a delivery is stamped.
* `View.Waits`: a delivery is pending, and its slot as it was; `View.Waits.path`: it keeps waiting.
* `Network.ReadsExactly`: what a read of a delivery comes to; `Network.ReadsWhole`,
  `Network.readsWhole_of_run`: what reads come to after a run.
-/

/-- The frame of a message of a peer: the first component id of the peer and the subnet in decimal,
    and the message. -/
def frameOf (a : PeerId) (message : List UInt8) : List UInt8 :=
  Utf8.encode (Numeral.decimal (100 * a.toNat) ++ ",27:") ++ message

/-- The address of a sender in front of a frame is its first component id and the default subnet. -/
theorem encode_address (a : PeerId) : Utf8.encode (addressText a) ++ [Request.colon] =
    Utf8.encode (Numeral.decimal (100 * a.toNat) ++ ",27:") := by
  have subnet : Utf8.encode ("," ++ Numeral.decimal subnetWord.toNat) ++ [Request.colon] =
      Utf8.encode ",27:" := by decide +kernel
  rw [addressText, toNat_firstCid, cidsPerPeer, Nat.mul_comm, String.append_assoc,
    Utf8.encode_append, List.append_assoc, subnet, ← Utf8.encode_append]

/-! ### Who has attached -/

/-- Who attached early in a story in which nobody attaches twice does not attach later. -/
theorem Story.Once.not_later {story : Story} (once : story.Once) {a : PeerId} {k : Nat}
    (early : .attached a ∈ story.take k) (i : Nat) (later : k ≤ i) :
    story[i]? ≠ some (.attached a) := by
  intro told
  have now : .attached a ∈ story.drop i := by
    refine List.mem_of_getElem? (i := 0) ?_
    rw [List.getElem?_drop]
    exact told
  have whole : Story.Once (story.take i ++ story.drop i) := by rwa [List.take_append_drop]
  exact whole.not_mem now ((List.take_prefix_take_left later).subset early)

namespace View

variable {l : Layout} {r : Rules} {v u : View} {p : PeerId} {d : Delivery} {left : Staged}
  {before story : Story}

/-- Who has not attached is untouched, and nothing was installed of it. -/
structure Introduced (story : Story) (v : View) : Prop where
  untouched : ∀ a, .attached a ∉ story → v.Untouched a
  senders : story.Arrivals fun before _ d => .attached d.sender ∈ before

/-- A step introduces nobody who has not attached. -/
theorem Introduced.step (introduced : Introduced before v) (step : Step l r v story u) :
    Introduced (before ++ story) u where
  untouched a never := by
    rw [List.mem_append, not_or] at never
    exact (introduced.untouched a never.1).step step never.2
  senders := by
    cases step with
    | occupy | forget | post | lose | answer | take | release =>
      exact introduced.senders.append (by simp)
    | @install q b w i c arrival here busy plain fresh =>
      -- a peer with a busy slot has attached
      obtain rfl := (Inbox.fresh?_eq_some.mp fresh).2
      refine introduced.senders.arrival i ?_
      by_contra never
      exact busy (introduced.untouched b never).idle

/-! ### What waits -/

/-- As long as a peer has an inbox, this delivery is pending there, and what its sender has staged
    is as it was. -/
def Waits (p : PeerId) (d : Delivery) (left : Staged) (v : View) : Prop :=
  ∀ i, v.inbox p = some i → i.pending = some d ∧ v.staged d.sender = left

/-- A delivery keeps waiting until another one arrives or the consumer lets go, if neither the peer
    nor the sender attaches anew. -/
theorem Waits.step (calm : ¬ r.stray) (owned : v.Owned d.sender) (waits : v.Waits p d left)
    (step : Step l r v story u) (nothing : ∀ c, .installed p c ∉ story)
    (holds : ∀ c, .released p c ∉ story)
    (unclaimed : .attached p ∉ story ∧ .attached d.sender ∉ story) : u.Waits p d left := by
  -- nobody but the peer refers to the sender
  have foreign : ∀ {q i c}, v.inbox p ≠ none → p ≠ q → v.inbox q = some i → i.Refers c →
      c.sender ≠ d.sender := by
    intro q i c here other there refers sender
    obtain ⟨j, here⟩ := Option.ne_none_iff_exists'.mp here
    exact other (owned.eq_of_refers ⟨j, here, .inl (waits j here).1⟩ rfl ⟨i, there, refers⟩ sender)
  intro j there
  cases step with
  | @occupy q claim =>
    obtain ⟨other, another⟩ : p ≠ q ∧ d.sender ≠ q := by simpa using unclaimed
    rw [View.occupy, inbox_setInbox_of_ne _ other] at there
    obtain ⟨pending, staged⟩ := waits j there
    exact ⟨pending, (staged_setStaged_of_ne v another _).trans staged⟩
  | forget q =>
    by_cases same : p = q
    · rw [same, inbox_setInbox_self] at there
      cases there
    · rw [inbox_setInbox_of_ne v same] at there
      exact waits j there
  | @post s target here admits =>
    obtain ⟨pending, staged⟩ := waits j there
    -- the sender cannot send while its slot is busy
    have other : d.sender ≠ s.origin := by
      intro same
      exact ((owned.sound p j there).refs d (.inl pending) rfl).busy (same ▸ admits.idle)
    exact ⟨pending, (staged_setStaged_of_ne v other _).trans staged⟩
  | lose place => exact waits j there
  | @answer q b w arrival busy request =>
    rw [inbox_clear, arrival.inbox_eq] at there
    obtain ⟨pending, staged⟩ := waits j there
    have other : d.sender ≠ b := by
      rintro rfl
      obtain ⟨ring, way, origin⟩ := arrival.exists_ring calm
      exact owned.no_ring ⟨j, there, .inl pending⟩ rfl ring way origin
    rw [staged_clear_of_ne w other, arrival.staged_eq]
    exact ⟨pending, staged⟩
  | @install q b w i c arrival here busy plain fresh =>
    have other : p ≠ q := by
      rintro rfl
      exact nothing c List.mem_cons_self
    rw [View.install, inbox_giveUp, inbox_setInbox_of_ne _ other, arrival.inbox_eq] at there
    obtain ⟨pending, staged⟩ := waits j there
    rw [View.install, staged_giveUp_of_ne, staged_setInbox, arrival.staged_eq]
    · exact ⟨pending, staged⟩
    · exact fun e given => foreign (by simp [there]) other here
        (.inl (Inbox.stomped_eq_some.mp given).1)
  | @take q i c here pending' =>
    rw [handOut, staged_giveUp_of_ne, staged_setInbox]
    · rw [handOut, inbox_giveUp] at there
      by_cases same : p = q
      · subst same
        rw [inbox_setInbox_self] at there
        cases there
        exact waits i here
      · rw [inbox_setInbox_of_ne v same] at there
        exact waits j there
    · intro e given
      obtain ⟨held, other⟩ := Inbox.superseded_eq_some.mp given
      by_cases same : p = q
      · subst same
        cases pending'.symm.trans (waits i here).1
        exact other
      · rw [handOut, inbox_giveUp, inbox_setInbox_of_ne v same] at there
        exact foreign (by simp [there]) same here (.inr held)
  | @release q i c here given =>
    have other : p ≠ q := by
      rintro rfl
      exact holds c (List.mem_singleton_self _)
    rw [View.release, inbox_giveUp, inbox_setInbox_of_ne v other] at there
    rw [View.release, staged_giveUp_of_ne, staged_setInbox]
    · exact waits j there
    · exact fun e gave => foreign (by simp [there]) other here (Inbox.refers_of_released gave)

/-- So it is along a chain of steps. -/
theorem Waits.path (valid : l.Valid) (calm : ¬ r.stray) (quiet : ∀ v a, r.claim v a → v.Quiet a)
    (path : Path l r v story u) (owned : v.Owned d.sender) (waits : v.Waits p d left)
    (nothing : ∀ c, .installed p c ∉ story) (holds : ∀ c, .released p c ∉ story)
    (unclaimed : .attached p ∉ story ∧ .attached d.sender ∉ story) : u.Waits p d left := by
  induction path with
  | nil => exact waits
  | cons step _ ih =>
    simp only [List.mem_append, not_or] at nothing holds unclaimed
    have waits := waits.step calm owned step (fun c => (nothing c).1) (fun c => (holds c).1)
      ⟨unclaimed.1.1, unclaimed.2.1⟩
    exact ih (owned.step valid calm (fun v => quiet v d.sender) step) waits
      (fun c => (nothing c).2) (fun c => (holds c).2) ⟨unclaimed.1.2, unclaimed.2.2⟩

end View

/-- What is staged in a slot is in its bytes. -/
theorem Slot.staged_of_bytes {s : Slot} {m n : Memory}
    (same : ∀ c, s.base ≤ c → c < s.limit → n.byte c = m.byte c) : s.staged n = s.staged m := by
  have within : ∀ a len, s.base ≤ a → a + len ≤ s.limit → n.bytes a len = m.bytes a len :=
    fun a len low high => Memory.bytes_congr fun c _ _ => same c (by omega) (by omega)
  have header := s.header_le_limit
  simp only [staged, busy, lastResponder, Memory.word]
  rw [within _ _ (by omega) (by omega), within _ _ (by omega) (by omega),
    within _ s.capacity (by omega) (Nat.le_refl _)]

namespace Network

variable {net : Network} {l : Layout} {stray : Prop} {p : PeerId} {e : Endpoint} {d : Delivery}

/-! ### One read -/

/-- The frame of a delivery of what is staged is that of the message that is staged. -/
theorem frame_of_current (current : d.Current p (net.staged d.sender)) :
    net.frame d = frameOf d.sender (net.staged d.sender).message := by
  rw [frame, encode_address, current.len]
  rfl

/-- What is given up of other peers leaves the slot of a peer as it is. -/
theorem byte_clearGivenUp (net : Network) (valid : l.Valid) (layout : e.layout = l) {a : PeerId}
    {o : Option Delivery} (others : ∀ q ∈ o, q.sender ≠ a) {c : Nat} (low : (l.slotAt a).base ≤ c)
    (high : c < (l.slotAt a).limit) :
    (net.clearGivenUp e o).memory.byte c = net.memory.byte c := by
  rcases o with _ | q
  · rfl
  · simp only [Network.clearGivenUp, clearSender, Endpoint.slotOf?, layout]
    rcases found : l.slot? q.sender.toUInt64 with _ | slot
    · rfl
    · obtain rfl := Layout.slot?_eq_some valid found
      have apart := Layout.slotAt_apart valid (others q rfl)
      have within := (l.slotAt q.sender).header_le_limit
      have cleared := (l.slotAt q.sender).sameOutside_clear net.memory q.len
      rw [memory_remember]
      exact cleared c (by omega)

/-- A wait leaves the slot of the sender whose delivery it takes in hand as it is. -/
theorem WellFormed.byte_await (wf : WellFormed l stray net) (he : net.endpoint? p = some e)
    (pending : e.inbox.pending = some d) (patience : Patience) {c : Nat}
    (low : (l.slotAt d.sender).base ≤ c) (high : c < (l.slotAt d.sender).limit) :
    (net.await e patience).2.memory.byte c = net.memory.byte c := by
  have others : ∀ q ∈ (e.inbox.handOut d).2, q.sender ≠ d.sender :=
    fun q given => (Inbox.superseded_eq_some.mp given).2
  have kept := byte_clearGivenUp (net.update e.peer fun e' =>
    { e' with inbox := (e.inbox.handOut d).1 }) wf.valid (wf.fits p e he).layout others low high
  simp only [Network.await, pending]
  split <;> exact kept

/-- What a read of the delivery that is pending at a peer comes to, if this is its frame. -/
structure ReadsExactly (net : Network) (l : Layout) (p : PeerId) (e : Endpoint) (d : Delivery)
    (frame buffer : List UInt8) : Prop where
  /-- It succeeds if and only if there is room for the frame, -/
  fits : ∀ total, (net.read e buffer).1 = .ok total ↔
    total = frame.length ∧ frame.length ≤ buffer.length
  /-- which then is at the front of the buffer, -/
  filled : frame.length ≤ buffer.length →
    (net.read e buffer).2.1 = frame ++ buffer.drop frame.length
  /-- and the sender may send again, and nothing is about at the peer. -/
  consumed : frame.length ≤ buffer.length →
    ((l.slotAt d.sender).busy (net.read e buffer).2.2.memory).IsIdle ∧
      ∃ i, (net.read e buffer).2.2.inbox? p = some i ∧ i.pending = none ∧ i.inHand = none
  /-- Otherwise the read fails, -/
  refused : buffer.length < frame.length →
    (net.read e buffer).1 = .error (.oversizedPayload frame.length buffer.length)
  /-- and the buffer, the delivery and the slot of its sender are as before. -/
  kept : buffer.length < frame.length → (net.read e buffer).2.1 = buffer ∧
    (∃ i, (net.read e buffer).2.2.inbox? p = some i ∧ i.pending = some d) ∧
    ∀ c, (l.slotAt d.sender).base ≤ c → c < (l.slotAt d.sender).limit →
      (net.read e buffer).2.2.memory.byte c = net.memory.byte c

/-- A framed read of a message that its sender still owns gives the exact frame, or is refused
    and changes nothing. -/
theorem WellFormed.readsExactly (wf : WellFormed l True net) (he : net.endpoint? p = some e)
    (pending : e.inbox.pending = some d) (owned : net.view.Owned d.sender)
    (stamped : l.Stamped d.sender net.memory) (short : d.len.toNat ≤ l.maxPayload)
    (buffer : List UInt8) :
    net.ReadsExactly l p e d (frameOf d.sender (net.staged d.sender).message) buffer := by
  have here := inbox?_of_endpoint? he
  have current := (owned.sound p e.inbox here).refs d (.inl pending) rfl
  have frame := frame_of_current current
  obtain ⟨wf', reads⟩ := wf.read he pending buffer
  have outcome := wf.read_frame he pending buffer stamped short
  rw [frame] at outcome
  generalize frameOf d.sender (net.staged d.sender).message = frame at outcome
  -- Either the buffer is too short and the read has only waited, or the frame fits and the
  -- delivery is released as well; the other half of the claims is empty in each case.
  rcases outcome with ⟨less, refused⟩ | ⟨room, ok, filled⟩
  · have shown : (net.read e buffer).2.2.view = net.view.handOut p e.inbox d := by
      rw [refused] at reads ⊢
      generalize (net.await e .none).2.view = u at reads ⊢
      cases reads
      rfl
    refine ⟨fun total => ?_, fun room => absurd less (Nat.not_lt.mpr room),
      fun room => absurd less (Nat.not_lt.mpr room), fun _ => ?_, fun _ => ⟨?_, ?_, ?_⟩⟩
    · rw [refused]
      simp only [reduceCtorEq, false_iff, not_and]
      exact fun _ => Nat.not_le.mpr less
    · rw [refused]
    · rw [refused]
    · refine ⟨(e.inbox.handOut d).1, ?_, pending⟩
      rw [← inbox_view, shown, View.handOut, View.inbox_giveUp, View.inbox_setInbox_self]
    · rw [refused]
      exact fun c low high => wf.byte_await he pending .none low high
  · have shown : (net.read e buffer).2.2.view =
        (net.view.handOut p e.inbox d).release p (e.inbox.handOut d).1 := by
      rw [ok] at reads
      generalize (net.read e buffer).2.2.view = u at reads ⊢
      cases reads
      rfl
    refine ⟨fun total => ?_, fun _ => filled, fun _ => ⟨?_, ?_⟩,
      fun less => absurd less (Nat.not_lt.mpr room), fun less => absurd less (Nat.not_lt.mpr room)⟩
    · rw [ok]
      simp only [Except.ok.injEq, room, and_true, eq_comm]
    · -- the message that is released is the one that was taken, so that its slot is freed
      have given : (e.inbox.handOut d).1.release.2 = some d := rfl
      have idle : ((net.read e buffer).2.2.view.staged d.sender).len = 0 := by
        rw [shown, View.release, given, View.staged_giveUp_self, View.staged_setInbox, View.handOut,
          View.staged_giveUp_of_ne, View.staged_setInbox, current.len]
        · exact Staged.len_clear_self
        · exact fun c superseded => (Inbox.superseded_eq_some.mp superseded).2
      rw [staged_view, Network.staged, wf'.layout] at idle
      exact idle
    · refine ⟨(e.inbox.handOut d).1.release.1, ?_, ?_, rfl⟩
      · rw [← inbox_view, shown, View.release, View.inbox_giveUp, View.inbox_setInbox_self]
      · simp [Inbox.release, Inbox.handOut, pending]

/-! ### Runs -/

variable {storage : Storage} {b : Mailbox} {actions : List Action}

/-- What is known of attaching after every run from a new mailbox. -/
theorem introduced_of_run (created : Mailbox.create storage l = .ok b) (actions : List Action) :
    View.Introduced ((ofMailbox b).story actions) ((ofMailbox b).run .queue actions).view := by
  have untouched := untouched_of_create created
  obtain ⟨-, path⟩ := path_of_run created actions
  exact path.invariant [] (I := View.Introduced) (fun step introduced => introduced.step step)
    ⟨fun a _ => untouched a, Story.arrivals_nil⟩

/-- In a run in which nobody attaches twice, the slot of the sender of a delivery is stamped. -/
theorem stamped_of_refers (created : Mailbox.create storage l = .ok b)
    (once : ((ofMailbox b).story actions).Once)
    (refers : ((ofMailbox b).run .queue actions).view.Refers p d) :
    l.Stamped d.sender ((ofMailbox b).run .queue actions).memory := by
  obtain ⟨-, recorded⟩ := recorded_of_run created actions
  obtain ⟨k, installed⟩ := List.mem_iff_getElem?.mp (recorded.installed p d refers)
  have early := Story.arrivals_iff.mp (introduced_of_run created actions).senders k p d installed
  exact (wellFormed_of_create created).stamped_of_story installed
    fun i later => once.not_later early i (Nat.le_of_lt later)

/-- What a read of the endpoint `e` of `p` comes to, if this is the story of the network. -/
structure ReadsWhole (net : Network) (l : Layout) (story : Story) (p : PeerId) (e : Endpoint)
    (buffer : List UInt8) : Prop where
  /-- A read would block if and only if the endpoint is not ready for reading, -/
  blocks : (net.read e buffer).1 = .error .wouldBlock ↔ (net.poll e).readable = false
  /-- and then nothing happens. -/
  nothing : (net.poll e).readable = false → net.read e buffer = (.error .wouldBlock, buffer, net)
  /-- Otherwise the last message of the sender is read, which was for this peer. -/
  delivery : ∀ d, e.inbox.pending = some d → ∃ s, story.latest? d.sender = some s ∧
    s.dest.resolve l = .ok p.toUInt64 ∧ (net.staged d.sender).message = s.message ∧
      net.ReadsExactly l p e d (frameOf d.sender s.message) buffer

/-- What is known of a delivery that is pending at a peer after an orderly run. -/
theorem delivery_of_run (created : Mailbox.create storage l = .ok b)
    (orderly : ∀ action ∈ actions, action.Orderly) (once : ((ofMailbox b).story actions).Once)
    (he : ((ofMailbox b).run .queue actions).endpoint? p = some e)
    (pending : e.inbox.pending = some d) (buffer : List UInt8) :
    ∃ s, ((ofMailbox b).story actions).latest? d.sender = some s ∧
      s.dest.resolve l = .ok p.toUInt64 ∧
      (((ofMailbox b).run .queue actions).staged d.sender).message = s.message ∧
      ((ofMailbox b).run .queue actions).ReadsExactly l p e d (frameOf d.sender s.message)
        buffer := by
  have wf := wellFormed_of_run created actions
  have account := account_of_run created orderly once
  have owned := account.owned d.sender
  have here := inbox?_of_endpoint? he
  have current := (owned.sound p e.inbox here).refs d (.inl pending) rfl
  obtain ⟨s, latest, staged⟩ := account.ledger d.sender current.busy
  have stamped := stamped_of_refers created once ⟨e.inbox, here, .inl pending⟩
  -- the length is that of a message that was sent, and those fit into a payload area
  have short : d.len.toNat ≤ l.maxPayload := by
    rw [current.len, staged.len]
    obtain ⟨j, sent⟩ := Story.exists_of_latest? latest
    exact ((lasting_of_run created actions).2 s (List.mem_of_getElem? sent.sent)).le
  have exactly := wf.readsExactly he pending owned stamped short buffer
  rw [← staged_view, staged.message] at exactly
  exact ⟨s, latest, current.dest ▸ staged.resolved, staged.message, exactly⟩

/-- After a run in which nobody attaches twice, whatever a peer reads is read whole. -/
theorem readsWhole (created : Mailbox.create storage l = .ok b)
    (orderly : ∀ action ∈ actions, action.Orderly) (once : ((ofMailbox b).story actions).Once)
    (he : ((ofMailbox b).run .queue actions).endpoint? p = some e) (buffer : List UInt8) :
    ((ofMailbox b).run .queue actions).ReadsWhole l ((ofMailbox b).story actions) p e buffer := by
  -- An endpoint is readable if and only if something is pending, which decides all three claims.
  rcases pending : e.inbox.pending with _ | d
  · have empty : (((ofMailbox b).run .queue actions).poll e).readable = false := by
      simp [poll, pending]
    have blocked : ((ofMailbox b).run .queue actions).read e buffer =
        (.error .wouldBlock, buffer, (ofMailbox b).run .queue actions) :=
      read_of_none pending buffer
    refine ⟨by simp only [blocked, empty], fun _ => blocked, fun d there => ?_⟩
    rw [pending] at there
    cases there
  · have ready : (((ofMailbox b).run .queue actions).poll e).readable = true := by
      simp [poll, pending]
    obtain ⟨s, latest, resolved, message, exactly⟩ :=
      delivery_of_run created orderly once he pending buffer
    refine ⟨?_, fun empty => absurd (ready.symm.trans empty) (by simp), fun c there => ?_⟩
    · -- a read of a delivery has another outcome
      simp only [ready, Bool.true_eq_false, iff_false]
      intro blocked
      by_cases room : (frameOf d.sender s.message).length ≤ buffer.length
      · rw [(exactly.fits _).mpr ⟨rfl, room⟩] at blocked
        cases blocked
      · rw [exactly.refused (Nat.lt_of_not_le room)] at blocked
        cases blocked
    · rw [pending] at there
      cases there
      exact ⟨s, latest, resolved, message, exactly⟩

/-! ### Reading again -/

/-- The network after a framed read of the endpoint of a peer. -/
theorem run_read {history : List Action}
    (he : ((ofMailbox b).run .queue history).endpoint? p = some e) (buffer : List UInt8) :
    (ofMailbox b).run .queue (history ++ [.read p buffer]) =
      (((ofMailbox b).run .queue history).read e buffer).2.2 := by
  rw [run_append, run_cons, run_nil]
  simp only [perform, actAs, he]

/-- After a read into a buffer that is too short its delivery waits, until another one arrives or
    the consumer lets go. -/
theorem waits_of_read (created : Mailbox.create storage l = .ok b) {history later : List Action}
    {buffer frame : List UInt8}
    (orderly : ∀ action ∈ history ++ [.read p buffer] ++ later, action.Orderly)
    (once : ((ofMailbox b).story (history ++ [.read p buffer] ++ later)).Once)
    (he : ((ofMailbox b).run .queue history).endpoint? p = some e)
    (exactly : ((ofMailbox b).run .queue history).ReadsExactly l p e d frame buffer)
    (short : buffer.length < frame.length)
    (undisturbed : ∀ event ∈ (((ofMailbox b).run .queue history).read e buffer).2.2.story later,
      ∀ c, event ≠ .installed p c ∧ event ≠ .released p c) :
    ((ofMailbox b).run .queue (history ++ [.read p buffer] ++ later)).view.Waits p d
      (((ofMailbox b).run .queue history).staged d.sender) := by
  have read := run_read he buffer
  rw [← read] at undisturbed
  have wf : WellFormed l False (ofMailbox b) := wellFormed_of_create created
  obtain ⟨wf', path⟩ := WellFormed.run_from (r := ⟨False, View.Untouched⟩) wf
    (wf.abides_of_once (untouched_of_create created)
      (fun action told => .inr (orderly action told)) once)
  rw [story_append] at once
  have owned := (account_of_run created (fun action told => orderly action
    (List.mem_append_left _ told)) once.of_append).owned d.sender
  obtain ⟨-, ⟨i, here, pending⟩, bytes⟩ := exactly.kept short
  rw [← read] at here bytes
  -- the delivery waits right after the read
  have waits : ((ofMailbox b).run .queue (history ++ [.read p buffer])).view.Waits p d
      (((ofMailbox b).run .queue history).staged d.sender) := by
    intro j there
    rw [inbox_view, here] at there
    cases there
    refine ⟨pending, ?_⟩
    rw [staged_view, Network.staged, Network.staged, wf'.layout,
      (wellFormed_of_run created history).layout]
    exact Slot.staged_of_bytes bytes
  -- neither the peer nor the sender attaches again
  have introduced := introduced_of_run created (history ++ [.read p buffer])
  have attached : .attached p ∈ (ofMailbox b).story (history ++ [.read p buffer]) ∧
      .attached d.sender ∈ (ofMailbox b).story (history ++ [.read p buffer]) := by
    constructor <;> by_contra never
    · have absent := (introduced.untouched p never).absent
      rw [inbox_view, here] at absent
      cases absent
    · exact (introduced.untouched d.sender never).refs p d ⟨i, here, .inl pending⟩ rfl
  exact waits.path wf.valid id (fun _ _ => View.Untouched.toQuiet) path owned
    (fun c told => (undisturbed _ told c).1 rfl) (fun c told => (undisturbed _ told c).2 rfl)
    ⟨fun now => once.not_mem now attached.1, fun now => once.not_mem now attached.2⟩

/-- **Reads.** After every run from a new mailbox in which nobody attaches twice, no vector table
    has repeats and no ring is raised that nobody sent: a read gives the frame of the delivery that
    is pending, as a whole, or it changes nothing that counts. After a read into a buffer that is
    too short, a later one gives the same frame, if nothing else has arrived at the peer and its
    consumer has not let go meanwhile. -/
theorem readsWhole_of_run (created : Mailbox.create storage l = .ok b) {history : List Action}
    (orderly : ∀ action ∈ history, action.Orderly) (once : ((ofMailbox b).story history).Once)
    (he : ((ofMailbox b).run .queue history).endpoint? p = some e) (buffer : List UInt8) :
    ((ofMailbox b).run .queue history).ReadsWhole l ((ofMailbox b).story history) p e buffer ∧
      ∀ d s, e.inbox.pending = some d →
        ((ofMailbox b).story history).latest? d.sender = some s →
        buffer.length < (frameOf d.sender s.message).length →
        ∀ later, (∀ action ∈ later, action.Orderly) →
          ((ofMailbox b).story (history ++ [.read p buffer] ++ later)).Once →
          (∀ event ∈ (((ofMailbox b).run .queue history).read e buffer).2.2.story later,
            ∀ c, event ≠ .installed p c ∧ event ≠ .released p c) →
          ∀ e', ((ofMailbox b).run .queue (history ++ [.read p buffer] ++ later)).endpoint? p =
              some e' →
            e'.inbox.pending = some d ∧ ∀ longer,
              ((ofMailbox b).run .queue (history ++ [.read p buffer] ++ later)).ReadsExactly l p
                e' d (frameOf d.sender s.message) longer := by
  refine ⟨readsWhole created orderly once he buffer, ?_⟩
  intro d s pending latest short later orderly' once' undisturbed e' he'
  obtain ⟨t, latest', -, message, exactly⟩ :=
    delivery_of_run created orderly once he pending buffer
  obtain rfl := Option.some.inj (latest.symm.trans latest')
  have orders : ∀ action ∈ history ++ [.read p buffer] ++ later, action.Orderly := by
    intro action told
    simp only [List.mem_append, List.mem_singleton] at told
    rcases told with (told | rfl) | told
    · exact orderly action told
    · exact trivial
    · exact orderly' action told
  have waits := waits_of_read created orders once' he exactly short undisturbed
  obtain ⟨pending', staged⟩ := waits e'.inbox (inbox?_of_endpoint? he')
  refine ⟨pending', fun longer => ?_⟩
  obtain ⟨t, -, -, message', again⟩ := delivery_of_run created orders once' he' pending' longer
  -- the slot of the sender holds the same message as before
  rw [staged_view] at staged
  rw [staged, message] at message'
  rwa [message']

/-- Peer 2 has a message of peer 1 pending. -/
def delivered : List Action := [join 1, join 2, hail 1 2, .deliver 0]

/-- Its frame does not fit into 7 bytes, and peer 2 waits for the message before it reads again. -/
def rereading : List Action := delivered ++ [.read 2 (List.replicate 7 0)] ++ [.await 2 .none]

/-- Peer 2 reads the frame of the message at its second attempt. -/
theorem readsWhole_of_run_small :
    ∃ e e', ((ofMailbox smallMailbox).run .queue delivered).endpoint? 2 = some e ∧
      ((ofMailbox smallMailbox).run .queue delivered).ReadsWhole smallLayout
        ((ofMailbox smallMailbox).story delivered) 2 e (List.replicate 7 0) ∧
      ((ofMailbox smallMailbox).run .queue rereading).endpoint? 2 = some e' ∧
      ((ofMailbox smallMailbox).run .queue rereading).ReadsExactly smallLayout 2 e' ⟨1, 1, 1⟩
        (frameOf 1 [1]) (List.replicate 8 0) := by
  obtain ⟨e, he, inbox⟩ := exists_of_inbox?
    (show ((ofMailbox smallMailbox).run .queue delivered).inbox? 2 = some ⟨some ⟨1, 1, 1⟩, none, 1⟩
      by decide +kernel)
  obtain ⟨e', he', -⟩ := exists_of_inbox?
    (show ((ofMailbox smallMailbox).run .queue rereading).inbox? 2 =
      some ⟨some ⟨1, 1, 1⟩, some ⟨1, 1, 1⟩, 1⟩ by decide +kernel)
  have orderly : ∀ action ∈ delivered, action.Orderly := by decide
  obtain ⟨reads, again⟩ := readsWhole_of_run create_small orderly (by decide +kernel) he
    (List.replicate 7 0)
  have quiet : (((ofMailbox smallMailbox).run .queue delivered).read e
      (List.replicate 7 0)).2.2.story [.await 2 .none] = [.taken 2 ⟨1, 1, 1⟩ none] := by
    rw [← run_read he]
    decide +kernel
  have later := again ⟨1, 1, 1⟩ ⟨1, .peer 2, [1]⟩ (by rw [inbox]) (by decide +kernel)
    (by decide +kernel) [.await 2 .none] (by decide) (by decide +kernel)
    (by rw [quiet]; simp) e' he'
  exact ⟨e, e', he, reads, he', later.2 _⟩

end Network

end SharedMailbox
