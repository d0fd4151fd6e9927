import SharedMailbox.Proofs.Delivery
import SharedMailbox.Proofs.LinkTexts
import SharedMailbox.Proofs.RequestGrammar
import SharedMailbox.Proofs.Stale
import SharedMailbox.Proofs.Stamps

namespace SharedMailbox

/-!
# Frames

A message that is read as a frame stands behind the address of its sender, so that the frame is a
request to the sender. The address is right as long as the sender does not claim its slot again, and
the message as long as the sender sends nothing else.

* `Request.parse_address`: a request in front of which the address of a peer stands goes to it.
* `View.Lasting`: a message stays in the slot of its sender.
* `Network.read_eq`: the frame that is read.
* `Network.frames_of_run`: what a frame says of the delivery it was read from.
-/

/-! ### Addresses -/

/-- The text of the address of a peer, before the colon. -/
def addressText (p : PeerId) : String :=
  Numeral.decimal (firstCid p).toNat ++ "," ++ Numeral.decimal subnetWord.toNat

/-- The first component id of a peer is a hundred times its number, which always fits. -/
theorem toNat_firstCid (p : PeerId) : (firstCid p).toNat = p.toNat * cidsPerPeer := by
  have := p.toNat_lt
  rw [firstCid, UInt64.toNat_ofNat', cidsPerPeer]
  omega

/-- The address of the sender of a delivery, if its slot is stamped. -/
theorem Incoming.address_of_stamped {l : Layout} {p : PeerId} {m : Memory}
    (stamped : l.Stamped p m) (len : Nat) :
    address ⟨p, l.slotAt p, len⟩ m = Utf8.encode (addressText p) ++ [Request.colon] := by
  unfold address peerCid peerSid
  rw [stamped.1, stamped.2, Utf8.encode_append]
  rfl

namespace Selector

variable {l : Layout} {p : PeerId}

/-- The text of an address is divided at its comma. -/
theorem toList_addressText (p : PeerId) : (addressText p).toList =
    (Numeral.decimal (firstCid p).toNat).toList ++
      ',' :: (Numeral.decimal subnetWord.toNat).toList := by
  simp [addressText]

/-- In a decimal text there are digits only. -/
theorem not_mem_decimal {c : Char} (other : c.toNat < 48 ∨ 57 < c.toNat) (n : Nat) :
    c ∉ (Numeral.decimal n).toList := by
  rw [Numeral.toList_decimal]
  intro h
  have code := Numeral.code_of_mem_toDigits h
  omega

/-- A number names the peer with this id. -/
theorem parse_decimal (l : Layout) {cid : Int32} {n : Nat} (value : cid.toInt = n) :
    parse l (Numeral.decimal n) = .ok (.component cid peerIdSid) :=
  parse_spelling (decimal_mem value)

/-- An address names the component of a peer. -/
theorem parse_addressText (l : Layout) (p : PeerId) : ∃ cid : Int32,
    cid.toInt = p.toNat * cidsPerPeer ∧
      parse l (addressText p) = .ok (.component cid defaultSid) := by
  have small := p.toNat_lt
  have cid : (Int32.ofNat (p.toNat * cidsPerPeer)).toInt = (firstCid p).toNat := by
    rw [toNat_firstCid, cidsPerPeer, Int32.toInt_ofNat_of_lt (by omega)]
  have sid : defaultSid.toInt = subnetWord.toNat := by decide
  refine ⟨_, cid.trans (by rw [toNat_firstCid]; rfl), parse_of_isSelector ?_⟩
  rw [toList_addressText]
  exact .address (integer_of_spelling (decimal_mem cid)) (integer_of_spelling (decimal_mem sid))

end Selector

/-- A request in front of which a selector stands goes to what the selector names. -/
theorem Request.parse_append {l : Layout} {selector : String} {dest : Destination}
    (plain : ':' ∉ selector.toList) (named : Selector.parse l selector = .ok dest)
    (body : List UInt8) :
    Request.parse l (Utf8.encode selector ++ [colon] ++ body) = .ok (dest, body) := by
  rw [List.append_assoc, List.singleton_append, parse_selector_append plain, named]
  rfl

/-- A request in front of which the address of a peer stands goes to the peer. -/
theorem Request.parse_address {l : Layout} (valid : l.Valid) {p : PeerId}
    (owner : l.HasSlot p.toUInt64) (body : List UInt8) : ∃ dest,
      Request.parse l (Utf8.encode (addressText p) ++ [colon] ++ body) = .ok (dest, body) ∧
      dest.resolve l = .ok p.toUInt64 := by
  obtain ⟨cid, first, named⟩ := Selector.parse_addressText l p
  have plain : ':' ∉ (addressText p).toList := by
    have digits : ∀ n, ':' ∉ (Numeral.decimal n).toList := Selector.not_mem_decimal (by decide)
    rw [Selector.toList_addressText]
    simp [digits]
  exact ⟨_, Request.parse_append plain named body,
    Destination.resolve_firstCid valid owner first⟩

/-! ### Messages that stay -/

namespace View

variable {l : Layout} {r : Rules} {v u : View} {a : PeerId} {before story : Story}

/-- The payload area of a peer stays unless the peer sends or claims its slot. -/
theorem Step.area (step : Step l r v story u) (silent : ∀ s, .sent s ∈ story → s.origin ≠ a)
    (unclaimed : .attached a ∉ story) : (u.staged a).area = (v.staged a).area := by
  -- giving up a delivery clears the length in a slot, which is outside the area
  have given : ∀ (w : View) (o : Option Delivery),
      ((w.giveUp o).staged a).area = (w.staged a).area := by
    intro w o
    cases o with
    | none => rfl
    | some d =>
      by_cases same : a = d.sender
      · subst same
        rw [staged_giveUp_self, Staged.area_clear]
      · rw [giveUp, staged_clear_of_ne w same]
  cases step with
  | @occupy p claim =>
    have other : a ≠ p := by
      rintro rfl
      exact unclaimed List.mem_cons_self
    rw [View.occupy, staged_setInbox, staged_setStaged_of_ne v other]
  | forget p => rfl
  | @post s target here admits =>
    have other := silent s List.mem_cons_self
    exact congrArg Staged.area (staged_setStaged_of_ne v (Ne.symm other) _)
  | lose place => rfl
  | @answer p b w arrival =>
    rw [← arrival.staged_eq]
    exact given w (some ⟨b, (w.staged b).len, 0⟩)
  | install arrival =>
    rw [← arrival.staged_eq, View.install, given, staged_setInbox]
  | take => rw [handOut, given, staged_setInbox]
  | release => rw [View.release, given, staged_setInbox]

/-- What is sent is shorter than the payload area. -/
theorem Step.short (step : Step l r v story u) {s : Sent} (told : .sent s ∈ story) :
    s.message.length < l.maxPayload := by
  cases step with
  | post here admits =>
    cases List.mem_singleton.mp told
    exact admits.short
  | install => exact absurd told Inbox.not_sent_of_onArrival
  | occupy | forget | lose | answer | take | release => simp at told

/-- As long as the sender of a delivery neither sends nor claims its slot, the message of the
    delivery is in the slot. -/
def Lasting (story : Story) (v : View) : Prop := ∀ (k : Nat) p d,
  story[k]? = some (Event.installed p d) →
  (∀ (i : Nat) t, k < i → story[i]? = some (Event.sent t) → t.origin ≠ d.sender) →
  (∀ i : Nat, k < i → story[i]? ≠ some (Event.attached d.sender)) →
  ∃ s, Story.latest? (story.take k) d.sender = some s ∧
    (v.staged d.sender).area.take d.len.toNat = s.message

/-- A step leaves the messages of deliveries in the slots of their senders. -/
theorem Lasting.step (ledger : ∀ a, Ledger l a before v) (lasting : v.Lasting before)
    (step : Step l r v story u) : u.Lasting (before ++ story) := by
  intro k p d told silent unclaimed
  -- The delivery was installed before this step, or it is the one that this step installs.
  by_cases early : k < before.length
  · -- nothing in this step touches the area
    have later : ∀ event, event ∈ story → ∃ i, k < i ∧ (before ++ story)[i]? = some event := by
      intro event h
      obtain ⟨i, there⟩ := List.mem_iff_getElem?.mp h
      refine ⟨before.length + i, by omega, ?_⟩
      rw [List.getElem?_append_right (Nat.le_add_right ..), Nat.add_sub_cancel_left, there]
    have kept := step.area (a := d.sender)
      (fun t h =>
        have ⟨i, behind, there⟩ := later _ h
        silent i t behind there)
      (fun h =>
        have ⟨i, behind, there⟩ := later _ h
        unclaimed i behind there)
    have sooner : ∀ {i : Nat} {event}, before[i]? = some event →
        (before ++ story)[i]? = some event := by
      intro i event there
      rw [List.getElem?_append_left (List.getElem?_eq_some_iff.mp there).1, there]
    rw [List.getElem?_append_left early] at told
    rw [List.take_append_of_le_length (Nat.le_of_lt early), kept]
    exact lasting k p d told (fun i t behind there => silent i t behind (sooner there))
      fun i behind there => unclaimed i behind (sooner there)
  · have now : .installed p d ∈ story := by
      rw [List.getElem?_append_right (Nat.le_of_not_lt early)] at told
      exact List.mem_of_getElem? told
    cases step with
    | occupy | forget | post | lose | answer | take | release => simp at now
    | @install q b w i c arrival here busy plain fresh =>
      rcases Story.installed_of_arrival told with ⟨-, sooner⟩ | ⟨rfl, rfl, rfl⟩
      · exact absurd sooner early
      · -- the delivery is of what is staged now, which is the last message of its sender
        have kept := (Step.install arrival here busy plain fresh).area (l := l) (a := b)
          (fun _ h => absurd h Inbox.not_sent_of_onArrival) (by simp [Inbox.onArrival])
        obtain ⟨s, latest, staged⟩ := ledger b busy
        rw [(Inbox.fresh?_eq_some.mp fresh).2] at kept ⊢
        rw [List.take_left, kept]
        exact ⟨s, latest, staged.message⟩

end View

/-! ### Frames -/

/-- The message of a delivery overwrites a buffer of its length. -/
theorem Incoming.copyOver_take {i : Incoming} {m : Memory} {buffer : List UInt8}
    (room : i.len ≤ buffer.length) (short : i.len ≤ i.slot.capacity) :
    i.copyOver m (buffer.take i.len) = (.ok i.len, i.payload m) := by
  have full : (buffer.take i.len).length = i.len := List.length_take_of_le room
  rw [copyOver, if_neg (by omega), List.take_take, Nat.min_self, Slot.copyOver, full,
    List.drop_eq_nil_of_le (full.trans_le short), List.append_nil,
    List.drop_eq_nil_of_le full.le, List.append_nil, payload]

/-- A frame that was read at a peer is that of a delivery, which was installed there at `k` the last
    time and is of the send at `j`. -/
structure Frames (l : Layout) (story : Story) (p : PeerId) (frame : List UInt8) (d : Delivery)
    (j k : Nat) (s : Sent) : Prop where
  carried : story.Carries j k s p d
  last : ∀ later, k < later → story[later]? ≠ some (.installed p d)
  /-- If the sender has not claimed its slot since, the frame is a request to the sender. If the
      sender has sent nothing since either, its message is the body of the request. -/
  request : (∀ i, k < i → story[i]? ≠ some (.attached d.sender)) → ∃ dest body,
    Request.parse l frame = .ok (dest, body) ∧ dest.resolve l = .ok d.sender.toUInt64 ∧
      body.length = s.message.length ∧
      ((∀ (i : Nat) t, k < i → story[i]? = some (.sent t) → t.origin ≠ d.sender) →
        body = s.message)

namespace Network

variable {net : Network} {l : Layout} {p : PeerId} {e : Endpoint}

/-- The bytes behind a header are as many as the layout has for payloads. -/
theorem length_area (net : Network) (a : PeerId) :
    (net.staged a).area.length = net.layout.maxPayload := by
  simp only [Network.staged, Slot.staged, Memory.length_bytes]
  rfl

/-- The frame of a delivery: the address of its sender, and what lies in its slot. -/
def frame (net : Network) (d : Delivery) : List UInt8 :=
  Utf8.encode (addressText d.sender) ++ [Request.colon] ++
    (net.staged d.sender).area.take d.len.toNat

/-- A read of a pending delivery puts its frame over the front of the buffer, if there is room for
    it. Else the delivery is taken in hand, and that is all. -/
theorem WellFormed.read_frame (wf : WellFormed l True net) (he : net.endpoint? p = some e)
    {d : Delivery} (pending : e.inbox.pending = some d) (buffer : List UInt8)
    (stamped : l.Stamped d.sender net.memory) (short : d.len.toNat ≤ l.maxPayload) :
    (buffer.length < (net.frame d).length ∧ net.read e buffer =
        (.error (.oversizedPayload (net.frame d).length buffer.length), buffer,
          (net.await e .none).2)) ∨
      (net.frame d).length ≤ buffer.length ∧ (net.read e buffer).1 = .ok (net.frame d).length ∧
        (net.read e buffer).2.1 = net.frame d ++ buffer.drop (net.frame d).length := by
  obtain ⟨wf', ok, shown⟩ := wf.await he pending .none
  have stays := net.keepsStamps_await wf.valid (wf.seated.seats p e he) .none d.sender stamped
  -- taking the delivery in hand leaves the area of its sender alone
  have area : ((l.slotAt d.sender).staged (net.await e .none).2.memory).area =
      (net.staged d.sender).area := by
    have kept : ((net.await e .none).2.view.staged d.sender).area = (net.staged d.sender).area := by
      rw [shown, View.handOut, View.staged_giveUp_of_ne, View.staged_setInbox]
      · rfl
      · exact fun c given => (Inbox.superseded_eq_some.mp given).2
    rwa [staged_view, Network.staged, wf'.layout] at kept
  have full : ((net.staged d.sender).area.take d.len.toNat).length = d.len.toNat :=
    List.length_take_of_le (short.trans_eq (by rw [length_area, wf.layout]))
  unfold Network.read frame
  rcases outcome : net.await e .none with ⟨result, after⟩
  rw [outcome] at ok stays area
  simp only at ok stays area
  subst ok
  simp only [Incoming.address_of_stamped stays]
  generalize Utf8.encode (addressText d.sender) ++ [Request.colon] = front
  rw [List.length_append, full]
  split_ifs with room
  · exact .inl ⟨room, rfl⟩
  · have space : d.len.toNat ≤ (buffer.drop front.length).length := by
      rw [List.length_drop]
      omega
    have copied := Incoming.copyOver_take (m := after.memory)
      (i := ⟨d.sender, l.slotAt d.sender, d.len.toNat⟩) space short
    rw [Incoming.payload, Slot.payload_eq_take, area] at copied
    simp only [copied]
    refine .inr ⟨Nat.le_of_not_lt room, ?_⟩
    -- the release that follows does not touch the buffer
    cases after.endpoint? e.peer <;> exact ⟨rfl, rfl⟩

/-- A frame that is read is that of the pending delivery. -/
theorem WellFormed.read_eq_ok (wf : WellFormed l True net) (he : net.endpoint? p = some e)
    {d : Delivery} (pending : e.inbox.pending = some d) {buffer : List UInt8} {total : Nat}
    (read : (net.read e buffer).1 = .ok total) (stamped : l.Stamped d.sender net.memory)
    (short : d.len.toNat ≤ l.maxPayload) : (net.read e buffer).2.1.take total = net.frame d := by
  rcases wf.read_frame he pending buffer stamped short with ⟨-, refused⟩ | ⟨-, ok, filled⟩
  · rw [refused] at read
    cases read
  · rw [ok] at read
    cases read
    rw [filled, List.take_left]

/-! ### Runs -/

variable {storage : Storage} {b : Mailbox} {actions : List Action}

/-- After every run from a new mailbox, messages are in the slots of their senders as long as these
    neither send nor claim their slots, and all that were sent are shorter than a payload area. -/
theorem lasting_of_run (created : Mailbox.create storage l = .ok b) (actions : List Action) :
    View.Lasting ((ofMailbox b).story actions) ((ofMailbox b).run .queue actions).view ∧
      ∀ s, .sent s ∈ (ofMailbox b).story actions → s.message.length < l.maxPayload := by
  have untouched := untouched_of_create created
  obtain ⟨-, path⟩ := path_of_run created actions
  -- the ledger comes along, for a step needs it to keep what lasts
  have start : (∀ a, View.Ledger l a [] (ofMailbox b).view) ∧ View.Lasting [] (ofMailbox b).view ∧
      ∀ s, Event.sent s ∈ [] → s.message.length < l.maxPayload :=
    ⟨fun a busy => absurd (untouched a).idle busy, by simp [View.Lasting], by simp⟩
  refine (path.invariant [] (I := fun story v => (∀ a, View.Ledger l a story v) ∧
    View.Lasting story v ∧ ∀ s, .sent s ∈ story → s.message.length < l.maxPayload) ?_ start).2
  rintro before story v u step ⟨ledger, lasting, short⟩
  refine ⟨fun a => (ledger a).step step, lasting.step ledger step, fun s told => ?_⟩
  rcases List.mem_append.mp told with old | new
  · exact short s old
  · exact step.short new

/-- **Frames.** After every run from a new mailbox, whoever attaches in it as often as may be: if a
    peer reads a frame, it is that of the delivery that is pending at the peer. As long as the
    sender of that does not claim its slot anew, the frame is a request to the sender, as long as
    the message that was delivered; and as long as the sender sends nothing else, the message is
    its body. A sender sends nothing else if no stray rings arrive and it attaches only while
    nothing of it is about. -/
theorem frames_of_run (created : Mailbox.create storage l = .ok b)
    (he : ((ofMailbox b).run .queue actions).endpoint? p = some e) {buffer : List UInt8}
    {total : Nat} (read : (((ofMailbox b).run .queue actions).read e buffer).1 = .ok total) :
    ∃ d j k s, e.inbox.pending = some d ∧
      Frames l ((ofMailbox b).story actions) p
        ((((ofMailbox b).run .queue actions).read e buffer).2.1.take total) d j k s ∧
      ((∀ action ∈ actions, action.Orderly) → (ofMailbox b).AttachesQuietly actions d.sender →
        ∀ (i : Nat) t, k < i → ((ofMailbox b).story actions)[i]? = some (.sent t) →
          t.origin ≠ d.sender) := by
  obtain ⟨wf, recorded⟩ := recorded_of_run created actions
  obtain ⟨lasting, short⟩ := lasting_of_run created actions
  rcases pending : e.inbox.pending with _ | d
  · rw [read_of_none pending] at read
    cases read
  have refers : ((ofMailbox b).run .queue actions).view.Refers p d :=
    ⟨e.inbox, inbox?_of_endpoint? he, .inl pending⟩
  -- the delivery is the one that was installed the last time
  obtain ⟨k, _, installed, rfl, last⟩ := Story.exists_last
    (P := (· = .installed p d)) ⟨_, recorded.installed p d refers, rfl⟩
  obtain ⟨s, latest, len⟩ := Story.arrivals_iff.mp recorded.measured k p d installed
  obtain ⟨j, carried⟩ := Story.exists_of_latest? latest
  have carries : ((ofMailbox b).story actions).Carries j k s p d := ⟨installed, carried⟩
  have fits : d.len.toNat ≤ l.maxPayload :=
    len.trans_le (short s (List.mem_of_getElem? carries.sent)).le
  refine ⟨d, j, k, s, rfl, ⟨carries, fun i after told => last i _ after told rfl,
    fun unclaimed => ?_⟩, fun orderly quietly i t after told => ?_⟩
  · have stamped := (wellFormed_of_create created).stamped_of_story installed unclaimed
    obtain ⟨dest, parsed, resolved⟩ := Request.parse_address wf.valid
      ((wf.fits p e he).refers d (.inl pending))
      ((((ofMailbox b).run .queue actions).staged d.sender).area.take d.len.toNat)
    rw [wf.read_eq_ok he pending read stamped fits, frame]
    refine ⟨dest, _, parsed, resolved, ?_, fun silent => ?_⟩
    · rw [List.length_take_of_le (fits.trans_eq (by rw [length_area, wf.layout])), len]
    · obtain ⟨t, latest', message⟩ := lasting k p d installed silent unclaimed
      cases latest.symm.trans latest'
      exact message
  · -- nothing was sent since the delivery was installed the first time, much less since the last
    obtain ⟨first, there, unsent⟩ := (owned_of_quietly created orderly quietly).2 p d refers rfl
    have order : first ≤ k := Nat.le_of_not_lt fun after => last first _ after there rfl
    exact unsent i t (Nat.lt_of_le_of_lt order after) told

/-- Peer 2 reads a message of peer 1. -/
theorem frames_of_run_small :
    let net := (ofMailbox smallMailbox).run .queue [join 1, join 2, hail 1 2, .deliver 0]
    ∃ e d j k s, net.endpoint? 2 = some e ∧ e.inbox.pending = some d ∧
      Frames smallLayout
        ((ofMailbox smallMailbox).story [join 1, join 2, hail 1 2, .deliver 0]) 2
        ((net.read e (List.replicate 16 0)).2.1.take 8) d j k s := by
  intro net
  obtain ⟨e, he⟩ := Option.isSome_iff_exists.mp
    (show (net.endpoint? 2).isSome = true by decide +kernel)
  have read : (net.read e (List.replicate 16 0)).1 = .ok 8 := by
    have total : (net.endpoint? 2).map (fun e => (net.read e (List.replicate 16 0)).1) =
        some (.ok 8) := by decide +kernel
    rw [he] at total
    exact Option.some.inj total
  obtain ⟨d, j, k, s, pending, frames, -⟩ :=
    frames_of_run (l := smallLayout) create_small he read
  exact ⟨e, d, j, k, s, he, pending, frames⟩

/-- Peer 1 attaches anew while the ring for its first message is under way, and sends to peer 3. -/
def overtaken : List Action :=
  [join 1, join 2, join 3, hail 1 2, join 1, .send 1 .spin (.peer 3) [7], .deliver 0, .deliver 0,
    .release 3, .send 1 .spin (.peer 3) [8, 9]]

/-- The ring has the message for peer 3 delivered to peer 2, and the release of peer 3 lets peer 1
    send another one. Then peer 2 reads a frame of peer 1 whose body is no message of peer 1,
    although peer 1 has not attached since the delivery. -/
theorem not_framed_small :
    let net := (ofMailbox smallMailbox).run .queue overtaken
    let story := (ofMailbox smallMailbox).story overtaken
    (net.endpoint? 2).map (fun e => (net.read e (List.replicate 8 0)).2.1) =
        some (Utf8.encode "100,27:" ++ [8]) ∧
      story.idxOf (.installed 2 ⟨1, 1, 1⟩) < story.length ∧
      .attached 1 ∉ story.drop (story.idxOf (.installed 2 ⟨1, 1, 1⟩)) ∧
      [8] ∉ (story.filterMap Event.sent?).map Sent.message := by
  decide +kernel

end Network

end SharedMailbox
