import SharedMailbox.Proofs.Sending

namespace SharedMailbox

/-!
# Receiving, attaching and leaving on views

What the consumer of an endpoint does to the view of a network, and what attaching and leaving do.

* `WellFormed.await`, `WellFormed.release`: a delivery is taken in hand, and given up.
* `View.Reads`, `WellFormed.read`: what may come of a framed read.
* `WellFormed.attach`, `WellFormed.forget` and so on: endpoints come and go.
-/

namespace Network

variable {net : Network} {l : Layout} {stray : Prop} {p : PeerId} {e : Endpoint}

/-- Who has an inbox has an endpoint that holds it. -/
theorem exists_of_inbox? {i : Inbox} (h : net.inbox? p = some i) :
    ∃ e, net.endpoint? p = some e ∧ e.inbox = i :=
  Option.map_eq_some_iff.mp h

/-! ### Taking and giving up deliveries -/

/-- An inbox changes and a delivery that it referred to is given up. -/
theorem WellFormed.giveUp (wf : WellFormed l stray net) (he : net.endpoint? p = some e) {i : Inbox}
    {o : Option Delivery} (refers : ∀ d, i.Refers d → e.inbox.Refers d)
    (given : ∀ d ∈ o, e.inbox.Refers d) :
    WellFormed l stray ((net.update e.peer fun e => { e with inbox := i }).clearGivenUp e o) ∧
      ((net.update e.peer fun e => { e with inbox := i }).clearGivenUp e o).view =
        (net.view.setInbox p (some i)).giveUp o := by
  have fits := wf.fits p e he
  obtain rfl := fits.peer
  have changed : WellFormed l stray (net.update e.peer fun e => { e with inbox := i }) :=
    wf.setInbox he ⟨rfl, rfl⟩ rfl rfl fun d hd => fits.refers d (refers d hd)
  refine ⟨changed.clearGivenUp e o, ?_⟩
  rw [changed.view_clearGivenUp fits fun d hd => fits.refers d (given d hd), view_update he]

/-- A wait that finds nothing pending changes nothing. -/
theorem await_of_none (h : e.inbox.pending = none) (patience : Patience) :
    net.await e patience = (.error patience.fault, net) := by
  simp [await, h]

/-- A wait that finds a delivery pending takes it in hand. -/
theorem WellFormed.await (wf : WellFormed l stray net) (he : net.endpoint? p = some e)
    {d : Delivery} (pending : e.inbox.pending = some d) (patience : Patience) :
    WellFormed l stray (net.await e patience).2 ∧
      (net.await e patience).1 = .ok ⟨d.sender, l.slotAt d.sender, d.len.toNat⟩ ∧
      (net.await e patience).2.view = net.view.handOut p e.inbox d := by
  have fits := wf.fits p e he
  have found : e.slotOf? d.sender = some (l.slotAt d.sender) := by
    rw [Endpoint.slotOf?, fits.layout]
    exact Layout.slot?_of_hasSlot wf.valid (fits.refers d (.inl pending))
  -- everything involved was referred to before, so its slot exists
  have given : ∀ c ∈ (e.inbox.handOut d).2, e.inbox.Refers c :=
    fun c hc => .inr (Inbox.superseded_eq_some.mp hc).1
  have kept : ∀ c, (e.inbox.handOut d).1.Refers c → e.inbox.Refers c := by
    intro c hc
    rw [Inbox.refers_handOut pending hc]
    exact .inl pending
  obtain ⟨wf', shown⟩ := wf.giveUp he kept given
  simp only [Network.await, pending, found]
  exact ⟨wf', trivial, shown⟩

/-- A release gives up the delivery in hand, else the pending one. -/
theorem WellFormed.release (wf : WellFormed l stray net) (he : net.endpoint? p = some e) :
    WellFormed l stray (net.release e).2 ∧ (net.release e).1 = e.inbox.release.2.isSome ∧
      (net.release e).2.view = net.view.release p e.inbox := by
  obtain ⟨wf', shown⟩ := wf.giveUp he (fun _ h => .inl (Inbox.refers_release h))
    fun _ => Inbox.refers_of_released
  exact ⟨wf', rfl, shown⟩

end Network

/-- What may come of a framed read of a pending delivery: it is taken in hand, and also released
    unless the buffer is too short. -/
inductive View.Reads (v : View) (p : PeerId) (i : Inbox) (d : Delivery) :
    Except MessageError Nat → View → Prop
  | refused (fault : MessageError) : Reads v p i d (.error fault) (v.handOut p i d)
  | read (total : Nat) : Reads v p i d (.ok total) ((v.handOut p i d).release p (i.handOut d).1)

namespace Network

variable {net : Network} {l : Layout} {stray : Prop} {p : PeerId} {e : Endpoint}

/-- A framed read that finds nothing pending changes nothing. -/
theorem read_of_none (h : e.inbox.pending = none) (buffer : List UInt8) :
    net.read e buffer = (.error .wouldBlock, buffer, net) := by
  simp [read, await_of_none h, Patience.fault]

/-- A framed read of a pending delivery keeps the network well-formed, and the view afterwards is
    that of a read that was refused or of one that released the delivery. -/
theorem WellFormed.read (wf : WellFormed l stray net) (he : net.endpoint? p = some e)
    {d : Delivery} (pending : e.inbox.pending = some d) (buffer : List UInt8) :
    WellFormed l stray (net.read e buffer).2.2 ∧
      net.view.Reads p e.inbox d (net.read e buffer).1 (net.read e buffer).2.2.view := by
  have taken := wf.await he pending .none
  have fits := wf.fits p e he
  unfold Network.read
  rcases outcome : net.await e .none with ⟨result, after⟩
  rw [outcome] at taken
  obtain ⟨wf', ok, shown⟩ := taken
  simp only at ok shown wf'
  subst ok
  -- the delivery stays in hand if the frame does not fit into the buffer
  have refused : ∀ fault, net.view.Reads p e.inbox d (.error fault) after.view := by
    intro fault
    rw [shown]
    exact .refused fault
  simp only
  split
  next => exact ⟨wf', refused _⟩
  next =>
    split
    next => exact ⟨wf', refused _⟩
    next =>
      -- the endpoint is released as it stands after the wait
      have here : after.inbox? p = some (e.inbox.handOut d).1 := by
        rw [← inbox_view, shown]
        simp [View.handOut]
      obtain ⟨e', he', inbox⟩ := exists_of_inbox? here
      obtain ⟨wf'', -, released⟩ := wf'.release he'
      simp only [fits.peer, he']
      rw [inbox, shown] at released
      refine ⟨wf'', ?_⟩
      rw [released]
      exact .read _

/-! ### Coming and going -/

/-- A peer that attaches owns a slot, which it wipes, and starts with an empty inbox. -/
theorem WellFormed.attach (wf : WellFormed l stray net) {vectors : VectorTable}
    (distinct : stray ∨ vectors.NoRepeats) {config : EndpointConfig} {host : HostAnswer}
    {after : Network} (h : net.attach net.layout p vectors config host = .ok after) :
    WellFormed l stray after ∧ after.view = net.view.occupy p l.maxPayload := by
  have layout := wf.layout
  obtain ⟨slot, found, -, made⟩ := attach_eq_ok h
  rw [layout] at found
  -- the slot that is claimed is the peer's own, so the wipe shows there only
  obtain rfl := Layout.slot?_eq_some wf.valid found
  have owner := Layout.hasSlot_of_slot? found
  have wiped := wf.view_remember ((l.slotAt p).sameOutside_occupy net.memory p
    (config.label host p) config.className)
  rw [Slot.staged_occupy] at wiped
  have there := endpoint?_attach h
  have staged : after.view.staged =
      (net.view.setStaged p (Staged.blank l.maxPayload)).staged := by
    have shown := congrArg View.staged wiped
    rw [made]
    exact shown
  have rings : after.view.rings = net.view.rings := by rw [made]; rfl
  refine ⟨⟨?_, wf.valid, fun q e he => ?_⟩, View.ext staged ?_ rings⟩
  · rw [made]
    exact layout
  · rw [there q] at he
    split_ifs at he with same
    · subst same
      cases he
      exact ⟨rfl, layout, owner, distinct, by simp [newEndpoint, Inbox.Refers]⟩
    · exact wf.fits q e he
  · funext q
    rw [inbox_view, inbox?, there q]
    by_cases same : p = q
    · subst same
      simp [View.occupy, newEndpoint]
    · rw [View.occupy, View.inbox_setInbox_of_ne _ (Ne.symm same), if_neg same]
      rfl

/-- Detaching shows in no slot, inbox or ring: the endpoint only no longer listens. -/
theorem WellFormed.detach (wf : WellFormed l stray net) (p : PeerId) :
    WellFormed l stray (net.detach p).2 ∧ (net.detach p).2.view = net.view := by
  unfold Network.detach
  split
  · exact ⟨wf.update_of_inbox (fun _ => ⟨rfl, rfl⟩) (fun _ => rfl) fun _ => rfl,
      view_update_of_inbox fun _ => rfl⟩
  · exact ⟨wf, rfl⟩

/-- Forgetting an endpoint takes its inbox away, and nothing else. -/
theorem WellFormed.forget (wf : WellFormed l stray net) (p : PeerId) :
    WellFormed l stray (net.forget p).2 ∧ (net.forget p).2.view = net.view.setInbox p none := by
  have gone : ∀ q, (net.forget p).2.endpoint? q = if p = q then none else net.endpoint? q := by
    intro q
    simp [Network.forget, endpoint?, Std.ExtTreeMap.getElem?_erase]
  refine ⟨⟨wf.layout, wf.valid, fun q e he => ?_⟩, ?_⟩
  · rw [gone] at he
    split_ifs at he
    exact wf.fits q e he
  · ext1
    · rfl
    · funext q
      by_cases same : p = q
      · subst same
        simp [inbox?, gone]
      · rw [View.inbox_setInbox_of_ne _ (Ne.symm same)]
        simp [inbox?, gone, same]
    · rfl

/-- Naming an endpoint shows in no message, inbox or ring. -/
theorem WellFormed.setClass (wf : WellFormed l stray net) (he : net.endpoint? p = some e)
    (name : String) :
    WellFormed l stray (net.setClass e name) ∧ (net.setClass e name).view = net.view := by
  have fits := wf.fits p e he
  obtain rfl := fits.peer
  have own : e.slot = l.slotAt e.peer := by rw [Endpoint.slot, fits.layout]; rfl
  let named : Endpoint → Endpoint := fun e => { e with identity.className := name }
  have wf' : WellFormed l stray (net.update e.peer named) :=
    wf.update_of_inbox (fun _ => ⟨rfl, rfl⟩) (fun _ => rfl) fun _ => rfl
  unfold Network.setClass
  rw [own]
  refine ⟨wf'.remember _, ?_⟩
  rw [wf'.view_setClassName]
  exact view_update_of_inbox fun _ => rfl

end Network

end SharedMailbox
