import SharedMailbox.Proofs.Attaching
import SharedMailbox.Proofs.Negotiation

namespace SharedMailbox

/-!
# Networks at rest

Nothing is under way in a network at rest: no ring, no message in a slot, and no delivery. A new
mailbox is at rest; it still is after peers have attached to it, and after an exchange.

* `View.AtRest`, `Network.AtRest`: the state between two things that are done.
* `AtRest.exchange`: an exchange begins and ends at rest.
* `Fabric.Opening`, `Opening.attach`: peers attach one after another.
-/

/-- No ring is under way, all slots are idle, and nobody has a delivery. -/
structure View.AtRest (v : View) : Prop where
  rings : v.rings = []
  idle : ∀ q, (v.staged q).len = 0
  empty : ∀ q i, v.inbox q = some i → i.IsEmpty

namespace Network

/-- Nothing is under way, and who attached knows every peer that owns a slot. -/
structure AtRest (l : Layout) (net : Network) : Prop where
  wellFormed : WellFormed l True net
  view : net.view.AtRest
  knows : ∀ q r, net.bare? q = some r → ∀ o : PeerId, l.HasSlot o.toUInt64 → r.Knows o

variable {net : Network} {l : Layout} {q p : PeerId} {r r' : Endpoint}

/-- The endpoint with a bare record, and its inbox. -/
theorem AtRest.exists_endpoint (rest : AtRest l net) (record : net.bare? q = some r) :
    ∃ e, net.endpoint? q = some e ∧ e.bare = r ∧ e.inbox.IsEmpty := by
  obtain ⟨e, he, same⟩ := exists_of_bare? record
  exact ⟨e, he, same, rest.view.empty q _ (inbox?_of_endpoint? he)⟩

/-- At rest, whoever is there owns a slot. -/
theorem AtRest.hasSlot (rest : AtRest l net) (record : net.bare? q = some r) :
    l.HasSlot q.toUInt64 := by
  obtain ⟨e, he, -⟩ := exists_of_bare? record
  exact (rest.wellFormed.fits q e he).owner

/-- Any two peers are ready for an exchange. -/
theorem AtRest.poised (rest : AtRest l net) (asker : net.bare? q = some r)
    (answerer : net.bare? p = some r') : Poised l q p r'.identity net := by
  obtain ⟨e, he, rfl, empty⟩ := rest.exists_endpoint asker
  obtain ⟨f, hf, rfl, -⟩ := rest.exists_endpoint answerer
  have knows := rest.knows q _ asker p (rest.hasSlot answerer)
  have knows' := rest.knows p _ answerer q (rest.hasSlot asker)
  exact ⟨rest.wellFormed, rest.view.rings, ⟨rest.view.idle q, rest.view.idle p⟩,
    ⟨e, he, knows.of_bare rfl, empty⟩, ⟨f, hf, knows'.of_bare rfl, rfl⟩⟩

/-- After an exchange the network is at rest again, and the one who answered has the identity that
    it answered with. -/
theorem AtRest.exchange (rest : AtRest l net) (other : q ≠ p) (asker : net.bare? q = some r)
    (answerer : net.bare? p = some r') {how : Manner}
    (resolved : how.dest.resolve l = .ok p.toUInt64) {request answer : List UInt8}
    {id : Link.Identity} (response : Link.respond r'.identity request = some (id, answer))
    (short : request.length < l.maxPayload ∧ answer.length < l.maxPayload) :
    net.Exchanges q p how request answer ∧ AtRest l (net.run .queue (inquiry q how request)) ∧
      (net.run .queue (inquiry q how request)).bare? =
        Function.update net.bare? p (some { r' with identity := id }) := by
  obtain ⟨exchanges, -, poised, leaves⟩ :=
    (rest.poised asker answerer).exchange other resolved response short
  generalize net.run .queue (inquiry q how request) = after at poised leaves ⊢
  have records := leaves.records
  rw [answerer, Option.map_some] at records
  -- The two peers of the exchange are idle and empty by `poised`, the others by `leaves`.
  refine ⟨exchanges, ⟨poised.wellFormed, ⟨poised.rings, fun s => ?_, fun s i here => ?_⟩,
    fun s t record o owner => ?_⟩, records⟩
  · by_cases first : s = q
    · exact first ▸ poised.idle.1
    · by_cases second : s = p
      · exact second ▸ poised.idle.2
      · rw [staged_view, leaves.staged s first second]
        exact rest.view.idle s
  · rw [inbox_view] at here
    by_cases first : s = q
    · subst first
      obtain ⟨e, he, -, empty⟩ := poised.asker
      rw [inbox?_of_endpoint? he] at here
      exact Option.some.inj here ▸ empty
    · rw [leaves.inbox s first] at here
      exact rest.view.empty s i here
  · rw [records] at record
    by_cases second : s = p
    · subst second
      rw [Function.update_self, Option.some.injEq] at record
      subst record
      exact rest.knows s r' answerer o owner
    · rw [Function.update_of_ne second] at record
      exact rest.knows s t record o owner

end Network

/-! ### Attaching -/

namespace Fabric

variable {net : Network} {l : Layout} {p : PeerId}

/-- A fabric whose peers are attaching: it is at rest, and the slots of the others still bear the
    ids of their peers. -/
structure Opening (l : Layout) (net : Network) : Prop where
  rest : net.AtRest l
  wired : Wired l net
  stamped : ∀ q : PeerId, l.HasSlot q.toUInt64 → net.endpoint? q = none →
    (l.slotAt q).peerId net.memory = q.toUInt64

/-- A new mailbox is open to everybody. -/
theorem opening_of_create {storage : Storage} {b : Mailbox}
    (created : Mailbox.create storage l = .ok b) : Opening l (.ofMailbox b) := by
  have valid := Mailbox.valid_of_create created
  have layout := (Mailbox.eq_of_create created).1
  have nobody : ∀ q, (Network.ofMailbox b).endpoint? q = none := fun q => by
    simp [Network.ofMailbox, Network.endpoint?]
  refine ⟨⟨Network.wellFormed_of_create created, ⟨rfl,
    fun q => (Network.untouched_of_create created q).idle, fun q i here => ?_⟩,
    fun q r record => ?_⟩, (Built.new valid layout).wired, fun q owner _ => ?_⟩
  · simp [Network.inbox?, nobody] at here
  · simp [Network.bare?, nobody] at record
  · exact Mailbox.assigned_of_create created q owner

/-- A peer that owns a slot may attach, if its vectors fit. -/
theorem Opening.exists_attach (opening : Opening l net) (owner : l.HasSlot p.toUInt64)
    (fits : Fits l p) (new : net.endpoint? p = none) (config : EndpointConfig) (host : HostAnswer) :
    ∃ after, net.attach l p (run l p) config host = .ok after ∧
      Fabric.attach net p config host = .ok after := by
  have valid := opening.rest.wellFormed.valid
  have seated := opening.wired.seated
  have stamped := opening.stamped p owner new
  have unregistered : ¬ IsRegistered net p := by simp [IsRegistered, new]
  exact ⟨_, Network.attach_of_claimable valid ⟨owner, stamped, Nat.le_refl _⟩ config host,
    attach_of_attachable valid seated.layout ⟨unregistered, fits, owner, stamped⟩ config host⟩

/-- Who attaches to a fabric knows every peer that owns a slot. -/
theorem knows_newEndpoint (valid : l.Valid) (fits : Fits l p) (config : EndpointConfig) {o : PeerId}
    (owner : l.HasSlot o.toUInt64) : (Network.newEndpoint l p (run l p) config).Knows o := by
  exact Endpoint.knows_of_noRepeats valid owner rfl (noRepeats_run valid fits) (Nat.le_refl _)

/-- Who attaches has the bare record of a new endpoint. -/
theorem bare?_attach {after : Network} {vectors : VectorTable} {config : EndpointConfig}
    {host : HostAnswer} (made : net.attach l p vectors config host = .ok after) : after.bare? =
      Function.update net.bare? p (some (Network.newEndpoint l p vectors config)) := by
  funext q
  rw [Network.bare?, Network.endpoint?_attach made]
  by_cases same : p = q
  · subst same
    rw [if_pos rfl, Function.update_self]
    rfl
  · rw [if_neg same, Function.update_of_ne (Ne.symm same)]
    rfl

/-- After a peer has attached, others may. -/
theorem Opening.attach (opening : Opening l net) (owner : l.HasSlot p.toUInt64) (fits : Fits l p)
    (new : net.endpoint? p = none) (config : EndpointConfig) (host : HostAnswer) :
    ∃ after, Fabric.attach net p config host = .ok after ∧ Opening l after ∧
      after.bare? = Function.update net.bare? p
        (some (Network.newEndpoint l p (run l p) config)) := by
  obtain ⟨after, made, attached⟩ := opening.exists_attach owner fits new config host
  obtain ⟨⟨wf, ⟨rings, idle, empty⟩, knows⟩, wired, stamped⟩ := opening
  -- The slot of the peer is wiped and its inbox is new; all others are as they were.
  obtain ⟨wf', view⟩ := wf.attach (.inl trivial) (by rw [wf.layout]; exact made)
  have records := bare?_attach made
  refine ⟨after, attached, ⟨⟨wf', ?_, fun q r record o owner' => ?_⟩, (wired.attach attached).1,
    fun q owner' free => ?_⟩, records⟩
  · rw [view, View.occupy]
    refine ⟨rings, fun q => ?_, fun q i here => ?_⟩
    · rw [View.staged_setInbox]
      by_cases same : q = p
      · subst same
        rw [View.staged_setStaged_self]
        rfl
      · rw [View.staged_setStaged_of_ne _ same]
        exact idle q
    · by_cases same : q = p
      · subst same
        rw [View.inbox_setInbox_self] at here
        exact Option.some.inj here ▸ ⟨rfl, rfl⟩
      · rw [View.inbox_setInbox_of_ne _ same] at here
        exact empty q i here
  · rw [records] at record
    by_cases same : q = p
    · subst same
      rw [Function.update_self, Option.some.injEq] at record
      exact record ▸ knows_newEndpoint wf.valid fits config owner'
    · rw [Function.update_of_ne same] at record
      exact knows q r record o owner'
  · -- the slot of another peer is spared
    rw [Network.endpoint?_attach made] at free
    split at free
    next => cases free
    next other =>
      have spared := (Network.acts_attach wf.valid made).deeds.spared wf.valid (Ne.symm other)
      rw [spared.peerId]
      exact stamped q owner' free

end Fabric

end SharedMailbox
