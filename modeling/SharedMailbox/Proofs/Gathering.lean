import SharedMailbox.Proofs.Rest

namespace SharedMailbox

/-!
# Classes are bound

When classes are bound every client asks the coordinator for a dump, and nobody takes what arrives:
each dump displaces the one before, and the last one stays. Once it is released the network is at
rest.

* `View.Gathered`: whatever is staged is the message of what is pending at one peer.
* `Gathers.requestDump`, `Gathers.bindPeer`, `Gathers.bindClass`: one dump, one endpoint that is
  bound, and all of them.
* `Gathers.atRest_of_none`, `Gathers.release`: nothing has arrived, or the last dump is released.
-/

namespace View

variable {v u : View} {c p q : PeerId} {i : Inbox} {d : Delivery}

/-- No ring is under way, only `c` may have a delivery, which is not in hand, and nothing is staged
    but its message. -/
structure Gathered (c : PeerId) (v : View) : Prop where
  rings : v.rings = []
  others : ∀ q i, q ≠ c → v.inbox q = some i → i.IsEmpty
  last : ∃ i, v.inbox c = some i ∧ i.inHand = none ∧
    (∀ d, i.pending = some d → (v.staged d.sender).len ≠ 0) ∧
    ∀ q, ((v.giveUp i.pending).staged q).len = 0

/-- At rest nothing has gathered at any peer. -/
theorem AtRest.gathered (rest : v.AtRest) (here : v.inbox c = some i) : v.Gathered c := by
  obtain ⟨pending, hand⟩ := rest.empty c i here
  refine ⟨rest.rings, fun q j _ => rest.empty q j, i, here, hand, ?_, ?_⟩
  · simp [pending]
  · rw [pending]
    exact rest.idle

/-- Where nothing is pending, nothing has gathered, and all is at rest. -/
theorem Gathered.atRest_of_none (gathered : v.Gathered c) (here : v.inbox c = some i)
    (pending : i.pending = none) : v.AtRest := by
  obtain ⟨j, there, hand, -, left⟩ := gathered.last
  obtain rfl := Option.some.inj (here.symm.trans there)
  rw [pending] at left
  refine ⟨gathered.rings, left, fun q k found => ?_⟩
  by_cases same : q = c
  · subst same
    obtain rfl := Option.some.inj (here.symm.trans found)
    exact ⟨pending, hand⟩
  · exact gathered.others q k same found

/-- What giving up a delivery leaves in a slot depends on that slot only. -/
theorem staged_giveUp_congr (same : u.staged q = v.staged q) (o : Option Delivery) :
    (u.giveUp o).staged q = (v.giveUp o).staged q := by
  cases o with
  | none => exact same
  | some d =>
    simp only [giveUp]
    by_cases sender : q = d.sender
    · subst sender
      rw [staged_clear_self, staged_clear_self, same]
    · rw [staged_clear_of_ne _ sender, staged_clear_of_ne _ sender, same]

/-- A message for `c` displaces the one before it, which frees the slot of its sender. -/
theorem Gathered.arrives (gathered : v.Gathered c) (here : v.inbox c = some i)
    (idle : (v.staged p).len = 0) (target : UInt64) {message : List UInt8} (some : message ≠ [])
    (size : message.length < UInt64.size) :
    ∃ d, i.fresh? p ((v.post p target message).staged p).len = .some d ∧
      (((v.post p target message).drop 0).install c i d).Gathered c := by
  obtain ⟨j, there, hand, busy, left⟩ := gathered.last
  obtain rfl := Option.some.inj (here.symm.trans there)
  have others : ∀ d ∈ i.pending, d.sender ≠ p := by
    rintro d pending rfl
    exact busy d pending idle
  have fresh : i.pending.map Delivery.sender ≠ .some p := by
    intro same
    obtain ⟨d, pending, sender⟩ := Option.map_eq_some_iff.mp same
    exact others d pending sender
  have stomped : i.stomped = i.pending := by
    cases pending : i.pending <;> simp [Inbox.stomped, Inbox.Holds, hand, pending]
  refine ⟨_, Inbox.fresh?_eq_some.mpr ⟨fresh, rfl⟩, ?_⟩
  generalize arrived : Delivery.mk p ((v.post p target message).staged p).len (i.generation + 1) = d
  rw [install, stomped]
  -- before the displaced delivery is given up, only the slot of the new one has changed
  generalize staged : ((v.post p target message).drop 0).setInbox c (i.accept d) = u
  have own : (u.giveUp i.pending).staged p = (v.post p target message).staged p := by
    rw [staged_giveUp_of_ne u others, ← staged]
    rfl
  have other : ∀ q, q ≠ p → (u.giveUp i.pending).staged q = (v.giveUp i.pending).staged q := by
    intro q different
    refine staged_giveUp_congr ?_ _
    rw [← staged]
    exact v.staged_post_of_ne different target message
  refine ⟨?_, fun q k different found => ?_, i.accept d, ?_, hand, ?_, fun q => ?_⟩
  · rw [rings_giveUp, ← staged, rings_setInbox, rings_drop, rings_post, gathered.rings]
    rfl
  · rw [inbox_giveUp, ← staged, inbox_setInbox_of_ne _ different] at found
    exact gathered.others q k different found
  · rw [inbox_giveUp, ← staged, inbox_setInbox_self]
  · rintro _ ⟨rfl⟩
    rw [← arrived, own, staged_post_self]
    exact Staged.len_put_ne_zero size some
  · show (((u.giveUp i.pending).clear d.sender d.len).staged q).len = 0
    rw [← arrived]
    by_cases same : q = p
    · subst same
      rw [staged_clear_self, own]
      exact Staged.len_clear_self
    · rw [staged_clear_of_ne _ same, other q same]
      exact left q

/-- Once the last message is taken and released, nothing is left. -/
theorem Gathered.released (gathered : v.Gathered c) (here : v.inbox c = some i)
    (pending : i.pending = some d) :
    ((v.handOut c i d).release c (i.handOut d).1).AtRest := by
  obtain ⟨j, there, hand, -, left⟩ := gathered.last
  obtain rfl := Option.some.inj (here.symm.trans there)
  rw [pending] at left
  have taken : i.handOut d = ({ i with inHand := some d }, none) := by simp [Inbox.handOut, hand]
  have given : (i.handOut d).1.release = ({ i with inHand := none, pending := none }, some d) := by
    simp [taken, Inbox.release, pending]
  -- taking and releasing what is pending comes to emptying the inbox and giving it up
  have whole : (v.handOut c i d).release c (i.handOut d).1 =
      (v.setInbox c (some { i with inHand := none, pending := none })).giveUp (some d) := by
    rw [release, given, handOut, taken]
    exact congrArg (giveUp · (some d)) (v.setInbox_setInbox c _ _)
  rw [whole]
  refine ⟨?_, fun q => ?_, fun q k found => ?_⟩
  · rw [rings_giveUp, rings_setInbox, gathered.rings]
  · exact (congrArg Staged.len (staged_giveUp_congr rfl (some d))).trans (left q)
  · rw [inbox_giveUp] at found
    by_cases same : q = c
    · subst same
      rw [inbox_setInbox_self] at found
      exact Option.some.inj found ▸ ⟨rfl, rfl⟩
    · rw [inbox_setInbox_of_ne _ same] at found
      exact gathered.others q k same found

end View

/-! ### Dumps -/

namespace Network

variable {net after : Network} {l : Layout} {c p q : PeerId} {e : Endpoint} {i : Inbox}
  {d : Delivery}

/-- Only the coordinator may have a delivery, and who attached knows every peer that owns a slot. -/
structure Gathers (l : Layout) (c : PeerId) (net : Network) : Prop where
  wellFormed : WellFormed l True net
  view : net.view.Gathered c
  knows : ∀ q r, net.bare? q = some r → ∀ o : PeerId, l.HasSlot o.toUInt64 → r.Knows o

/-- A network at rest is one in which a peer may gather messages. -/
theorem AtRest.gathers (rest : AtRest l net) (here : net.inbox? c = some i) : Gathers l c net :=
  ⟨rest.wellFormed, rest.view.gathered here, rest.knows⟩

/-- A dump that is sent displaces the one before. -/
theorem Gathers.requestDump (gathers : Gathers l c net) (coordinator : l.coordinator = c.toUInt64)
    (fits : e.Fits l True p) : Gathers l c (net.requestDump .queue e).2.settle ∧
      (net.requestDump .queue e).2.settle.bare? = net.bare? := by
  obtain ⟨wf, view, knows⟩ := gathers
  obtain ⟨wf', sends⟩ := wf.requestDump fits
  have records : (net.requestDump .queue e).2.bare? = net.bare? := bare?_send ..
  generalize (net.requestDump .queue e).2 = after, (net.requestDump .queue e).1 = result at *
  generalize shown : after.view = w at sends
  -- The client may be unable to send, while nothing happens; otherwise its dump arrives.
  cases sends with
  | refused =>
    have silent : after.rings = [] := (congrArg View.rings shown).trans view.rings
    rw [settle_of_nil silent]
    exact ⟨⟨wf', by rw [shown]; exact view, by rw [records]; exact knows⟩, records⟩
  | @posted target admits =>
    have resolved : (Destination.coordinator l).resolve l = .ok target := admits.resolved
    rw [Destination.resolve_coordinator wf.valid, coordinator, Except.ok.injEq] at resolved
    subst resolved
    obtain ⟨i, here, -⟩ := view.last
    obtain ⟨r, record⟩ : ∃ r, net.bare? c = some r := by
      obtain ⟨f, hf, -⟩ := exists_of_inbox? here
      exact ⟨_, bare?_of_endpoint? hf⟩
    have size := Nat.lt_trans admits.short l.maxPayload_lt
    obtain ⟨d, fresh, arrived⟩ := view.arrives here admits.idle c.toUInt64 admits.nonempty size
    have appears : Appears l (net.view.post p c.toUInt64 Link.switchDump) net.bare? after :=
      ⟨wf', shown, records⟩
    have one : (net.view.post p c.toUInt64 Link.switchDump).rings = [.new p c] := by
      rw [View.rings_post, view.rings, List.nil_append, UInt16.toUInt16_toUInt64]
    have plain : ¬ Link.IsRequest Link.switchDump := by decide +kernel
    obtain ⟨-, delivered, -⟩ := appears.settle_plain one here record (knows c r record p fits.owner)
      fits.owner (by rw [View.staged_post_self]; exact Staged.len_put_ne_zero size admits.nonempty)
      (by rw [View.staged_post_self, Staged.message_put size]; exact plain) fresh
    exact ⟨⟨delivered.wellFormed, by rw [delivered.view]; exact arrived,
      by rw [delivered.records]; exact knows⟩, delivered.records⟩

/-- Setting a class changes the identity of one endpoint. -/
theorem Gathers.setClass (gathers : Gathers l c net) (he : net.endpoint? p = some e)
    (name : String) : Gathers l c (net.setClass e name) ∧
      ∀ q, ((net.setClass e name).bare? q).isSome = (net.bare? q).isSome := by
  obtain ⟨wf, view, knows⟩ := gathers
  obtain ⟨wf', shown⟩ := wf.setClass he name
  -- a class is part of the record of its endpoint, which knows its peers as before
  have records := net.bare?_setClass e name
  rw [(wf.fits p e he).peer, bare?_of_endpoint? he, Option.map_some] at records
  refine ⟨⟨wf', by rw [shown]; exact view, fun q r record => ?_⟩, fun q => ?_⟩
  · rw [records] at record
    by_cases same : q = p
    · subst same
      rw [Function.update_self, Option.some.injEq] at record
      subst record
      exact knows q e.bare (bare?_of_endpoint? he)
    · rw [Function.update_of_ne same] at record
      exact knows q r record
  · rw [records]
    by_cases same : q = p
    · subst same
      rw [Function.update_self, bare?_of_endpoint? he, Option.isSome_some, Option.isSome_some]
    · rw [Function.update_of_ne same]

/-- One endpoint is bound, if there is one. -/
theorem Gathers.bindPeer (gathers : Gathers l c net) (coordinator : l.coordinator = c.toUInt64)
    (name : String) (p : PeerId) : Gathers l c (Fabric.bindPeer name net p) ∧
      ∀ q, ((Fabric.bindPeer name net p).bare? q).isSome = (net.bare? q).isSome := by
  unfold Fabric.bindPeer
  split
  next e he =>
    obtain ⟨named, members⟩ := gathers.setClass he name
    unfold Fabric.bindEndpoint
    split
    · exact ⟨named, members⟩
    · obtain ⟨asked, same⟩ := named.requestDump coordinator (gathers.wellFormed.fits p e he)
      exact ⟨asked, fun q => by rw [same, members q]⟩
  next => exact ⟨gathers, fun _ => rfl⟩

/-- Classes are bound, whoever is registered. Nobody comes or goes by that. -/
theorem Gathers.bindClass (gathers : Gathers l c net) (coordinator : l.coordinator = c.toUInt64)
    (name : String) : Gathers l c (Fabric.bindClass name net).2 ∧
      ∀ q, ((Fabric.bindClass name net).2.bare? q).isSome = (net.bare? q).isSome := by
  refine List.foldlRecOn (Fabric.registered net) (Fabric.bindPeer name)
    (motive := fun mid => Gathers l c mid ∧ ∀ q, (mid.bare? q).isSome = (net.bare? q).isSome)
    ⟨gathers, fun _ => rfl⟩ fun mid ⟨gathers', members⟩ p _ => ?_
  obtain ⟨bound, members'⟩ := gathers'.bindPeer coordinator name p
  exact ⟨bound, fun q => (members' q).trans (members q)⟩

/-! ### What is pending -/

/-- What is pending is taken in hand and released. -/
theorem WellFormed.spend (wf : WellFormed l True net) (here : net.inbox? c = some i)
    (pending : i.pending = some d) (patience : Patience) :
    (∃ incoming, (net.perform .queue (.await c patience)).1 = .received (.ok incoming)) ∧
      Appears l ((net.view.handOut c i d).release c (i.handOut d).1) net.bare?
        (net.run .queue [.await c patience, .release c]) := by
  obtain ⟨received, taken⟩ := wf.appears.await here pending patience
  -- the release is of the inbox that the wait has left
  have held : (net.view.handOut c i d).inbox c = some (i.handOut d).1 := by
    rw [View.handOut, View.inbox_giveUp, View.inbox_setInbox_self]
  obtain ⟨-, given⟩ := taken.release held
  exact ⟨⟨_, received⟩, given⟩

/-- Nothing is pending once what was pending has been taken in hand and released. -/
theorem WellFormed.none_pending (wf : WellFormed l True net) (here : net.inbox? c = some i)
    (pending : i.pending = some d) (patience : Patience) :
    (∃ incoming, (net.perform .queue (.await c patience)).1 = .received (.ok incoming)) ∧
      WellFormed l True (net.run .queue [.await c patience, .release c]) ∧
      (net.run .queue [.await c patience, .release c]).rings = net.rings ∧
      ∃ j, (net.run .queue [.await c patience, .release c]).inbox? c = some j ∧
        j.pending = none := by
  obtain ⟨received, spent⟩ := wf.spend here pending patience
  refine ⟨received, spent.wellFormed, ?_, (i.handOut d).1.release.1, ?_, ?_⟩
  · rw [spent.rings, View.release, View.handOut]
    simp only [View.rings_giveUp, View.rings_setInbox]
    rfl
  · rw [← inbox_view, spent.view, View.release, View.inbox_giveUp, View.inbox_setInbox_self]
  · -- taking keeps the delivery pending, and releasing what is in hand takes it off
    simp [Inbox.release, Inbox.handOut, pending]

/-! ### The last dump -/

/-- A network in which nothing has gathered is at rest. -/
theorem Gathers.atRest_of_none (gathers : Gathers l c net) (here : net.inbox? c = some i)
    (pending : i.pending = none) : AtRest l net :=
  ⟨gathers.wellFormed, gathers.view.atRest_of_none here pending, gathers.knows⟩

/-- What is pending is taken and released. -/
theorem Gathers.release (gathers : Gathers l c net) (here : net.inbox? c = some i)
    (pending : i.pending = some d) (patience : Patience) :
    (∃ incoming, (net.perform .queue (.await c patience)).1 = .received (.ok incoming)) ∧
      AtRest l (net.run .queue [.await c patience, .release c]) ∧
      (net.run .queue [.await c patience, .release c]).bare? = net.bare? := by
  obtain ⟨received, spent⟩ := gathers.wellFormed.spend here pending patience
  refine ⟨received, ⟨spent.wellFormed, ?_, ?_⟩, spent.records⟩
  · rw [spent.view]
    exact gathers.view.released here pending
  · rw [spent.records]
    exact gathers.knows

end Network

end SharedMailbox
