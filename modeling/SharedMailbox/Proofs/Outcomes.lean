import SharedMailbox.Proofs.Nesting
import SharedMailbox.Proofs.Observed
import SharedMailbox.Proofs.Records
import SharedMailbox.Proofs.Stamps

namespace SharedMailbox

/-!
# What operations come to

An operation that finds what it needs has one outcome, and what it leaves can be told from the view
and the bare records alone.

* `Network.Appears`: a network has this view and these bare records.
* `Appears.send`, `Appears.deliver_plain`, `Appears.deliver_request`, `Appears.await`,
  `Appears.release`: a send, the arrival of a message and of a request, a wait and a release.
* `Network.settle_of_one`, `settle_of_two`: settling delivers one ring, or that of a request and
  that of its answer.
* `Appears.fetches`: a message arrives at an empty inbox and is taken there.
-/

namespace Inbox

variable {i : Inbox} {d : Delivery}

/-- Nothing is pending and nothing is in hand. -/
def IsEmpty (i : Inbox) : Prop := i.pending = none ∧ i.inHand = none

instance (i : Inbox) : Decidable i.IsEmpty := inferInstanceAs (Decidable (_ ∧ _))

/-- An inbox whose last delivery is in hand. -/
def holding (d : Delivery) : Inbox := ⟨some d, some d, d.generation⟩

/-- An inbox whose last delivery is released. -/
def spent (d : Delivery) : Inbox := ⟨none, none, d.generation⟩

/-- Once a delivery is spent the inbox is empty. -/
theorem isEmpty_spent (d : Delivery) : (spent d).IsEmpty := ⟨rfl, rfl⟩

/-- The first delivery of an empty inbox is handed out, and none is given up for it. -/
theorem handOut_accept (empty : i.IsEmpty) : (i.accept d).handOut d = (holding d, none) := by
  simp [handOut, accept, holding, empty.2]

/-- A delivery that is held alone is released, and then spent. -/
theorem release_holding (d : Delivery) : (holding d).release = (spent d, some d) := by
  simp [release, holding, spent]

end Inbox

namespace View

variable (v : View) {p : PeerId} {i : Inbox} {d : Delivery}

/-- Of two inboxes that a peer is given the second counts. -/
theorem setInbox_setInbox (p : PeerId) (i j : Option Inbox) :
    (v.setInbox p i).setInbox p j = v.setInbox p j := by
  simp [setInbox]

/-- What arrives at an empty inbox displaces nothing. -/
theorem install_of_isEmpty (empty : i.IsEmpty) :
    v.install p i d = v.setInbox p (some (i.accept d)) := by
  have nothing : i.stomped = none := by simp [Inbox.stomped, empty.1]
  rw [install, nothing, giveUp]

/-- A delivery that arrived at an empty inbox is held alone once it is handed out. -/
theorem handOut_of_isEmpty (empty : i.IsEmpty) :
    (v.setInbox p (some (i.accept d))).handOut p (i.accept d) d =
      v.setInbox p (some (.holding d)) := by
  rw [handOut, Inbox.handOut_accept empty, setInbox_setInbox, giveUp]

/-- Releasing a delivery that is held alone clears the slot of its sender. -/
theorem release_holding : (v.setInbox p (some (.holding d))).release p (.holding d) =
    (v.setInbox p (some (.spent d))).clear d.sender d.len := by
  rw [release, Inbox.release_holding, setInbox_setInbox, giveUp]

end View

namespace Network

variable {net : Network} {l : Layout} {v : View} {records : PeerId → Option Endpoint}
  {p a : PeerId} {i : Inbox} {r : Endpoint} {w : DoorbellWord}

/-- A network is well-formed and has this view and these bare records. -/
structure Appears (l : Layout) (v : View) (records : PeerId → Option Endpoint) (net : Network) :
    Prop where
  wellFormed : WellFormed l True net
  view : net.view = v
  records : net.bare? = records

/-- A well-formed network appears as it is. -/
theorem WellFormed.appears (wf : WellFormed l True net) : net.Appears l net.view net.bare? :=
  ⟨wf, rfl, rfl⟩

/-- The rings under way are those that appear. -/
theorem Appears.rings (shown : Appears l v records net) : net.rings = v.rings :=
  congrArg View.rings shown.view

/-- What is staged is what appears. -/
theorem Appears.staged (shown : Appears l v records net) (a : PeerId) :
    net.staged a = v.staged a :=
  congrFun (congrArg View.staged shown.view) a

/-- The inboxes are those that appear. -/
theorem Appears.inbox (shown : Appears l v records net) (p : PeerId) :
    net.inbox? p = v.inbox p :=
  congrFun (congrArg View.inbox shown.view) p

/-- An endpoint is its inbox and its bare record. -/
theorem Appears.exists_endpoint (shown : Appears l v records net) (here : v.inbox p = some i)
    (record : records p = some r) :
    ∃ e, net.endpoint? p = some e ∧ e.inbox = i ∧ e.bare = r := by
  obtain ⟨-, rfl, rfl⟩ := shown
  obtain ⟨e, he, rfl⟩ := exists_of_inbox? here
  obtain ⟨e', he', rfl⟩ := exists_of_bare? record
  obtain rfl := Option.some.inj (he.symm.trans he')
  exact ⟨e, he, rfl, rfl⟩

/-- An inbox that appears is that of an endpoint. -/
theorem Appears.exists_inbox (shown : Appears l v records net) (here : v.inbox p = some i) :
    ∃ e, net.endpoint? p = some e ∧ e.inbox = i := by
  obtain ⟨-, rfl, -⟩ := shown
  exact exists_of_inbox? here

/-! ### Sending -/

/-- What is admitted is sent. -/
theorem WellFormed.send_of_admits (wf : WellFormed l True net) {e : Endpoint}
    (fits : e.Fits l True a) {dest : Destination} {message : List UInt8} {target : UInt64}
    (admits : net.view.Admits l ⟨a, dest, message⟩ target) (busyPeers : List PeerId)
    (mode : WaitMode) (free : mode = .spin → a ∉ busyPeers) :
    (net.send .queue busyPeers e mode dest message).1 = .ok message.length ∧
      WellFormed l True (net.send .queue busyPeers e mode dest message).2 ∧
      (net.send .queue busyPeers e mode dest message).2.view = net.view.post a target message := by
  have seat : e.Seated l a := ⟨fits.peer, fits.layout, fits.owner⟩
  obtain ⟨wf', sends⟩ := wf.send fits busyPeers mode dest message
  -- the checks of the send are those that were passed
  have admitted : e.admit dest message = .ok target := by
    unfold Endpoint.admit
    rw [seat.layout, admits.resolved]
    simp only [admits.nonempty, if_false, if_neg (Nat.not_le.mpr admits.short)]
  have idle : ¬ net.Wedged busyPeers e mode := by
    rintro (⟨spin, there⟩ | busy)
    · exact free spin (seat.peer ▸ there)
    · rw [seat.slot_eq, ← wf.layout] at busy
      exact busy admits.idle
  have ok : (net.send .queue busyPeers e mode dest message).1 = .ok message.length := by
    simp only [Network.send, admitted, if_neg idle]
  refine ⟨ok, wf', ?_⟩
  rw [ok] at sends
  generalize (net.send .queue busyPeers e mode dest message).2.view = u at sends
  generalize same : Except.ok message.length = result at sends
  cases sends with
  | refused => cases same
  | posted admits' =>
    cases admits.resolved.symm.trans admits'.resolved
    rfl

/-- A message is admitted and sent. -/
theorem Appears.send (shown : Appears l v records net) (here : v.inbox a = some i)
    {dest : Destination} {message : List UInt8} {target : UInt64}
    (admits : v.Admits l ⟨a, dest, message⟩ target) (mode : WaitMode) :
    (net.perform .queue (.send a mode dest message)).1 = .sent (.ok message.length) ∧
      Appears l (v.post a target message) records
        (net.perform .queue (.send a mode dest message)).2 := by
  obtain ⟨e, he, -⟩ := shown.exists_inbox here
  obtain ⟨wf, rfl, rfl⟩ := shown
  obtain ⟨ok, wf', view⟩ := wf.send_of_admits (wf.fits a e he) admits [] mode (by simp)
  simp only [Network.perform, actAs, he, ok, true_and]
  exact ⟨wf', view, net.bare?_send [] e mode dest message⟩

/-! ### Arrivals -/

/-- A message that is left for the consumer becomes pending. -/
theorem WellFormed.dispatch_plain (wf : WellFormed l True net) {f : Endpoint}
    (hf : net.endpoint? p = some f) (owner : l.HasSlot a.toUInt64)
    (busy : (net.view.staged a).len ≠ 0) (plain : ¬ Link.IsRequest (net.view.staged a).message)
    {d : Delivery} (fresh : f.inbox.fresh? a (net.view.staged a).len = some d) :
    Appears l (net.view.install p f.inbox d) net.bare?
      (net.dispatch .queue [] f a (l.slotAt a)).2 := by
  have there : (l.slotAt a).staged net.memory = net.view.staged a := by
    rw [staged_view, Network.staged, wf.layout]
  obtain ⟨wf', handles⟩ := wf.dispatch hf [] owner
  have dispatched : net.dispatch .queue [] f a (l.slotAt a) = _ :=
    dispatch_of_plain .queue [] (there ▸ busy) (there ▸ plain)
  refine ⟨wf', ?_, ?_⟩
  · -- of all that may come of an interrupt, this is the only possibility
    have left := congrArg Prod.fst dispatched
    rw [there, fresh] at left
    rw [left] at handles
    generalize (net.dispatch .queue [] f a (l.slotAt a)).2.view = u at handles ⊢
    cases handles
    rfl
  · rw [dispatched]
    exact (bare?_install _ _ _ _).trans (bare?_stampSender _ _ _)

/-- A request is answered at once, if the answer may be sent. -/
theorem WellFormed.dispatch_request (wf : WellFormed l True net) {f : Endpoint}
    (hf : net.endpoint? p = some f) (busy : (net.view.staged a).len ≠ 0)
    {identity : Link.Identity} {answer : List UInt8}
    (response : Link.respond f.identity (net.view.staged a).message = some (identity, answer))
    {target : UInt64} (admits : (net.view.clear a (net.view.staged a).len).Admits l
      ⟨p, .peer a, answer⟩ target) :
    Appears l ((net.view.clear a (net.view.staged a).len).post p target answer)
      (Function.update net.bare? p (some { f.bare with identity := identity }))
      (net.dispatch .queue [] f a (l.slotAt a)).2 := by
  have there : (l.slotAt a).staged net.memory = net.view.staged a := by
    rw [staged_view, Network.staged, wf.layout]
  have fits := wf.fits p f hf
  rw [dispatch_of_request _ _ (there ▸ busy) (there ▸ response)]
  obtain ⟨cleared, shown⟩ := wf.acknowledge f a identity
  have records := (net.stampSender (l.slotAt a) a).bare?_acknowledge f (l.slotAt a) identity
  rw [bare?_stampSender, fits.peer, bare?_of_endpoint? hf, Option.map_some] at records
  generalize (net.stampSender (l.slotAt a) a).acknowledge f (l.slotAt a) identity = mid
    at cleared shown records
  rw [← shown] at admits
  obtain ⟨ok, wf', view⟩ := cleared.send_of_admits fits admits [] .spin (by simp)
  -- the answer is sent, so that no failure is counted
  have replied : (mid.reply .queue [] f a answer).2 =
      (mid.send .queue [] f .spin (.peer a) answer).2 := by
    unfold Network.reply
    split
    next outcome => rw [outcome]
    next outcome =>
      rw [outcome] at ok
      cases ok
  simp only [replied]
  exact ⟨wf', by rw [view, shown], by rw [bare?_send, records]⟩

/-- The oldest ring reaches an endpoint that knows its sender. -/
theorem deliver_of_knows (wf : WellFormed l True net) {rest : List DoorbellWord}
    (rings : net.rings = .new a p :: rest) {f : Endpoint} (hf : net.endpoint? p = some f)
    (knows : f.Knows a) (owner : l.HasSlot a.toUInt64) :
    (net.perform .queue (.deliver 0)).2 =
      ((net.dequeue 0).dispatch .queue [] f a (l.slotAt a)).2 := by
  obtain ⟨listening, vector, raised, behind⟩ := knows
  have slot : f.slotOf? a = some (l.slotAt a) := by
    rw [Endpoint.slotOf?, (wf.fits _ f hf).layout, Layout.slot?_of_hasSlot wf.valid owner]
  have there : (net.dequeue 0).endpoint? p = some f := hf
  have first : net.rings[0]? = some (.new a p) := by rw [rings, List.getElem?_cons_zero]
  simp only [Network.perform, deliver?_of_ring first]
  simp only [raise, DoorbellWord.origin_new, DoorbellWord.dest_new, there, listening, raised,
    interrupt, behind, slot, if_true]

/-- A ring off the queue leaves the network well-formed. -/
theorem WellFormed.dequeue (wf : WellFormed l True net) (place : Nat) :
    WellFormed l True (net.dequeue place) :=
  ⟨wf.layout, wf.valid, wf.fits⟩

/-- The message of the oldest ring becomes pending, and its slot is stamped. -/
theorem Appears.deliver_plain (shown : Appears l v records net) {rest : List DoorbellWord}
    (rings : v.rings = .new a p :: rest) (here : v.inbox p = some i) (record : records p = some r)
    (knows : r.Knows a) (owner : l.HasSlot a.toUInt64) (busy : (v.staged a).len ≠ 0)
    (plain : ¬ Link.IsRequest (v.staged a).message) {d : Delivery}
    (fresh : i.fresh? a (v.staged a).len = some d) :
    Appears l ((v.drop 0).install p i d) records (net.perform .queue (.deliver 0)).2 ∧
      l.Stamped a (net.perform .queue (.deliver 0)).2.memory := by
  obtain ⟨f, hf, rfl, rfl⟩ := shown.exists_endpoint here record
  obtain ⟨wf, rfl, rfl⟩ := shown
  rw [deliver_of_knows wf rings hf (knows.of_bare rfl) owner]
  exact ⟨(wf.dequeue 0).dispatch_plain hf owner busy plain fresh,
    (net.dequeue 0).stamped_dispatch wf.valid (wf.seated.seats _ f hf) [] a⟩

/-- The request of the oldest ring is answered at once. -/
theorem Appears.deliver_request (shown : Appears l v records net) {rest : List DoorbellWord}
    (rings : v.rings = .new a p :: rest) (here : v.inbox p = some i) (record : records p = some r)
    (knows : r.Knows a) (owner : l.HasSlot a.toUInt64) (busy : (v.staged a).len ≠ 0)
    {identity : Link.Identity} {answer : List UInt8}
    (response : Link.respond r.identity (v.staged a).message = some (identity, answer))
    {target : UInt64} (admits : ((v.drop 0).clear a (v.staged a).len).Admits l
      ⟨p, .peer a, answer⟩ target) :
    Appears l (((v.drop 0).clear a (v.staged a).len).post p target answer)
      (Function.update records p (some { r with identity := identity }))
      (net.perform .queue (.deliver 0)).2 := by
  obtain ⟨f, hf, rfl, rfl⟩ := shown.exists_endpoint here record
  obtain ⟨wf, rfl, rfl⟩ := shown
  rw [deliver_of_knows wf rings hf (knows.of_bare rfl) owner]
  exact (wf.dequeue 0).dispatch_request hf busy response admits

/-! ### Receiving -/

/-- A wait takes the pending delivery in hand, whose message is what lies in the slot of its
    sender. -/
theorem Appears.await (shown : Appears l v records net) (here : v.inbox p = some i) {d : Delivery}
    (pending : i.pending = some d) (patience : Patience) :
    (net.perform .queue (.await p patience)).1 =
        .received (.ok ⟨d.sender, l.slotAt d.sender, d.len.toNat⟩) ∧
      Appears l (v.handOut p i d) records (net.perform .queue (.await p patience)).2 := by
  obtain ⟨e, he, rfl⟩ := shown.exists_inbox here
  obtain ⟨wf, rfl, rfl⟩ := shown
  obtain ⟨wf', ok, view⟩ := wf.await he pending patience
  simp only [Network.perform, actAs, he, ok, true_and]
  exact ⟨wf', view, net.bare?_await e patience⟩

/-- A wait for nothing. -/
theorem Appears.await_of_none (shown : Appears l v records net) (here : v.inbox p = some i)
    (pending : i.pending = none) (patience : Patience) :
    net.perform .queue (.await p patience) = (.received (.error patience.fault), net) := by
  obtain ⟨e, he, rfl⟩ := shown.exists_inbox here
  simp only [Network.perform, actAs, he, Network.await_of_none pending]

/-- A wait changes nothing about the rings under way. -/
theorem rings_await (net : Network) (p : PeerId) (patience : Patience) :
    (net.perform .queue (.await p patience)).2.rings = net.rings := by
  have given : ∀ (net : Network) e o, (net.clearGivenUp e o).rings = net.rings := by
    intro net e o
    cases o with
    | none => rfl
    | some d => exact rings_clearSender net e d
  simp only [Network.perform, actAs]
  rcases net.endpoint? p with _ | e
  · rfl
  · simp only [Network.await]
    split
    · rfl
    · split <;> simp only [given, rings_update]

/-- A wait leaves stamps. -/
theorem Seated.stamped_await (seated : net.Seated l) (stamped : l.Stamped a net.memory)
    (p : PeerId) (patience : Patience) :
    l.Stamped a (net.perform .queue (.await p patience)).2.memory := by
  have kept : Memory.KeepsStamps l net.memory
      (net.perform .queue (.await p patience)).2.memory :=
    keepsStamps_actAs fun e he =>
      net.keepsStamps_await seated.valid (seated.seats p e he) patience
  exact kept a stamped

/-- A release gives up the delivery in hand, or the pending one. -/
theorem Appears.release (shown : Appears l v records net) (here : v.inbox p = some i) :
    (net.perform .queue (.release p)).1 = .answered i.release.2.isSome ∧
      Appears l (v.release p i) records (net.perform .queue (.release p)).2 := by
  obtain ⟨e, he, rfl⟩ := shown.exists_inbox here
  obtain ⟨wf, rfl, rfl⟩ := shown
  obtain ⟨wf', ok, view⟩ := wf.release he
  simp only [Network.perform, actAs, he, ok, true_and]
  exact ⟨wf', view, net.bare?_release e⟩

/-- A delivery that has arrived at an empty inbox is taken in hand. -/
theorem Appears.take {d : Delivery} (shown : Appears l (v.install p i d) records net)
    (empty : i.IsEmpty) (patience : Patience) :
    (net.perform .queue (.await p patience)).1 =
        .received (.ok ⟨d.sender, l.slotAt d.sender, d.len.toNat⟩) ∧
      Appears l (v.setInbox p (some (.holding d))) records
        (net.perform .queue (.await p patience)).2 := by
  rw [View.install_of_isEmpty v empty] at shown
  obtain ⟨received, taken⟩ := shown.await (v.inbox_setInbox_self p _) rfl patience
  exact ⟨received, by rwa [View.handOut_of_isEmpty v empty] at taken⟩

/-- And then it is released, which leaves the inbox empty again. -/
theorem Appears.putBack {d : Delivery} (shown : Appears l (v.setInbox p (some (.holding d)))
    records net) : (net.perform .queue (.release p)).1 = .answered true ∧
      Appears l ((v.setInbox p (some (.spent d))).clear d.sender d.len) records
        (net.perform .queue (.release p)).2 := by
  obtain ⟨released, given⟩ := shown.release (v.inbox_setInbox_self p _)
  exact ⟨released, by rwa [View.release_holding] at given⟩

/-- The message of a delivery is what lies in the slot of its sender. -/
theorem Appears.payload (shown : Appears l v records net) (a : PeerId) (len : Nat) :
    Incoming.payload ⟨a, l.slotAt a, len⟩ net.memory = (v.staged a).area.take len := by
  obtain ⟨wf, rfl, -⟩ := shown
  rw [Incoming.payload, Slot.payload_eq_take, staged_view, Network.staged, wf.layout]

/-! ### Settling -/

/-- All rings are delivered in some number of deliveries. -/
theorem drain_settle (net : Network) : ∃ count, net.Drain count net.settle :=
  drain_deliverMany _ net

/-- Where no ring is under way nothing is left to settle. -/
theorem settle_of_nil (none : net.rings = []) : net.settle = net := by
  obtain ⟨_, drain⟩ := net.drain_settle
  exact drain.eq_of_rings none

/-- Where one ring is under way, it is delivered first. -/
theorem Drain.perform {after : Network} {count : Nat} (drain : net.Drain count after)
    (one : net.rings = [w]) (all : after.rings = []) :
    ∃ rest, (net.perform .queue (.deliver 0)).2.Drain rest after := by
  obtain ⟨rest, drain⟩ := drain.deliver one all
  have first : net.rings[0]? = some w := by rw [one, List.getElem?_cons_zero]
  refine ⟨rest, ?_⟩
  simpa only [Network.perform, deliver?_of_ring first] using drain

/-- A ring that leads to no answer. -/
theorem settle_of_one (wf : WellFormed l True net) (one : net.rings = [w])
    (none : (net.perform .queue (.deliver 0)).2.rings = []) :
    net.settle = (net.perform .queue (.deliver 0)).2 := by
  obtain ⟨_, drain⟩ := net.drain_settle
  obtain ⟨_, rest⟩ := drain.perform one wf.seated.rings_settle
  exact rest.eq_of_rings none

/-- A message for the consumer whose ring is the only one. -/
theorem Appears.settle_plain (shown : Appears l v records net) (one : v.rings = [.new a p])
    (here : v.inbox p = some i) (record : records p = some r) (knows : r.Knows a)
    (owner : l.HasSlot a.toUInt64) (busy : (v.staged a).len ≠ 0)
    (plain : ¬ Link.IsRequest (v.staged a).message) {d : Delivery}
    (fresh : i.fresh? a (v.staged a).len = some d) :
    net.settle = (net.perform .queue (.deliver 0)).2 ∧
      Appears l ((v.drop 0).install p i d) records net.settle ∧ l.Stamped a net.settle.memory := by
  obtain ⟨arrived, stamped⟩ := shown.deliver_plain one here record knows owner busy plain fresh
  have silent : ((v.drop 0).install p i d).rings = [] := by
    rw [View.install, View.rings_giveUp, View.rings_setInbox, View.rings_drop, one]
    rfl
  have settled := settle_of_one shown.wellFormed (shown.rings.trans one)
    (arrived.rings.trans silent)
  rw [settled]
  exact ⟨rfl, arrived, stamped⟩

/-- A ring that leads to the ring of an answer. -/
theorem settle_of_two (wf : WellFormed l True net) (one : net.rings = [w]) {w' : DoorbellWord}
    (again : (net.run .queue [.deliver 0]).rings = [w'])
    (none : (net.run .queue [.deliver 0, .deliver 0]).rings = []) :
    net.settle = net.run .queue [.deliver 0, .deliver 0] := by
  obtain ⟨_, drain⟩ := net.drain_settle
  obtain ⟨_, rest⟩ := drain.perform one wf.seated.rings_settle
  obtain ⟨_, rest⟩ := rest.perform again wf.seated.rings_settle
  exact rest.eq_of_rings none

/-- The message of the only ring arrives at an empty inbox and is taken there. -/
structure Fetches (l : Layout) (v : View) (records : PeerId → Option Endpoint) (i : Inbox)
    (p : PeerId) (d : Delivery) (patience : Patience) (net : Network) : Prop where
  arrived : Appears l ((v.drop 0).setInbox p (some (i.accept d))) records
    (net.perform .queue (.deliver 0)).2
  settled : net.settle = (net.perform .queue (.deliver 0)).2
  received : ((net.perform .queue (.deliver 0)).2.perform .queue (.await p patience)).1 =
    .received (.ok ⟨d.sender, l.slotAt d.sender, d.len.toNat⟩)
  taken : Appears l ((v.drop 0).setInbox p (some (.holding d))) records
    ((net.perform .queue (.deliver 0)).2.perform .queue (.await p patience)).2
  stamped : l.Stamped d.sender
    ((net.perform .queue (.deliver 0)).2.perform .queue (.await p patience)).2.memory

/-- The only ring under way brings a message to an empty inbox, from where it is fetched. -/
theorem Appears.fetches (shown : Appears l v records net) (one : v.rings = [.new a p])
    (here : v.inbox p = some i) (empty : i.IsEmpty) (record : records p = some r)
    (knows : r.Knows a) (owner : l.HasSlot a.toUInt64) (busy : (v.staged a).len ≠ 0)
    (plain : ¬ Link.IsRequest (v.staged a).message) (patience : Patience) :
    Fetches l v records i p ⟨a, (v.staged a).len, i.generation + 1⟩ patience net := by
  have fresh : i.fresh? a (v.staged a).len = some ⟨a, (v.staged a).len, i.generation + 1⟩ :=
    Inbox.fresh?_eq_some.mpr ⟨by simp [empty.1], rfl⟩
  obtain ⟨settled, arrived, stamped⟩ :=
    shown.settle_plain one here record knows owner busy plain fresh
  rw [settled] at arrived stamped
  obtain ⟨received, taken⟩ := arrived.take empty patience
  rw [View.install_of_isEmpty _ empty] at arrived
  exact ⟨arrived, settled, received, taken,
    arrived.wellFormed.seated.stamped_await stamped p patience⟩

end Network

end SharedMailbox
