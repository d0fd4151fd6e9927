import SharedMailbox.Proofs.Story

namespace SharedMailbox

/-!
# Steps of a view

All that ever happens to the view of a network, as a step relation that tells a story.

* `Rules`: what the surroundings may do; `View.Arrival`: how a ring gets to its destination.
* `View.Step`, `View.Path`: one step, and a chain of steps.
* `View.Path.invariant`: what steps preserve, chains preserve.
* `WellFormed.perform`, `WellFormed.run`: every action, and every run, is a chain of steps that
  tells its story.
-/

/-! ### Steps -/

/-- What the surroundings of the endpoints may do. -/
structure Rules where
  /-- Rings that nobody sent may arrive. -/
  stray : Prop
  /-- When a peer may claim its slot. -/
  claim : View → PeerId → Prop

namespace View

/-- A ring of `a` gets to `p`: it is taken off the queue, or it is one that nobody sent. -/
inductive Arrival (stray : Prop) (v : View) (p a : PeerId) : View → Prop
  | ring {place : Nat} {w : DoorbellWord} (found : v.rings[place]? = some w)
      (origin : w.origin = a) (dest : w.dest = p) : Arrival stray v p a (v.drop place)
  | stray (h : stray) : Arrival stray v p a v

/-- One step of a view and its story. -/
inductive Step (l : Layout) (r : Rules) (v : View) : Story → View → Prop
  /-- A peer claims its slot. -/
  | occupy {p : PeerId} (claim : r.claim v p) : Step l r v [.attached p] (v.occupy p l.maxPayload)
  /-- An endpoint is dropped. -/
  | forget (p : PeerId) : Step l r v [] (v.setInbox p none)
  /-- An endpoint sends. -/
  | post {s : Sent} {target : UInt64} (here : v.inbox s.origin ≠ none)
      (admits : v.Admits l s target) : Step l r v [.sent s] (v.post s.origin target s.message)
  /-- A ring is lost. -/
  | lose (place : Nat) : Step l r v [] (v.drop place)
  /-- A link request is marked consumed. -/
  | answer {p a : PeerId} {u : View} (arrival : v.Arrival r.stray p a u)
      (busy : (v.staged a).len ≠ 0) (request : Link.IsRequest (v.staged a).message) :
      Step l r v [] (u.clear a (v.staged a).len)
  /-- A message becomes the pending delivery. -/
  | install {p a : PeerId} {u : View} {i : Inbox} {d : Delivery}
      (arrival : v.Arrival r.stray p a u) (here : v.inbox p = some i)
      (busy : (v.staged a).len ≠ 0) (plain : ¬ Link.IsRequest (v.staged a).message)
      (fresh : i.fresh? a (v.staged a).len = some d) :
      Step l r v (i.onArrival p d) (u.install p i d)
  /-- The consumer takes the pending delivery in hand. -/
  | take {p : PeerId} {i : Inbox} {d : Delivery} (here : v.inbox p = some i)
      (pending : i.pending = some d) : Step l r v [.taken p d (i.handOut d).2] (v.handOut p i d)
  /-- The consumer gives up a delivery. -/
  | release {p : PeerId} {i : Inbox} {d : Delivery} (here : v.inbox p = some i)
      (given : i.release.2 = some d) : Step l r v [.released p d] (v.release p i)

/-- A chain of steps and its story. -/
inductive Path (l : Layout) (r : Rules) : View → Story → View → Prop
  | nil (v : View) : Path l r v [] v
  | cons {v u w : View} {first rest : Story} (step : Step l r v first u)
      (path : Path l r u rest w) : Path l r v (first ++ rest) w

variable {l : Layout} {r : Rules} {v u w : View}

/-- One step is a chain of steps. -/
theorem Step.path {story : Story} (step : Step l r v story u) : Path l r v story u := by
  simpa using Path.cons step (.nil u)

/-- A chain of steps goes on with another one. -/
theorem Path.trans {first second : Story} (h : Path l r v first u) (h' : Path l r u second w) :
    Path l r v (first ++ second) w := by
  induction h with
  | nil => exact h'
  | cons step _ ih =>
    rw [List.append_assoc]
    exact .cons step (ih h')

/-- What every step preserves, together with the story up to it, every chain of steps does. -/
theorem Path.invariant (before : Story) {I : Story → View → Prop}
    (preserved : ∀ {before story : Story} {v u : View}, Step l r v story u → I before v →
      I (before ++ story) u) {story : Story} (path : Path l r v story u) (start : I before v) :
    I (before ++ story) u := by
  induction path generalizing before with
  | nil => simpa using start
  | cons step _ ih =>
    rw [← List.append_assoc]
    exact ih _ (preserved step start)

/-- A ring on its way changes neither slots nor inboxes. -/
theorem Arrival.staged_eq {stray : Prop} {p a : PeerId} (h : v.Arrival stray p a u) :
    u.staged = v.staged := by
  cases h <;> rfl

/-- A ring that arrives has not touched an inbox yet. -/
theorem Arrival.inbox_eq {stray : Prop} {p a : PeerId} (h : v.Arrival stray p a u) :
    u.inbox = v.inbox := by
  cases h <;> rfl

/-- A ring that arrives is taken from those under way, and none is added. -/
theorem Arrival.sublist {stray : Prop} {p a : PeerId} (h : v.Arrival stray p a u) :
    u.rings.Sublist v.rings := by
  cases h with
  | ring => exact List.eraseIdx_sublist _ _
  | stray => exact .refl _

/-- Where no stray rings are, a ring that arrives was under way. -/
theorem Arrival.exists_ring {stray : Prop} (calm : ¬ stray) {p a : PeerId}
    (h : v.Arrival stray p a u) : ∃ w ∈ v.rings, w.origin = a := by
  cases h with
  | ring found origin => exact ⟨_, List.mem_of_getElem? found, origin⟩
  | stray h => exact absurd h calm

/-- A send is a step, if anything shows of it. -/
theorem Sends.path {s : Sent} {result : Except MessageError Nat} (h : v.Sends l s result u)
    (here : v.inbox s.origin ≠ none) :
    Path l r v (s.events result) u := by
  cases h with
  | refused => exact .nil v
  | posted admits => exact (Step.post here admits).path

/-- A ring that arrives and does nothing. -/
theorem Arrival.path {p a : PeerId} (h : v.Arrival r.stray p a u) : Path l r v [] u := by
  cases h with
  | ring => exact (Step.lose _).path
  | stray => exact .nil v

/-- An interrupt is at most two steps: a request is marked consumed, and answered. -/
theorem Handles.path {p a : PeerId} {i : Inbox} {receipt : Receipt}
    (arrival : v.Arrival r.stray p a u) (here : v.inbox p = some i)
    (handles : u.Handles l p i a receipt w) : Path l r v (receipt.events i p) w := by
  -- the view that handles the interrupt has the slots of the one before the ring arrived
  have staged := arrival.staged_eq
  cases handles with
  | slotless | spurious | waiting => exact arrival.path
  | @answered answer result w busy request sends =>
    rw [staged] at busy request sends
    have stays : (u.clear a (v.staged a).len).inbox p ≠ none := by
      rw [inbox_clear, arrival.inbox_eq, here]
      exact Option.some_ne_none i
    exact Path.cons (.answer arrival busy request) (sends.path stays)
  | installed _ busy plain fresh =>
    rw [staged] at busy plain fresh
    exact (Step.install arrival here busy plain fresh).path

/-- A consumer that is done gives up at most one delivery. -/
theorem release_path {p : PeerId} {i : Inbox} (here : v.inbox p = some i) :
    Path l r v (i.onRelease p) (v.release p i) := by
  rcases given : i.release.2 with _ | d
  · -- there was nothing to give up, and the inbox is as before
    have same : i.release.1 = i := by
      unfold Inbox.release at given ⊢
      split at given
      next => cases given
      next idle =>
        cases i
        simp_all
    simp only [Inbox.onRelease, given, View.release, same, setInbox_self v here]
    exact .nil v
  · simp only [Inbox.onRelease, given]
    exact (Step.release here given).path

/-- A consumer reads a frame in one step or two: it takes the delivery in hand and gives it up. -/
theorem Reads.path {p : PeerId} {i : Inbox} {d : Delivery} {result : Except MessageError Nat}
    (here : v.inbox p = some i) (pending : i.pending = some d) (reads : v.Reads p i d result w) :
    Path l r v (i.onReading p result) w := by
  have taking : i.onTaking p = [.taken p d (i.handOut d).2] := by simp [Inbox.onTaking, pending]
  cases reads with
  | refused fault =>
    simp only [Inbox.onReading, pending, taking]
    exact (Step.take here pending).path
  | read total =>
    simp only [Inbox.onReading, pending, taking]
    have there : (v.handOut p i d).inbox p = some (i.handOut d).1 := by simp [handOut]
    exact .cons (.take here pending) (release_path there)

end View

/-! ### Actions and runs -/

namespace Network

variable {net : Network} {l : Layout} {r : Rules}

/-- An action keeps to the rules: it brings in no stray ring and no table with repeats unless they
    are reckoned with, and a peer attaches only when it may claim its slot. -/
structure Abides (r : Rules) (net : Network) (action : Action) : Prop where
  orderly : r.stray ∨ action.Orderly
  claim : ∀ p, .attached p ∈ net.events action → r.claim net.view p

/-- An endpoint acts, if the peer has one. -/
theorem WellFormed.actAs (wf : WellFormed l r.stray net) {p : PeerId}
    {act : Endpoint → Outcome × Network} {action : Action} (absent : net.tell action .absent = [])
    (acts : ∀ e, net.endpoint? p = some e → WellFormed l r.stray (act e).2 ∧
      net.view.Path l r (net.tell action (act e).1) (act e).2.view) :
    WellFormed l r.stray (net.actAs p act).2 ∧
      net.view.Path l r (net.tell action (net.actAs p act).1) (net.actAs p act).2.view := by
  unfold Network.actAs
  rcases he : net.endpoint? p with _ | e
  · rw [absent]
    exact ⟨wf, .nil _⟩
  · exact acts e he

/-- An endpoint of a peer is an inbox in the view. -/
theorem inbox_ne_none {p : PeerId} {e : Endpoint} (he : net.endpoint? p = some e) :
    net.view.inbox p ≠ none := by
  simp [inbox?_of_endpoint? he]

/-- A ring reaches its destination in a chain of steps, if it can arrive there as one of whatever
    peer it is taken for. -/
theorem raises_path {u w : View} {ring : DoorbellWord} {result : RingResult}
    (same : u.inbox = net.view.inbox)
    (arrives : ∀ a, r.stray ∨ a = ring.origin →
      ∃ v, net.view.Path l r [] v ∧ v.Arrival r.stray ring.dest a u)
    (unmoved : net.view.Path l r [] u) (raises : u.Raises l r.stray ring result w) :
    net.view.Path l r (net.onInbox ring.dest (result.events · ring.dest)) w := by
  cases raises with
  | unattached | noVector | foreign =>
    simp only [RingResult.events, Handling.events, onInbox_nil]
    exact unmoved
  | reached here origin handles =>
    obtain ⟨v, moved, arrival⟩ := arrives _ origin
    have there := here
    rw [same] at there
    rw [onInbox_eq there]
    rw [arrival.inbox_eq] at here
    exact moved.trans (handles.path arrival here)

/-- Every action is a chain of steps that tells its story. -/
theorem WellFormed.perform (wf : WellFormed l r.stray net) {action : Action}
    (abides : net.Abides r action) :
    WellFormed l r.stray (net.perform .queue action).2 ∧
      net.view.Path l r (net.events action) (net.perform .queue action).2.view := by
  have orderly := abides.orderly
  unfold events
  cases action with
  | attach p vectors config host =>
    have claim := abides.claim p
    simp only [events, Network.perform] at claim ⊢
    rcases made : net.attach net.layout p vectors config host with fault | after
    · exact ⟨wf, .nil _⟩
    · obtain ⟨wf', shown⟩ := wf.attach orderly made
      rw [made] at claim
      simp only [shown]
      exact ⟨wf', (View.Step.occupy (claim (by simp [tell]))).path⟩
  | detach p =>
    obtain ⟨wf', shown⟩ := wf.detach p
    simp only [Network.perform, shown]
    exact ⟨wf', .nil _⟩
  | forget p =>
    obtain ⟨wf', shown⟩ := wf.forget p
    simp only [Network.perform, shown]
    exact ⟨wf', (View.Step.forget p).path⟩
  | send p mode dest message =>
    refine wf.actAs rfl fun e he => ?_
    obtain ⟨wf', sends⟩ := wf.send (wf.fits p e he) [] mode dest message
    exact ⟨wf', sends.path (inbox_ne_none he)⟩
  | requestDump p =>
    obtain rfl := wf.layout
    refine wf.actAs rfl fun e he => ?_
    obtain ⟨wf', sends⟩ := wf.requestDump (wf.fits p e he)
    exact ⟨wf', sends.path (inbox_ne_none he)⟩
  | write p request =>
    refine wf.actAs rfl fun e he => ?_
    obtain ⟨wf', ⟨fault, failed, shown⟩ | ⟨dest, body, target, ok, parsed, admits, shown⟩⟩ :=
      wf.write (wf.fits p e he) request
    · simp only [tell, shown, failed]
      refine ⟨wf', ?_⟩
      split <;> exact .nil _
    · simp only [tell, shown, ok, wf.layout, parsed]
      exact ⟨wf', (View.Step.post (inbox_ne_none he) admits).path⟩
  | deliver place =>
    simp only [Network.perform]
    rcases delivered : net.deliver? place with _ | ⟨ring, result, after⟩
    · exact ⟨wf, .nil _⟩
    · obtain ⟨wf', found, raises⟩ := wf.deliver? delivered
      have lost : net.view.Path l r [] (net.view.drop place) := (View.Step.lose place).path
      refine ⟨wf', raises_path (u := net.view.drop place) rfl (fun a origin => ?_) lost raises⟩
      -- where vectors may repeat, a ring may be taken for one of another peer: it is lost, and a
      -- stray one arrives
      rcases origin with stray | rfl
      · exact ⟨_, lost, .stray stray⟩
      · exact ⟨_, .nil _, .ring found rfl rfl⟩
  | raise ring =>
    have stray := orderly.resolve_right id
    obtain ⟨wf', raises⟩ := wf.raise [] ring
    exact ⟨wf', raises_path rfl (fun a _ => ⟨_, .nil _, .stray stray⟩) (.nil _) raises⟩
  | interrupt p vector =>
    have stray := orderly.resolve_right id
    refine wf.actAs rfl fun e he => ?_
    have here := inbox?_of_endpoint? he
    rcases known : e.vectors.peerFor vector with _ | a
    · obtain ⟨wf', handling, unseen⟩ := wf.interrupt_foreign [] known
      refine ⟨wf', ?_⟩
      simp only [tell, handling, unseen, onInbox_eq here]
      exact .nil _
    · obtain ⟨wf', receipt, handling, handles⟩ := wf.interrupt he [] known
      refine ⟨wf', ?_⟩
      simp only [tell, handling, onInbox_eq here]
      exact handles.path (.stray stray) here
  | await p patience =>
    refine wf.actAs rfl fun e he => ?_
    have here := inbox?_of_endpoint? he
    rcases pending : e.inbox.pending with _ | d
    · rw [await_of_none pending]
      refine ⟨wf, ?_⟩
      simp only [tell, onInbox_eq here, Inbox.onTaking, pending]
      exact .nil _
    · obtain ⟨wf', -, shown⟩ := wf.await he pending patience
      refine ⟨wf', ?_⟩
      simp only [tell, shown, onInbox_eq here, Inbox.onTaking, pending]
      exact (View.Step.take here pending).path
  | release p =>
    refine wf.actAs rfl fun e he => ?_
    have here := inbox?_of_endpoint? he
    obtain ⟨wf', -, shown⟩ := wf.release he
    refine ⟨wf', ?_⟩
    simp only [tell, shown, onInbox_eq here]
    exact View.release_path here
  | read p buffer =>
    refine wf.actAs rfl fun e he => ?_
    have here := inbox?_of_endpoint? he
    rcases pending : e.inbox.pending with _ | d
    · rw [read_of_none pending]
      refine ⟨wf, ?_⟩
      simp only [tell, onInbox_eq here, Inbox.onReading, Inbox.onTaking, pending]
      exact .nil _
    · obtain ⟨wf', reads⟩ := wf.read he pending buffer
      refine ⟨wf', ?_⟩
      simp only [tell, onInbox_eq here]
      exact reads.path here pending
  | setClass p name =>
    refine wf.actAs rfl fun e he => ?_
    obtain ⟨wf', shown⟩ := wf.setClass he name
    simp only [shown]
    exact ⟨wf', .nil _⟩

/-- With stray rings, repeated vectors and claims at any time reckoned with, there is nothing to
    keep to. -/
theorem abides_lax (net : Network) (action : Action) :
    net.Abides ⟨True, fun _ _ => True⟩ action :=
  ⟨.inl trivial, fun _ _ => trivial⟩

/-- A network stays well-formed when stray rings and repeated vectors are reckoned with. -/
theorem WellFormed.lax {stray : Prop} (wf : WellFormed l stray net) : WellFormed l True net :=
  ⟨wf.layout, wf.valid, fun p e he =>
    have fits := wf.fits p e he
    ⟨fits.peer, fits.layout, fits.owner, .inl trivial, fits.refers⟩⟩

/-- The layout never changes. -/
theorem WellFormed.layout_perform {stray : Prop} (wf : WellFormed l stray net) (action : Action) :
    (net.perform .queue action).2.layout = l :=
  (wf.lax.perform (abides_lax net action)).1.layout

/-- Every run is a chain of steps that tells its story. -/
theorem WellFormed.run (wf : WellFormed l r.stray net) {actions : List Action}
    (abides : ∀ before action after, actions = before ++ action :: after →
      (net.run .queue before).Abides r action) :
    WellFormed l r.stray (net.run .queue actions) ∧
      net.view.Path l r (net.story actions) (net.run .queue actions).view := by
  induction actions generalizing net with
  | nil => exact ⟨wf, .nil _⟩
  | cons action rest ih =>
    obtain ⟨wf', path⟩ := wf.perform (abides [] action rest rfl)
    obtain ⟨wf'', path'⟩ := ih wf' fun before a after split =>
      abides (action :: before) a after (by simp [split])
    exact ⟨wf'', path.trans path'⟩

/-- Every run keeps a network well-formed when stray rings and repeated vectors are reckoned
    with. -/
theorem WellFormed.run_lax (wf : WellFormed l True net) (actions : List Action) :
    WellFormed l True (net.run .queue actions) :=
  (WellFormed.run (r := ⟨True, fun _ _ => True⟩) wf fun _ action _ _ => abides_lax _ action).1

/-- A run that goes on is a chain of steps from where it was. -/
theorem WellFormed.run_from (wf : WellFormed l r.stray net) {first second : List Action}
    (abides : ∀ before action after, first ++ second = before ++ action :: after →
      (net.run .queue before).Abides r action) :
    WellFormed l r.stray (net.run .queue first) ∧
      (net.run .queue first).view.Path l r ((net.run .queue first).story second)
        (net.run .queue (first ++ second)).view := by
  -- both parts are runs of their own, whose actions abide where they stand
  have early : ∀ before action after, first = before ++ action :: after →
      (net.run .queue before).Abides r action := fun before action after split =>
    abides before action (after ++ second) (by simp [split])
  have late : ∀ before action after, second = before ++ action :: after →
      ((net.run .queue first).run .queue before).Abides r action := by
    intro before action after split
    rw [← run_append]
    exact abides (first ++ before) action after (by simp [split])
  obtain ⟨wf', -⟩ := wf.run early
  obtain ⟨-, path⟩ := wf'.run late
  rw [run_append]
  exact ⟨wf', path⟩

end Network

end SharedMailbox
