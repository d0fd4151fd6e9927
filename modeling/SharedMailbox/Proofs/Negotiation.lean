import SharedMailbox.Proofs.LinkTexts
import SharedMailbox.Proofs.Outcomes
import SharedMailbox.Proofs.Wiring

namespace SharedMailbox

/-!
# Negotiation

A peer that asks another one gets its answer, and both can ask again. So a peer can be given ids and
posing for them, whatever they are.

* `inquiry`: a request, its delivery and that of the answer, and the wait for it.
* `Network.Poised`, `Poised.exchange`: two peers that are ready; what comes of inquiry.
* `Network.Negotiates`, `Network.negotiates_of_run`: an assignment of ids and a query for them.
-/

/-! ### Exchanges -/

/-- How a peer asks: how it passes the time while its slot drains, which destination it names, and
    how it waits for the answer. -/
structure Manner where
  mode : WaitMode
  dest : Destination
  patience : Patience

/-- A peer sends a request, and all rings are delivered. -/
def posing (q : PeerId) (how : Manner) (request : List UInt8) : List Action :=
  [.send q how.mode how.dest request, .deliver 0, .deliver 0]

/-- A peer asks, waits for the answer, and is done with it. -/
def inquiry (q : PeerId) (how : Manner) (request : List UInt8) : List Action :=
  posing q how request ++ [.await q how.patience, .release q]

namespace Link

/-- Nothing is no request, and answers are something. -/
theorem respond_ne_nil {id id' : Identity} {message answer : List UInt8}
    (response : respond id message = some (id', answer)) : message ≠ [] ∧ answer ≠ [] := by
  constructor
  · rintro rfl
    have nothing : ¬ IsRequest [] := by decide +kernel
    rw [respond_eq_none_iff.mpr nothing] at response
    cases response
  · rintro rfl
    obtain ⟨text, opening, begins⟩ := exists_opening response
    exact opening.spec.1.1 (List.prefix_nil.mp begins)

end Link

namespace Network

variable {net after : Network} {l : Layout} {q p : PeerId} {id id' : Link.Identity}

/-- The inbox of a peer stays as it is along a run. -/
def Undisturbed (net : Network) (p : PeerId) (actions : List Action) : Prop :=
  ∀ before after, actions = before ++ after → (net.run .queue before).inbox? p = net.inbox? p

/-- Nothing disturbs nobody. -/
theorem undisturbed_nil (net : Network) (p : PeerId) : net.Undisturbed p [] := by
  intro before after split
  obtain ⟨rfl, -⟩ := List.append_eq_nil_iff.mp split.symm
  rfl

/-- A run disturbs nobody whom neither its first action nor the rest of it disturbs. -/
theorem undisturbed_cons {action : Action} {rest : List Action}
    (leads : (net.perform .queue action).2 = after) (first : after.inbox? p = net.inbox? p)
    (later : after.Undisturbed p rest) : net.Undisturbed p (action :: rest) := by
  subst leads
  intro before after split
  cases before with
  | nil => rfl
  | cons a before =>
    rw [List.cons_append, List.cons.injEq] at split
    obtain ⟨rfl, rfl⟩ := split
    exact (later before after rfl).trans first

/-- A peer that asks another one gets an answer. -/
structure Exchanges (net : Network) (q p : PeerId) (how : Manner) (request answer : List UInt8) :
    Prop where
  sent : (net.perform .queue (.send q how.mode how.dest request)).1 = .sent (.ok request.length)
  /-- The two deliveries are those of all rings. -/
  settled : (net.run .queue [.send q how.mode how.dest request]).settle =
      net.run .queue (posing q how request) ∧
    (net.run .queue (posing q how request)).rings = []
  received : ∃ incoming,
    ((net.run .queue (posing q how request)).perform .queue (.await q how.patience)).1 =
        .received (.ok incoming) ∧
      incoming.sender = p ∧
      incoming.payload
        (net.run .queue (posing q how request ++ [.await q how.patience])).memory = answer
  released : ((net.run .queue (posing q how request ++ [.await q how.patience])).perform .queue
    (.release q)).1 = .answered true

/-- Two peers know each other, no ring is under way, their slots are idle, and the first one has no
    delivery. The second one has this identity. -/
structure Poised (l : Layout) (q p : PeerId) (id : Link.Identity) (net : Network) : Prop where
  wellFormed : WellFormed l True net
  rings : net.rings = []
  idle : (net.staged q).len = 0 ∧ (net.staged p).len = 0
  asker : ∃ e, net.endpoint? q = some e ∧ e.Knows p ∧ e.inbox.IsEmpty
  answerer : ∃ e, net.endpoint? p = some e ∧ e.Knows q ∧ e.identity = id

/-- Nothing else has changed than two slots, the inbox of the one and the identity of the other. -/
structure Leaves (q p : PeerId) (id : Link.Identity) (net after : Network) : Prop where
  staged : ∀ r, r ≠ q → r ≠ p → after.staged r = net.staged r
  inbox : ∀ r, r ≠ q → after.inbox? r = net.inbox? r
  records : after.bare? =
    Function.update net.bare? p ((net.bare? p).map fun b => { b with identity := id })

/-- The view between a request and the arrival of its answer: the slot of who asked is idle again,
    and the answer is staged and announced. -/
structure Answered (q p : PeerId) (answer : List UInt8) (v w : View) : Prop where
  rings : w.rings = [.new p q]
  idle : (w.staged q).len = 0
  answer : w.staged p = (v.staged p).put q.toUInt64 answer
  staged : ∀ r, r ≠ q → r ≠ p → w.staged r = v.staged r
  inbox : w.inbox = v.inbox

/-- A request is sent and answered at once. -/
theorem Poised.answered (poised : Poised l q p id net) (other : q ≠ p) {how : Manner}
    (resolved : how.dest.resolve l = .ok p.toUInt64) {request answer : List UInt8}
    (response : Link.respond id request = some (id', answer))
    (short : request.length < l.maxPayload ∧ answer.length < l.maxPayload) :
    (net.perform .queue (.send q how.mode how.dest request)).1 = .sent (.ok request.length) ∧
    (∃ v, Appears l v net.bare? (net.run .queue [.send q how.mode how.dest request]) ∧
      v.rings = [.new q p] ∧ v.inbox = net.view.inbox) ∧
    ∃ w, Answered q p answer net.view w ∧
      Appears l w (Function.update net.bare? p
          ((net.bare? p).map fun b => { b with identity := id' }))
        (net.run .queue [.send q how.mode how.dest request, .deliver 0]) := by
  obtain ⟨wf, rings, ⟨idle, idle'⟩, ⟨e, he, -, -⟩, ⟨f, hf, knows, rfl⟩⟩ := poised
  obtain ⟨some, some'⟩ := Link.respond_ne_nil response
  have owner := (wf.fits q e he).owner
  have size := Nat.lt_trans short.1 l.maxPayload_lt
  have here : net.view.inbox q = Option.some e.inbox := inbox?_of_endpoint? he
  have there : net.view.inbox p = Option.some f.inbox := inbox?_of_endpoint? hf
  have record := bare?_of_endpoint? hf
  obtain ⟨sent, shown⟩ := wf.appears.send here ⟨resolved, some, short.1, idle⟩ how.mode
  have staged := net.view.staged_post_self q p.toUInt64 request
  have kept : ∀ r, r ≠ q → (net.view.post q p.toUInt64 request).staged r = net.view.staged r :=
    fun r h => View.staged_post_of_ne _ h _ _
  have announced : (net.view.post q p.toUInt64 request).rings = [.new q p] := by
    rw [View.rings_post, rings_view, rings, List.nil_append, UInt16.toUInt16_toUInt64]
  have busy : ((net.view.post q p.toUInt64 request).staged q).len ≠ 0 := by
    rw [staged]
    exact Staged.len_put_ne_zero size some
  -- the slot of who asked is cleared before the answer is sent, and nobody else's is touched
  have cleared : ∀ r, r ≠ q → (((net.view.post q p.toUInt64 request).drop 0).clear q
      ((net.view.post q p.toUInt64 request).staged q).len).staged r = net.view.staged r :=
    fun r h => (View.staged_clear_of_ne _ h _).trans (kept r h)
  have admits : (((net.view.post q p.toUInt64 request).drop 0).clear q
      ((net.view.post q p.toUInt64 request).staged q).len).Admits l ⟨p, .peer q, answer⟩
        q.toUInt64 :=
    ⟨Destination.resolve_peer wf.valid owner, some', short.2, by
      rw [cleared p (Ne.symm other)]
      exact idle'⟩
  have replied := shown.deliver_request announced there record (knows.of_bare rfl) owner busy
    (by rw [staged, Staged.message_put size]; exact response) admits
  rw [record]
  simp only [run_cons, run_nil]
  refine ⟨sent, ⟨_, shown, announced, rfl⟩, _, ?_, replied⟩
  refine ⟨?_, ?_, ?_, fun r h h' => ?_, rfl⟩
  · rw [View.rings_post, View.rings_clear, View.rings_drop, announced, UInt16.toUInt16_toUInt64]
    rfl
  · rw [View.staged_post_of_ne _ other, View.staged_clear_self]
    exact Staged.len_clear_self
  · rw [View.staged_post_self, cleared p (Ne.symm other)]
  · rw [View.staged_post_of_ne _ h', cleared r h]

/-- The view in the end: the answer is taken and given up. -/
def Answered.final (q p : PeerId) (w : View) (d : Delivery) : View :=
  ((w.drop 0).setInbox q (some (.spent d))).clear p (w.staged p).len

section Answered

variable {answer : List UInt8} {w : View} {d : Delivery}

/-- Once the answer has arrived no ring is under way. -/
theorem Answered.rings_drop (answered : Answered q p answer net.view w) :
    (w.drop 0).rings = [] := by
  rw [View.rings_drop, answered.rings]
  rfl

/-- Whatever becomes of the inbox of who asked, no other one changes. -/
theorem Answered.inbox_setInbox (answered : Answered q p answer net.view w) {r : PeerId}
    (h : r ≠ q) (i : Option Inbox) : ((w.drop 0).setInbox q i).inbox r = net.inbox? r := by
  rw [View.inbox_setInbox_of_ne _ h, View.inbox_drop, answered.inbox, inbox_view]

/-- What an answered request leaves: its two slots, one inbox and one identity have changed. -/
theorem Answered.leaves (answered : Answered q p answer net.view w)
    (shown : Appears l (Answered.final q p w d)
      (Function.update net.bare? p ((net.bare? p).map fun b => { b with identity := id' })) after) :
    Leaves q p id' net after := by
  refine ⟨fun r h h' => ?_, fun r h => ?_, shown.records⟩
  · rw [shown.staged, final, View.staged_clear_of_ne _ h']
    exact answered.staged r h h'
  · rw [shown.inbox, final, View.inbox_clear, answered.inbox_setInbox h]

/-- Both peers are ready again. -/
theorem Answered.poised (answered : Answered q p answer net.view w) (other : q ≠ p)
    (poised : Poised l q p id net)
    (shown : Appears l (Answered.final q p w d)
      (Function.update net.bare? p ((net.bare? p).map fun b => { b with identity := id' })) after) :
    Poised l q p id' after := by
  obtain ⟨-, -, -, ⟨e, he, knows, -⟩, ⟨f, hf, knows', -⟩⟩ := poised
  -- the answer was taken from the slot of one peer, and the request from that of the other
  have idle : (after.staged q).len = 0 := by
    rw [shown.staged, final, View.staged_clear_of_ne _ other]
    exact answered.idle
  have idle' : (after.staged p).len = 0 := by
    rw [shown.staged]
    exact (congrArg Staged.len (View.staged_clear_self _ p _)).trans Staged.len_clear_self
  obtain ⟨e', he', inbox, same⟩ := shown.exists_endpoint (View.inbox_setInbox_self _ q _)
    ((Function.update_of_ne other _ _).trans (bare?_of_endpoint? he))
  obtain ⟨f', hf', -, same'⟩ := shown.exists_endpoint
    ((answered.inbox_setInbox (Ne.symm other) _).trans (inbox?_of_endpoint? hf))
    (by rw [Function.update_self, bare?_of_endpoint? hf]; rfl)
  refine ⟨shown.wellFormed, shown.rings.trans answered.rings_drop, ⟨idle, idle'⟩,
    ⟨e', he', knows.of_bare same, ?_⟩, ⟨f', hf', ?_, ?_⟩⟩
  · rw [inbox]
    exact Inbox.isEmpty_spent d
  · exact Endpoint.Knows.of_bare (e := { f with identity := id' }) knows' same'
  · exact congrArg Endpoint.identity same'

end Answered

/-- **Exchanges.** What a peer asks another one is answered, and afterwards both are ready for the
    next request. -/
theorem Poised.exchange (poised : Poised l q p id net) (other : q ≠ p) {how : Manner}
    (resolved : how.dest.resolve l = .ok p.toUInt64) {request answer : List UInt8}
    (response : Link.respond id request = some (id', answer))
    (short : request.length < l.maxPayload ∧ answer.length < l.maxPayload) :
    net.Exchanges q p how request answer ∧
      net.Undisturbed p (inquiry q how request) ∧
      Poised l q p id' (net.run .queue (inquiry q how request)) ∧
      Leaves q p id' net (net.run .queue (inquiry q how request)) := by
  obtain ⟨sent, ⟨v, shown₁, announced, unread⟩, w, answered, shown₂⟩ :=
    poised.answered other resolved response short
  obtain ⟨-, some⟩ := Link.respond_ne_nil response
  have size := Nat.lt_trans short.2 l.maxPayload_lt
  obtain ⟨e, he, knows, empty⟩ := poised.asker
  obtain ⟨f, hf, -⟩ := poised.answerer
  have here : w.inbox q = Option.some e.inbox := by
    rw [answered.inbox]
    exact inbox?_of_endpoint? he
  have record : Function.update net.bare? p
      ((net.bare? p).map fun b => { b with identity := id' }) q = Option.some e.bare := by
    rw [Function.update_of_ne other, bare?_of_endpoint? he]
  have message : (w.staged p).message = answer := by rw [answered.answer, Staged.message_put size]
  -- the answer arrives at an empty inbox
  obtain ⟨shown₃, -, received, shown₄, -⟩ := shown₂.fetches answered.rings here empty record
    (knows.of_bare rfl) (poised.wellFormed.fits p f hf).owner
    (by rw [answered.answer]; exact Staged.len_put_ne_zero size some)
    (by rw [message]; exact Link.not_isRequest_of_respond response) how.patience
  obtain ⟨released, shown₅⟩ := shown₄.putBack
  simp only [run_cons, run_nil] at shown₁ shown₂ shown₃ shown₄ shown₅ received released
  generalize n₁ : (net.perform .queue (.send q how.mode how.dest request)).2 = net₁ at *
  generalize n₂ : (net₁.perform .queue (.deliver 0)).2 = net₂ at *
  generalize n₃ : (net₂.perform .queue (.deliver 0)).2 = net₃ at *
  generalize n₄ : (net₃.perform .queue (.await q how.patience)).2 = net₄ at *
  generalize n₅ : (net₄.perform .queue (.release q)).2 = net₅ at *
  have arrived : net₃.rings = [] := shown₃.rings.trans answered.rings_drop
  have settled : net₁.settle = net₃ := by
    have again : (net₁.run .queue [.deliver 0]).rings = [.new p q] := by
      rw [run_cons, run_nil, n₂, shown₂.rings, answered.rings]
    have twice : net₁.run .queue [.deliver 0, .deliver 0] = net₃ := by
      simp only [run_cons, run_nil, n₂, n₃]
    rw [← twice] at arrived ⊢
    exact settle_of_two shown₁.wellFormed (shown₁.rings.trans announced) again arrived
  simp only [inquiry, posing, List.cons_append, List.nil_append]
  refine ⟨⟨sent, ?_, ?_, ?_⟩, ?_, ?_⟩
  · simp only [posing, run_cons, run_nil, n₁, n₂, n₃]
    exact ⟨settled, arrived⟩
  · simp only [posing, List.cons_append, List.nil_append, run_cons, run_nil, n₁, n₂, n₃, n₄]
    refine ⟨_, received, rfl, ?_⟩
    rw [shown₄.payload]
    exact message
  · simp only [posing, List.cons_append, List.nil_append, run_cons, run_nil, n₁, n₂, n₃, n₄]
    exact released
  · -- at no time does anything change in the inbox of the other peer
    have waiting := fun i => answered.inbox_setInbox (Ne.symm other) i
    have same₁ : net₁.inbox? p = net.inbox? p := by rw [shown₁.inbox, unread, inbox_view]
    have same₂ : net₂.inbox? p = net.inbox? p := by rw [shown₂.inbox, answered.inbox, inbox_view]
    have same₃ : net₃.inbox? p = net.inbox? p := (shown₃.inbox p).trans (waiting _)
    have same₄ : net₄.inbox? p = net.inbox? p := (shown₄.inbox p).trans (waiting _)
    have same₅ : net₅.inbox? p = net.inbox? p := (shown₅.inbox p).trans (waiting _)
    exact undisturbed_cons n₁ same₁ (undisturbed_cons n₂ (same₂.trans same₁.symm)
      (undisturbed_cons n₃ (same₃.trans same₂.symm) (undisturbed_cons n₄ (same₄.trans same₃.symm)
        (undisturbed_cons n₅ (same₅.trans same₄.symm) (undisturbed_nil _ _)))))
  · simp only [run_cons, run_nil, n₁, n₂, n₃, n₄, n₅]
    exact ⟨answered.poised other poised shown₅, answered.leaves shown₅⟩

/-! ### Vectors for everybody -/

/-- Every action leaves all endpoints equipped. -/
theorem Equipped.perform (equipped : net.Equipped l) (seated : net.Seated l) (action : Action) :
    Equipped l (net.perform .queue action).2 := by
  by_cases comes : action.ComesOrGoes
  · cases action with
    | attach r vectors config host =>
      simp only [Network.perform, seated.layout]
      rcases made : net.attach l r vectors config host with fault | mid
      · exact equipped
      · exact equipped.acts (acts_attach seated.valid made)
    | forget r => exact equipped.acts (acts_forget net l r)
    | _ => exact absurd comes id
  · exact (seated.keeps_perform (Bell.keeps_queue l) comes).vectors
      (P := fun _ t => l.nEvents.toNat ≤ t.size) equipped

/-- Every run leaves all endpoints equipped. -/
theorem Equipped.run (equipped : net.Equipped l) (seated : net.Seated l) (actions : List Action) :
    Equipped l (net.run .queue actions) := by
  induction actions generalizing net with
  | nil => exact equipped
  | cons action rest ih =>
    exact ih (equipped.perform seated action) (seated.perform (Bell.keeps_queue l) action).1

/-! ### Negotiations -/

/-- A peer assigns ids to another one and asks for them. -/
def negotiation (q : PeerId) (how how' : Manner) (w : Link.CtlWrite) : List Action :=
  inquiry q how (Utf8.encode w.text) ++ inquiry q how' (Utf8.encode Link.peerAttribute)

/-- The texts of this are short enough for a slot. -/
def Brief (l : Layout) (w : Link.CtlWrite) (className : String) : Prop :=
  ∀ text ∈ [w.text, Link.standaloneAck w.tag, Link.peerAttribute,
    Link.LinkAck.text ⟨className, w.cid, w.sid⟩], (Utf8.encode text).length < l.maxPayload

instance (l : Layout) (w : Link.CtlWrite) (className : String) : Decidable (Brief l w className) :=
  inferInstanceAs (Decidable (∀ _ ∈ [_, _, _, _], _))

/-- What comes of it when `q` negotiates with `p`, which has this class. -/
structure Negotiates (net : Network) (q p : PeerId) (how how' : Manner) (w : Link.CtlWrite)
    (className : String) : Prop where
  /-- The answer to the assignment bears its tag. -/
  assigned : ∃ answer, net.Exchanges q p how (Utf8.encode w.text) answer ∧
    Link.parseStandaloneAck? answer = some w.tag
  /-- The answer to the query tells the class and the new ids. -/
  told : ∃ answer, Exchanges (net.run .queue (inquiry q how (Utf8.encode w.text))) q p how'
      (Utf8.encode Link.peerAttribute) answer ∧
    Link.LinkAck.parse? answer = some ⟨className, w.cid, w.sid⟩
  identity : ((net.run .queue (negotiation q how how' w)).endpoint? p).map Endpoint.identity =
    some
      { className := className
        cid0 := w.cid
        sid0 := w.sid
        pmcid := -1
        pfmcid := w.pfmcid
        pfmsid := w.pfmsid }
  /-- At no time anything is pending at `p`. -/
  unnoticed : ∀ before after, negotiation q how how' w = before ++ after →
    ∀ i, (net.run .queue before).inbox? p = some i → i.pending = none
  idle : ((net.run .queue (negotiation q how how' w)).staged q).len = 0 ∧
    ((net.run .queue (negotiation q how how' w)).staged p).len = 0

/-- A run that goes on disturbs nobody whom neither part disturbs. -/
theorem Undisturbed.append {first second : List Action} (undisturbed : net.Undisturbed p first)
    (later : (net.run .queue first).Undisturbed p second) :
    net.Undisturbed p (first ++ second) := by
  intro before after split
  rcases List.append_eq_append_iff.mp split with ⟨rest, rfl, rfl⟩ | ⟨rest, rfl, rfl⟩
  · rw [run_append]
    exact (later rest after rfl).trans (undisturbed first [] (List.append_nil _).symm)
  · exact undisturbed before rest rfl

/-- Two peers that are ready negotiate. -/
theorem Poised.negotiates (poised : Poised l q p id net) (other : q ≠ p) {how how' : Manner}
    (addressed : how.dest.resolve l = .ok p.toUInt64 ∧ how'.dest.resolve l = .ok p.toUInt64)
    {i : Inbox} (here : net.inbox? p = some i) (empty : i.pending = none) (w : Link.CtlWrite)
    (plain : ',' ∉ id.className.toList) (brief : Brief l w id.className) :
    net.Negotiates q p how how' w id.className := by
  simp only [Brief, List.mem_cons, List.not_mem_nil, or_false, forall_eq_or_imp, forall_eq]
    at brief
  obtain ⟨assignment, acknowledgment, query, ack⟩ := brief
  -- the second exchange starts from the identity that the first one has assigned
  obtain ⟨exchanges, undisturbed, poised', -⟩ := poised.exchange other addressed.1
    (Link.respond_assignment id w) ⟨assignment, acknowledgment⟩
  obtain ⟨exchanges', undisturbed', poised'', -⟩ := poised'.exchange other addressed.2
    (Link.respond_query (id.assign w)) ⟨query, ack⟩
  have tag := Link.parseStandaloneAck?_text w.tag []
  have told := Link.LinkAck.parse?_text ⟨id.className, w.cid, w.sid⟩ plain Scan.stops_nil
  rw [List.append_nil] at tag told
  refine ⟨⟨_, exchanges, tag⟩, ⟨_, exchanges', told⟩, ?_, ?_, ?_⟩
  · rw [negotiation, run_append]
    obtain ⟨e, he, -, identity⟩ := poised''.answerer
    rw [he, Option.map_some, identity]
    rfl
  · intro before after split j there
    have same := undisturbed.append undisturbed' before after split
    rw [there, here] at same
    exact Option.some.inj same ▸ empty
  · rw [negotiation, run_append]
    exact poised''.idle

variable {storage : Storage} {b : Mailbox}

/-- **Negotiation.** After every run from a new mailbox, whatever ids are assigned and whatever
    class a peer has, as long as it has no comma in it and the texts fit into a slot: another peer
    assigns the ids and asks for them, and both answers tell what was assigned. They are the ids of
    the peer then, nothing becomes pending there, and both can send again. -/
theorem negotiates_of_run (created : Mailbox.create storage l = .ok b) (history : List Action)
    (other : q ≠ p) {e f : Endpoint}
    (he : ((ofMailbox b).run .queue history).endpoint? q = some e)
    (hf : ((ofMailbox b).run .queue history).endpoint? p = some f)
    (listening : e.listening = true ∧ f.listening = true)
    (distinct : e.vectors.NoRepeats ∧ f.vectors.NoRepeats)
    (idle : (((ofMailbox b).run .queue history).staged q).len = 0 ∧
      (((ofMailbox b).run .queue history).staged p).len = 0)
    (empty : e.inbox.IsEmpty ∧ f.inbox.IsEmpty)
    (silent : ((ofMailbox b).run .queue history).rings = []) {how how' : Manner}
    (addressed : how.dest.resolve l = .ok p.toUInt64 ∧ how'.dest.resolve l = .ok p.toUInt64)
    (w : Link.CtlWrite) (plain : ',' ∉ f.identity.className.toList)
    (brief : Brief l w f.identity.className) :
    ((ofMailbox b).run .queue history).Negotiates q p how how' w f.identity.className := by
  have wf := wellFormed_of_run created history
  -- whoever has attached has a vector for every event, so that the two hear each other
  have nobody : (ofMailbox b).Equipped l := by
    intro r e he
    simp [ofMailbox, endpoint?] at he
  have equipped := nobody.run (wellFormed_of_create created : WellFormed l True _).seated history
  have knows := Endpoint.knows_of_noRepeats wf.valid (wf.fits p f hf).owner listening.1 distinct.1
    (equipped q e he)
  have knows' := Endpoint.knows_of_noRepeats wf.valid (wf.fits q e he).owner listening.2 distinct.2
    (equipped p f hf)
  have poised : Poised l q p f.identity ((ofMailbox b).run .queue history) :=
    ⟨wf, silent, idle, ⟨e, he, knows, empty.1⟩, ⟨f, hf, knows', rfl⟩⟩
  exact poised.negotiates other addressed (inbox?_of_endpoint? hf) empty.2.1 w plain brief

/-- Peers 1 and 2 have attached. -/
theorem isSome_joined :
    (((ofMailbox smallMailbox).run .queue [join 1, join 2]).endpoint? 1).isSome ∧
    (((ofMailbox smallMailbox).run .queue [join 1, join 2]).endpoint? 2).isSome := by
  decide +kernel

/-- Peer 1 gives peer 2 the least and the greatest ids that there are. -/
theorem negotiates_of_run_small :
    ((ofMailbox smallMailbox).run .queue [join 1, join 2]).Negotiates 1 2
      ⟨.sleep, .peer 2, .limited⟩ ⟨.spin, .component 200 defaultSid, .calledOff⟩
      ⟨-2147483648, 2147483647, -1, 0, 7⟩ defaultClass := by
  have named : (Option.get _ isSome_joined.2).identity.className = defaultClass := by
    decide +kernel
  rw [← named]
  exact negotiates_of_run (l := smallLayout) create_small
    [join 1, join 2] (by decide) (Option.some_get isSome_joined.1).symm
    (Option.some_get isSome_joined.2).symm (by decide +kernel) (by decide +kernel)
    (by decide +kernel) (by decide +kernel) (by decide +kernel) (by decide) _ (by decide +kernel)
    (by decide +kernel)

end Network

end SharedMailbox
