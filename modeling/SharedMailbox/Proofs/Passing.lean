import SharedMailbox.Proofs.Frames
import SharedMailbox.Proofs.Requests
import SharedMailbox.Proofs.Rest

namespace SharedMailbox

/-!
# Frames are passed on

A peer writes a request, and the peer that it names waits for the message and reads the frame. At
rest this always works, also if both are the same peer, and it ends at rest.

* `passing`: the write, its delivery, the wait and the read.
* `Appears.write`, `Appears.read`: what comes of a write and of a read.
* `Network.Passes`, `AtRest.passes`: what comes of all of it.
-/

/-- A peer writes a request, and another one waits for the message and reads its frame. -/
def passing (a p : PeerId) (request buffer : List UInt8) : List Action :=
  [.write a request, .deliver 0, .await p .limited, .read p buffer]

namespace View

variable (v : View) {p : PeerId} {d : Delivery}

/-- To take what is in hand already changes nothing. -/
theorem handOut_holding : (v.setInbox p (some (.holding d))).handOut p (.holding d) d =
    v.setInbox p (some (.holding d)) := by
  have again : (Inbox.holding d).handOut d = (.holding d, none) := by
    simp [Inbox.handOut, Inbox.holding]
  rw [handOut, again, setInbox_setInbox, giveUp]

end View

namespace Network

variable {net : Network} {l : Layout} {v : View} {records : PeerId → Option Endpoint}
  {p a : PeerId} {i : Inbox} {d : Delivery} {e : Endpoint}

/-! ### Writes -/

/-- A write whose body is admitted sends it. -/
theorem Appears.write (shown : Appears l v records net) (here : v.inbox a = some i)
    {request body : List UInt8} {dest : Destination} {target : UInt64}
    (brief : request.length ≤ l.maxPayload - 2)
    (parsed : Request.parse l request = .ok (dest, body))
    (admits : v.Admits l ⟨a, dest, body⟩ target) :
    (net.perform .queue (.write a request)).1 = .sent (.ok request.length) ∧
      Appears l (v.post a target body) records (net.perform .queue (.write a request)).2 := by
  obtain ⟨e, he, -⟩ := shown.exists_inbox here
  obtain ⟨wf, rfl, rfl⟩ := shown
  have fits := wf.fits a e he
  obtain ⟨ok, wf', view⟩ := wf.send_of_admits fits admits [] .sleep (by simp)
  have written : net.write .queue e request =
      (.ok request.length, (net.send .queue [] e .sleep dest body).2) := by
    rw [write_eq wf.valid (wf.seated.seats a e he) .queue brief parsed]
    rcases outcome : net.send .queue [] e .sleep dest body with ⟨result, after⟩
    rw [outcome] at ok
    obtain rfl : result = .ok body.length := ok
    rfl
  simp only [Network.perform, actAs, he, written, true_and]
  exact ⟨wf', view, net.bare?_send [] e .sleep dest body⟩

/-! ### Reads -/

/-- A delivery in hand is read and released, if there is room for its frame. -/
theorem Appears.read (shown : Appears l (v.setInbox p (some (.holding d))) records net)
    (stamped : l.Stamped d.sender net.memory) (short : d.len.toNat ≤ l.maxPayload)
    {buffer : List UInt8} (room : (net.frame d).length ≤ buffer.length) :
    (∃ filled, (net.perform .queue (.read p buffer)).1 =
        .framed (.ok (net.frame d).length) filled ∧
      filled.take (net.frame d).length = net.frame d) ∧
    Appears l ((v.setInbox p (some (.spent d))).clear d.sender d.len) records
      (net.perform .queue (.read p buffer)).2 := by
  obtain ⟨e, he, inbox⟩ := shown.exists_inbox (v.inbox_setInbox_self p _)
  obtain ⟨wf, view, same⟩ := shown
  have pending : e.inbox.pending = some d := by rw [inbox]; rfl
  obtain ⟨ok, front⟩ : (net.read e buffer).1 = .ok (net.frame d).length ∧
      (net.read e buffer).2.1.take (net.frame d).length = net.frame d := by
    rcases wf.read_frame he pending buffer stamped short with ⟨less, -⟩ | ⟨-, ok, filled⟩
    · exact absurd less (Nat.not_lt.mpr room)
    · exact ⟨ok, by rw [filled, List.take_left]⟩
  obtain ⟨wf', reads⟩ := wf.read he pending buffer
  have records' := net.bare?_read e buffer
  simp only [Network.perform, actAs, he]
  refine ⟨⟨_, by rw [ok], front⟩, wf', ?_, records'.trans same⟩
  rw [ok, view, inbox] at reads
  generalize (net.read e buffer).2.2.view = w at reads ⊢
  cases reads
  -- what is in hand already is taken once more, and then released
  have held : ((Inbox.holding d).handOut d).1 = .holding d := by rfl
  rw [View.handOut_holding, held, View.release_holding]

/-! ### All of it -/

/-- What comes of it when `a` passes a body on to `p`, in a frame. -/
structure Passes (net : Network) (a p : PeerId) (request body frame buffer : List UInt8) :
    Prop where
  written : (net.perform .queue (.write a request)).1 = .sent (.ok request.length)
  /-- The one delivery is that of all rings. -/
  settled : (net.run .queue [.write a request]).settle =
      net.run .queue [.write a request, .deliver 0] ∧
    (net.run .queue [.write a request, .deliver 0]).rings = []
  received : ∃ incoming,
    ((net.run .queue [.write a request, .deliver 0]).perform .queue (.await p .limited)).1 =
        .received (.ok incoming) ∧
      incoming.payload
        (net.run .queue [.write a request, .deliver 0, .await p .limited]).memory = body
  read : ∃ filled, ((net.run .queue [.write a request, .deliver 0, .await p .limited]).perform
      .queue (.read p buffer)).1 = .framed (.ok frame.length) filled ∧
    filled.take frame.length = frame

/-- A message is taken from a network at rest and given up, and the network is at rest again. -/
theorem AtRest.of_spent {after : Network} {target : UInt64} {body : List UInt8}
    (rest : AtRest l net)
    (shown : Appears l (((((net.view.post a target body).drop 0).setInbox p
      (some (.spent d))).clear a ((net.view.post a target body).staged a).len)) net.bare? after)
    (silent : ((net.view.post a target body).drop 0).rings = []) : AtRest l after := by
  refine ⟨shown.wellFormed, ?_, ?_⟩
  · rw [shown.view]
    refine ⟨silent, fun q => ?_, fun q j found => ?_⟩
    · -- only the slot of the sender and the inbox of the reader have changed, and both are empty
      by_cases same : q = a
      · subst same
        exact (congrArg Staged.len (View.staged_clear_self _ q _)).trans Staged.len_clear_self
      · rw [View.staged_clear_of_ne _ same, View.staged_setInbox, View.staged_drop,
          View.staged_post_of_ne _ same]
        exact rest.view.idle q
    · rw [View.inbox_clear] at found
      by_cases same : q = p
      · subst same
        rw [View.inbox_setInbox_self] at found
        exact Option.some.inj found ▸ Inbox.isEmpty_spent d
      · rw [View.inbox_setInbox_of_ne _ same, View.inbox_drop, View.inbox_post] at found
        exact rest.view.empty q j found
  · rw [shown.records]
    exact rest.knows

/-- What a peer writes to another one, or to itself, is read there behind the address of the
    sender, and then the network is at rest again. -/
theorem AtRest.passes (rest : AtRest l net) {r r' : Endpoint} (writer : net.bare? a = some r)
    (reader : net.bare? p = some r') {request body : List UInt8} {dest : Destination}
    (brief : request.length ≤ l.maxPayload - 2)
    (parsed : Request.parse l request = .ok (dest, body))
    (resolved : dest.resolve l = .ok p.toUInt64) (some : body ≠ [])
    (short : body.length < l.maxPayload) (plain : ¬ Link.IsRequest body) {frame : List UInt8}
    (whole : frame = Utf8.encode (addressText a) ++ [Request.colon] ++ body) (buffer : List UInt8)
    (room : frame.length ≤ buffer.length) :
    net.Passes a p request body frame buffer ∧
      AtRest l (net.run .queue (passing a p request buffer)) ∧
      (net.run .queue (passing a p request buffer)).bare? = net.bare? := by
  obtain ⟨e, he, -⟩ := rest.exists_endpoint writer
  obtain ⟨f, hf, -, empty⟩ := rest.exists_endpoint reader
  have here : net.view.inbox a = Option.some e.inbox := inbox?_of_endpoint? he
  have there : net.view.inbox p = Option.some f.inbox := inbox?_of_endpoint? hf
  have owner := rest.hasSlot writer
  have size := Nat.lt_trans short l.maxPayload_lt
  obtain ⟨written, shown₁⟩ := rest.wellFormed.appears.write here brief parsed
    ⟨resolved, some, short, rest.view.idle a⟩
  have staged := net.view.staged_post_self a p.toUInt64 body
  have one : (net.view.post a p.toUInt64 body).rings = [.new a p] := by
    rw [View.rings_post, rest.view.rings, List.nil_append, UInt16.toUInt16_toUInt64]
  have message : ((net.view.post a p.toUInt64 body).staged a).message = body := by
    rw [staged, Staged.message_put size]
  have none : ((net.view.post a p.toUInt64 body).drop 0).rings = [] := by
    rw [View.rings_drop, one]
    rfl
  -- the message arrives at an empty inbox
  obtain ⟨shown₂, settled, received, shown₃, stamped⟩ := shown₁.fetches one
    (by rw [View.inbox_post]; exact there) empty reader (rest.knows p r' reader a owner) owner
    (by rw [staged]; exact Staged.len_put_ne_zero size some) (by rw [message]; exact plain) .limited
  have len : ((net.view.post a p.toUInt64 body).staged a).len.toNat = body.length := by
    rw [staged, Staged.toNat_len_put size]
  generalize n₁ : (net.perform .queue (.write a request)).2 = net₁ at *
  generalize n₂ : (net₁.perform .queue (.deliver 0)).2 = net₂ at *
  generalize n₃ : (net₂.perform .queue (.await p .limited)).2 = net₃ at *
  have framed : net₃.frame
      ⟨a, ((net.view.post a p.toUInt64 body).staged a).len, f.inbox.generation + 1⟩ = frame := by
    rw [whole, Network.frame, shown₃.staged]
    exact congrArg _ message
  obtain ⟨read, shown₄⟩ := shown₃.read stamped (len.trans_le short.le)
    ((congrArg List.length framed).trans_le room)
  rw [framed] at read
  simp only [passing]
  refine ⟨⟨written, ?_, ?_, ?_⟩, ?_, ?_⟩ <;> simp only [run_cons, run_nil, n₁, n₂, n₃]
  · exact ⟨settled, shown₂.rings.trans none⟩
  · refine ⟨_, received, ?_⟩
    rw [shown₃.payload]
    exact message
  · exact read
  · exact rest.of_spent shown₄ none
  · exact shown₄.records

end Network

end SharedMailbox
