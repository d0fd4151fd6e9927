import SharedMailbox.Proofs.Gathering
import SharedMailbox.Proofs.Passing
import SharedMailbox.Proofs.Scripts

namespace SharedMailbox.Demo

/-!
# The steps of a demonstration

Each step of a demonstration finds a network at rest, prints its lines, and leaves a network at
rest.

* `introduction`, `relay`: the lines of a negotiation and of a message that is passed on.
* `Script.runs_negotiate`, `runs_drain`, `runs_pass`: the steps.
-/

open Numeral (decimal signedDecimal)
open Network

/-! ### Lines -/

/-- What a negotiation with a client prints. -/
def introduction (c : Nat) : List String :=
  ["peer " ++ decimal c ++ ": pong",
    "peer " ++ decimal c ++ ": class FEEadapter cid0 0 sid0 0",
    "peer " ++ decimal c ++ ": assigned cid " ++ decimal (100 * c) ++ " sid 27"]

/-- What is printed of the message that client `f` of `n` passes on in a round. -/
def relay (n round f : Nat) : String :=
  "peer " ++ decimal (f % n + 1) ++ " <- " ++ decimal (100 * f) ++ ",27:round " ++ decimal round
    ++ " from " ++ decimal f

/-- A small number has the same decimals with and without a sign. -/
theorem signedDecimal_ofNat {n : Nat} (lt : n < 2 ^ 31) :
    signedDecimal (Int32.ofNat n).toInt = decimal n := by
  rw [Int32.toInt_ofNat_of_lt lt, signedDecimal, if_neg (by omega), Int.natAbs_natCast]

namespace Script

variable {net after : Network} {l : Layout} {c p : PeerId} {r r' : Endpoint} {i : Inbox}
  {request answer : List UInt8} {id : Link.Identity}

/-! ### Negotiations -/

/-- How the coordinator asks a client. -/
def asking (p : PeerId) : Manner := ⟨.sleep, .peer p, .limited⟩

/-- An exchange returns the answer. -/
theorem runs_exchange (exchanges : net.Exchanges c p (asking p) request answer)
    (done : (net.run .queue (inquiry c (asking p) request)).rings = []) :
    Runs (exchange c p request) net answer (net.run .queue (inquiry c (asking p) request)) [] := by
  obtain ⟨sent, ⟨settled, silent⟩, ⟨incoming, received, rfl, rfl⟩, -⟩ := exchanges
  simp only [inquiry, run_append, run_cons, run_nil] at settled silent received done ⊢
  generalize net.run .queue (posing c (asking incoming.sender) request) = asked
    at settled silent received done ⊢
  -- the answer has arrived before the wait, so that neither the wait nor the release rings
  have waited := settle_of_nil ((rings_await asked c .limited).trans silent)
  have first := runs_send sent
  have second := runs_await received waited
  have third := runs_act (asked.perform .queue (.await c .limited)).2 (.release c)
  simp only [asking] at first settled waited
  rw [settled] at first
  simp only [asking] at done ⊢
  rw [settle_of_nil done] at third
  unfold exchange
  refine first.bind (second.bind (third.bind ?_))
  simp only [ne_eq, not_true_eq_false, if_false]
  exact runs_pure _ _

/-- At rest a client that is asked answers, and the network is at rest again. -/
theorem exists_runs_exchange (rest : AtRest l net) (other : c ≠ p) (asker : net.bare? c = some r)
    (answerer : net.bare? p = some r')
    (response : Link.respond r'.identity request = some (id, answer))
    (short : request.length < l.maxPayload ∧ answer.length < l.maxPayload) :
    ∃ after, Runs (exchange c p request) net answer after [] ∧ AtRest l after ∧
      after.bare? = Function.update net.bare? p (some { r' with identity := id }) := by
  have resolved : (asking p).dest.resolve l = .ok p.toUInt64 :=
    Destination.resolve_peer rest.wellFormed.valid (rest.hasSlot answerer)
  obtain ⟨exchanges, rest', records⟩ := rest.exchange other asker answerer resolved response short
  exact ⟨_, runs_exchange exchanges rest'.view.rings, rest', records⟩

/-- What the coordinator assigns to a client. -/
def assignment (c p : PeerId) : Link.CtlWrite where
  pfmcid := Int32.ofNat (c.toNat * cidsPerPeer)
  pfmsid := defaultSid
  cid := Int32.ofNat (p.toNat * cidsPerPeer)
  sid := defaultSid
  tag := Int32.ofNat p.toNat

/-- The first component id of a peer is a hundred times its number. -/
theorem signedDecimal_firstCid (p : PeerId) :
    signedDecimal (Int32.ofNat (p.toNat * cidsPerPeer)).toInt = decimal (100 * p.toNat) := by
  have := p.toNat_lt
  rw [signedDecimal_ofNat (by rw [cidsPerPeer]; omega), Nat.mul_comm]
  rfl

/-- The texts of an assignment are short enough for the smallest slots. -/
theorem length_assignment_lt (c p : PeerId) :
    (Utf8.encode (assignment c p).text).length < 128 ∧
      (Utf8.encode (Link.standaloneAck (assignment c p).tag)).length < 128 := by
  -- each number that is written has its own bound, and the text around them is fixed
  have cid : ∀ p : PeerId, (Utf8.encode (signedDecimal
      (Int32.ofNat (p.toNat * cidsPerPeer)).toInt)).length ≤ 7 := fun p => by
    have := p.toNat_lt
    rw [signedDecimal_firstCid]
    exact Utf8.length_encode_decimal_le (by decide) (by omega)
  have tag : (Utf8.encode (signedDecimal (Int32.ofNat p.toNat).toInt)).length ≤ 5 := by
    have := p.toNat_lt
    rw [signedDecimal_ofNat (by omega)]
    exact Utf8.length_encode_decimal_le (by decide) (by omega)
  have sid : (Utf8.encode (signedDecimal defaultSid.toInt)).length = 2 := by decide +kernel
  have first := cid c
  have second := cid p
  constructor
  · rw [Link.CtlWrite.length_text]
    simp only [assignment, sid]
    omega
  · rw [Link.length_standaloneAck]
    simp only [assignment]
    omega

/-- What a client answers that has just attached. -/
def firstAck : Link.LinkAck := ⟨defaultClass, 0, 0⟩

/-- What a client answers that has just attached is read back. -/
theorem parse?_firstAck : Link.LinkAck.parse? (Utf8.encode firstAck.text) = some firstAck := by
  have plain : ',' ∉ firstAck.className.toList := by decide +kernel
  have told := Link.LinkAck.parse?_text firstAck plain Scan.stops_nil
  rwa [List.append_nil] at told

/-- The lines of a negotiation are these. -/
theorem introduction_eq (c p : PeerId) :
    let name := "peer " ++ decimal p.toNat
    introduction p.toNat =
      [name ++ ": " ++ Utf8.decodeLossy Link.pong,
        name ++ ": class " ++ firstAck.className ++ " cid0 " ++ signedDecimal firstAck.cid0.toInt
          ++ " sid0 " ++ signedDecimal firstAck.sid0.toInt,
        name ++ ": assigned cid " ++ signedDecimal (assignment c p).cid.toInt
          ++ " sid " ++ signedDecimal (assignment c p).sid.toInt] := by
  intro name
  have pong : ": " ++ Utf8.decodeLossy Link.pong = ": pong" := by
    rw [Link.pong, Utf8.decodeLossy_encode]
    rfl
  have ack : ": class " ++ (firstAck.className ++ (" cid0 " ++
      (signedDecimal firstAck.cid0.toInt ++ (" sid0 " ++ signedDecimal firstAck.sid0.toInt)))) =
      ": class FEEadapter cid0 0 sid0 0" := by decide +kernel
  have sid : " sid " ++ signedDecimal defaultSid.toInt = " sid 27" := by decide +kernel
  simp only [assignment, signedDecimal_firstCid, String.append_assoc, pong, ack, sid]
  simp only [introduction, name, String.append_assoc]

/-- A client that has just attached is introduced. -/
theorem exists_runs_negotiate (rest : AtRest l net) (spacious : 128 ≤ l.maxPayload) (other : c ≠ p)
    (asker : net.bare? c = some r) (answerer : net.bare? p = some r')
    (new : r'.identity = { className := defaultClass }) :
    ∃ after, Runs (negotiate c p) net () after (introduction p.toNat) ∧ AtRest l after ∧
      after.bare? = Function.update net.bare? p
        (some { r' with identity := r'.identity.assign (assignment c p) }) := by
  have fixed : Link.ping.length < 128 ∧ Link.pong.length < 128 ∧
      (Utf8.encode Link.peerAttribute).length < 128 ∧
      (Utf8.encode firstAck.text).length < 128 := by decide +kernel
  obtain ⟨ping, pong, query, ack⟩ := fixed
  obtain ⟨written, acknowledged⟩ := length_assignment_lt c p
  -- Three exchanges, of which only the last one changes a record: the identity is assigned there.
  obtain ⟨net₁, pinged, rest₁, records₁⟩ := exists_runs_exchange rest other asker answerer
    (Link.respond_ping r'.identity) ⟨by omega, by omega⟩
  have same₁ : net₁.bare? = net.bare? := by
    rw [records₁, Function.update_eq_self_iff, answerer]
  have first : (⟨r'.identity.className, r'.identity.cid0, r'.identity.sid0⟩ : Link.LinkAck) =
      firstAck := by rw [new]; rfl
  have response := Link.respond_query r'.identity
  rw [first] at response
  rw [← same₁] at asker answerer
  obtain ⟨net₂, queried, rest₂, records₂⟩ := exists_runs_exchange rest₁ other asker answerer
    response ⟨by omega, by omega⟩
  have same₂ : net₂.bare? = net₁.bare? := by
    rw [records₂, Function.update_eq_self_iff, answerer]
  rw [← same₂] at asker answerer
  obtain ⟨net₃, assigned, rest₃, records₃⟩ := exists_runs_exchange rest₂ other asker answerer
    (Link.respond_assignment r'.identity (assignment c p)) ⟨by omega, by omega⟩
  have tag := Link.parseStandaloneAck?_text (assignment c p).tag []
  rw [List.append_nil] at tag
  refine ⟨net₃, ?_, rest₃, by rw [records₃, same₂, same₁]⟩
  -- the script is the three runs one after the other, with what they print in between
  unfold negotiate
  rw [introduction_eq c p]
  refine pinged.bind ((runs_print _ _).bind (queried.bind (w := [_, _]) ?_))
  simp only [parse?_firstAck]
  refine (runs_print _ _).bind (assigned.bind (w := [_]) ?_)
  rw [tag]
  simp only [assignment, if_true]
  exact runs_print _ _

/-! ### Classes -/

section

variable (wf : WellFormed l True net) (silent : net.rings = []) (here : net.inbox? c = some i)

include wf silent here

/-- Where nothing is pending, and no ring is under way, there is nothing to drain. -/
theorem runs_drain_of_none (pending : i.pending = none) (rounds : Nat) :
    Runs (drain c rounds) net 0 net [] := by
  cases rounds with
  | zero => exact runs_pure net 0
  | succ rounds =>
    have first := runs_act net (.await c .limited)
    rw [wf.appears.await_of_none here pending .limited, settle_of_nil silent] at first
    unfold drain
    exact first.bind (runs_pure net 0)

/-- Where something is pending, and no ring is under way, it is all that there is to drain: nothing
    is left for a second round, however many there may be. -/
theorem runs_drain_of_some {d : Delivery} (pending : i.pending = some d) (rounds : Nat) :
    Runs (drain c (rounds + 1)) net 1 (net.run .queue [.await c .limited, .release c]) [] := by
  obtain ⟨⟨incoming, received⟩, wf', rings, j, there, spent⟩ :=
    wf.none_pending here pending .limited
  rw [silent] at rings
  have others := runs_drain_of_none wf' rings there spent rounds
  have first := runs_act net (.await c .limited)
  rw [received, settle_of_nil ((rings_await net c .limited).trans silent)] at first
  have second := runs_act (net.perform .queue (.await c .limited)).2 (.release c)
  simp only [run_cons, run_nil] at rings others ⊢
  rw [settle_of_nil rings] at second
  unfold drain
  exact first.bind (second.bind (others.bind (runs_pure _ 1)))

end

/-- The last of the dumps that have arrived is released, if there is one, whatever the number of
    rounds. -/
theorem exists_runs_drain (gathers : Gathers l c net) (rounds : Nat) :
    ∃ n after, Runs (drain c (rounds + 1)) net n after [] ∧ AtRest l after ∧
      after.bare? = net.bare? := by
  obtain ⟨i, here, -⟩ := gathers.view.last
  have silent := gathers.view.rings
  rcases pending : i.pending with _ | d
  · have drained := runs_drain_of_none gathers.wellFormed silent here pending (rounds + 1)
    exact ⟨0, net, drained, gathers.atRest_of_none here pending, rfl⟩
  · obtain ⟨-, rest, records⟩ := gathers.release here pending .limited
    exact ⟨1, _, runs_drain_of_some gathers.wellFormed silent here pending rounds, rest, records⟩

/-- Classes are bound, and the dumps that this leads to are drained. -/
theorem exists_runs_bindClass (rest : AtRest l net) (coordinator : l.coordinator = c.toUInt64)
    (record : net.bare? c = some r) (name : String) (rounds : Nat) :
    ∃ n after, Runs (drain c (rounds + 1)) (Fabric.bindClass name net).2 n after [] ∧
      AtRest l after ∧ ∀ q, (after.bare? q).isSome = (net.bare? q).isSome := by
  obtain ⟨e, he, -⟩ := rest.exists_endpoint record
  obtain ⟨gathers, members⟩ := (rest.gathers (inbox?_of_endpoint? he)).bindClass coordinator name
  obtain ⟨n, after, drained, rest', records⟩ := exists_runs_drain gathers rounds
  exact ⟨n, after, drained, rest', fun q => by rw [records, members]⟩

/-! ### Messages -/

/-- What a client writes in a round. -/
def note (round : Nat) (a : PeerId) : String :=
  "round " ++ decimal round ++ " from " ++ decimal a.toNat

/-- It is no request that an endpoint answers by itself. -/
theorem not_isRequest_note (round : Nat) (a : PeerId) :
    ¬ Link.IsRequest (Utf8.encode (note round a)) := by
  obtain ⟨more, begins⟩ : ∃ more, Utf8.encode (note round a) = 114 :: more := by
    simp only [note, Utf8.encode_append, List.append_assoc]
    exact ⟨_, rfl⟩
  rw [begins]
  exact Link.not_isRequest_cons (by decide) more

/-- A note is short, and not empty. -/
theorem length_note_le (a : PeerId) {round : Nat} (few : round < UInt32.size) :
    0 < (Utf8.encode (note round a)).length ∧ (Utf8.encode (note round a)).length ≤ 27 := by
  have names : (Utf8.encode "round ").length = 6 ∧ (Utf8.encode " from ").length = 6 := by
    decide +kernel
  have number : (Utf8.encode (decimal round)).length ≤ 10 :=
    Utf8.length_encode_decimal_le (by decide) (Nat.lt_trans few (by decide))
  have client : (Utf8.encode (decimal a.toNat)).length ≤ 5 :=
    Utf8.length_encode_decimal_le (by decide) (Nat.lt_trans a.toNat_lt (by decide))
  unfold note
  generalize decimal round = s at *
  generalize decimal a.toNat = t at *
  simp only [Utf8.encode_append, List.length_append, names]
  omega

/-- The address of a sender is short. -/
theorem length_addressText_le (a : PeerId) : (Utf8.encode (addressText a)).length ≤ 10 := by
  have cid : (Utf8.encode (decimal (firstCid a).toNat)).length ≤ 7 := by
    have := a.toNat_lt
    rw [toNat_firstCid, cidsPerPeer]
    exact Utf8.length_encode_decimal_le (by decide) (by omega)
  have rest : (Utf8.encode ",").length = 1 ∧
      (Utf8.encode (decimal subnetWord.toNat)).length = 2 := by decide +kernel
  unfold addressText
  generalize decimal (firstCid a).toNat = s at *
  simp only [Utf8.encode_append, List.length_append, rest]
  omega

/-- The request that passes it on. -/
def requestText (round : Nat) (a p : PeerId) : String :=
  decimal p.toNat ++ ":round " ++ decimal round ++ " from " ++ decimal a.toNat

/-- A request is the number of its receiver, a colon and the note. -/
theorem encode_requestText (round : Nat) (a p : PeerId) : Utf8.encode (requestText round a p) =
    Utf8.encode (decimal p.toNat) ++ [Request.colon] ++ Utf8.encode (note round a) := by
  have colon : (":round " : String) = ":" ++ "round " := by rfl
  rw [requestText, note, colon]
  simp only [Utf8.encode_append, List.append_assoc]
  rfl

/-- The number of a peer is how a request names it. -/
theorem toInt_ofNat_peer (p : PeerId) : (Int32.ofNat p.toNat).toInt = p.toNat :=
  Int32.toInt_ofNat_of_lt (Nat.lt_trans p.toNat_lt (by decide))

/-- A request asks for the peer of this number. -/
theorem parse_requestText (l : Layout) (round : Nat) (a p : PeerId) :
    Request.parse l (Utf8.encode (requestText round a p)) =
      .ok (.component (Int32.ofNat p.toNat) peerIdSid, Utf8.encode (note round a)) := by
  rw [encode_requestText]
  exact Request.parse_append (Selector.not_mem_decimal (by decide) _)
    (Selector.parse_decimal l (toInt_ofNat_peer p)) _

/-- A request is short. -/
theorem length_requestText_le (a p : PeerId) {round : Nat} (few : round < UInt32.size) :
    (Utf8.encode (requestText round a p)).length ≤ 33 := by
  have number : (Utf8.encode (decimal p.toNat)).length ≤ 5 :=
    Utf8.length_encode_decimal_le (by decide) (Nat.lt_trans p.toNat_lt (by decide))
  have text := (length_note_le a few).2
  rw [encode_requestText, List.length_append, List.length_append, List.length_singleton]
  omega

/-- What the receiver reads. -/
def frameText (round : Nat) (a : PeerId) : String := addressText a ++ ":" ++ note round a

/-- A frame is the address of its sender, a colon and the note. -/
theorem encode_frameText (round : Nat) (a : PeerId) : Utf8.encode (frameText round a) =
    Utf8.encode (addressText a) ++ [Request.colon] ++ Utf8.encode (note round a) := by
  rw [frameText, Utf8.encode_append, Utf8.encode_append]
  rfl

/-- There is room for the address in the buffer of the receiver. -/
theorem length_frameText_le (round : Nat) (a : PeerId) : (Utf8.encode (frameText round a)).length ≤
    (Utf8.encode (note round a)).length + addressRoom := by
  have address := length_addressText_le a
  rw [encode_frameText, List.length_append, List.length_append, List.length_singleton, addressRoom]
  omega

/-- A client writes to another one, or to itself, which reads the frame. -/
theorem exists_runs_pass (rest : AtRest l net) (spacious : 128 ≤ l.maxPayload) {a : PeerId}
    (writer : net.bare? a = some r) (reader : net.bare? p = some r') {round : Nat}
    (few : round < UInt32.size) : ∃ after, Runs (pass round a p) net () after
        ["peer " ++ decimal p.toNat ++ " <- " ++ frameText round a] ∧
      AtRest l after ∧ after.bare? = net.bare? := by
  obtain ⟨some, short⟩ := length_note_le a few
  have brief := length_requestText_le a p few
  have resolved := Destination.resolve_number rest.wellFormed.valid (rest.hasSlot reader)
    (toInt_ofNat_peer p)
  -- the buffer stays folded, for its size plays no role but that the frame fits
  generalize whole : List.replicate (l.maxPayload + addressRoom) (0 : UInt8) = buffer
  have room : (Utf8.encode (frameText round a)).length ≤ buffer.length := by
    have framed := length_frameText_le round a
    rw [← whole, List.length_replicate]
    omega
  obtain ⟨⟨sent, ⟨settled, silent⟩, ⟨incoming, received, payload⟩, ⟨filled, read, front⟩⟩, rest',
    records⟩ := rest.passes writer reader (by omega) (parse_requestText l round a p) resolved
      (List.ne_nil_of_length_pos some) (by omega) (not_isRequest_note round a)
      (encode_frameText round a) buffer room
  simp only [passing, run_cons, run_nil] at settled silent received payload read rest' records
  -- the script looks the payload up in the network as it is before the read
  have layout := (rest.wellFormed.run_lax [.write a (Utf8.encode (requestText round a p)),
    .deliver 0, .await p .limited]).layout
  simp only [run_cons, run_nil] at layout
  -- no ring is under way after each operation, so that settling does nothing more
  have first := runs_act net (.write a (Utf8.encode (requestText round a p)))
  rw [sent, settled] at first
  generalize ((net.perform .queue (.write a (Utf8.encode (requestText round a p)))).2.perform .queue
    (.deliver 0)).2 = mid at *
  have second := runs_await received (settle_of_nil ((rings_await mid p .limited).trans silent))
  rw [payload] at second
  have third := runs_act (mid.perform .queue (.await p .limited)).2 (.read p buffer)
  rw [settle_of_nil rest'.view.rings, read] at third
  refine ⟨_, ?_, rest', records⟩
  unfold pass
  refine first.bind (second.bind (runs_get fun lines => ?_))
  simp only [layout, whole]
  refine third.bind ?_
  simp only [front, Utf8.decodeLossy_encode]
  exact runs_print _ _

end Script

end SharedMailbox.Demo
