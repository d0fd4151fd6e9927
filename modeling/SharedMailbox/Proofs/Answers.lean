import Mathlib.Data.Finset.Card
import SharedMailbox.Proofs.Texts
import SharedMailbox.Proofs.Writers

namespace SharedMailbox

/-!
# Answers are not answered

The answer to a link request is no link request, whatever class name and ids it tells. So the rings
of answers do not go on for ever: each answer empties a slot that asked, and never makes one ask.

* `Link.IsOpening`: how answers begin; `Link.not_isRequest_of_respond`: so they are no requests.
* `Network.asking`: the peers whose slot asks; `Seated.deliver?`: every ring that is delivered
  leaves fewer rings or fewer of these.
* `Network.answers_end`: all rings are delivered after as many deliveries as there are rings under
  way and slots that ask; `Seated.rings_settle`: settling delivers them all.
-/

/-! ### Answers -/

/-- A text that begins with another byte than a space has to begin so in the input. -/
theorem Scan.literal_eq_none {p b : UInt8} (visible : p ≠ 32) (other : b ≠ p)
    (text rest : List UInt8) : literal (p :: text) (b :: rest) = none := by
  simp [literal, visible, other]

namespace Link

/-- The text in front of a class that is told. -/
def ackOpening : List UInt8 := Utf8.encode "Link CTL ACK C-Class="

/-- The text in front of a tag that is repeated. -/
def standaloneOpening : List UInt8 := Utf8.encode "Standalone Acknowledgment Tag="

/-- Every acknowledgment of a link begins with the same text. -/
theorem exists_encode_ack (a : LinkAck) :
    ∃ rest, Utf8.encode a.text = Utf8.encode "Link CTL ACK C-Class=" ++ rest := by
  unfold LinkAck.text
  rw [Utf8.encode_append, Utf8.encode_append, Utf8.encode_append, Utf8.encode_append,
    Utf8.encode_append, List.append_assoc, List.append_assoc, List.append_assoc,
    List.append_assoc]
  exact ⟨_, rfl⟩

/-- Every standalone acknowledgment begins with the same text. -/
theorem exists_encode_standaloneAck (tag : Int32) :
    ∃ rest, Utf8.encode (standaloneAck tag) =
      Utf8.encode "Standalone Acknowledgment Tag=" ++ rest := by
  unfold standaloneAck
  rw [Utf8.encode_append, Utf8.encode_append, List.append_assoc]
  exact ⟨_, rfl⟩

/-- Answers begin with one of these texts. -/
def IsOpening (text : List UInt8) : Prop :=
  text = pong ∨ text = ackOpening ∨ text = standaloneOpening

variable {id id' : Identity} {message answer text : List UInt8}

/-- Every answer begins with one of the openings. -/
theorem exists_opening (h : respond id message = some (id', answer)) :
    ∃ text, IsOpening text ∧ text <+: answer := by
  unfold respond at h
  -- the requests in the order in which they are tried
  split_ifs at h
  · obtain ⟨-, rfl⟩ := Prod.mk.inj (Option.some.inj h)
    exact ⟨pong, .inl rfl, List.prefix_refl _⟩
  · obtain ⟨-, rfl⟩ := Prod.mk.inj (Option.some.inj h)
    obtain ⟨rest, text⟩ := exists_encode_ack ⟨id.className, id.cid0, id.sid0⟩
    exact ⟨ackOpening, .inr (.inl rfl), rest, text.symm⟩
  · split at h
    next w _ =>
      obtain ⟨-, rfl⟩ := Prod.mk.inj (Option.some.inj h)
      obtain ⟨rest, text⟩ := exists_encode_standaloneAck w.tag
      exact ⟨standaloneOpening, .inr (.inr rfl), rest, text.symm⟩
    next => cases h

/-- An assignment begins with a `C`. -/
theorem CtlWrite.parse?_eq_none {b : UInt8} (other : b ≠ 67) (rest : List UInt8) :
    CtlWrite.parse? (b :: rest) = none := by
  have begins : Utf8.encode "CTL-Write Space=0,PFMCID=" =
      67 :: Utf8.encode "TL-Write Space=0,PFMCID=" := by rfl
  rw [parse?, begins, Scan.literal_eq_none (by decide) other]
  rfl

/-- Every request begins with a `p`, an `L` or a `C`. -/
theorem not_isRequest_cons {b : UInt8} (other : b ≠ 112 ∧ b ≠ 76 ∧ b ≠ 67) (rest : List UInt8) :
    ¬ IsRequest (b :: rest) := by
  have isPing : ping = 112 :: Utf8.encode "ing" := by rfl
  have isQuery : Utf8.encode peerAttribute = 76 :: Utf8.encode "ink CTL Peer-Attribute" := by rfl
  rw [IsRequest, isPing, isQuery, CtlWrite.parse?_eq_none other.2.2]
  simp [List.isPrefixOf, other.1, Ne.symm other.2.1]

/-- No request begins with an opening, and no opening begins with what makes a request. -/
theorem IsOpening.spec (opening : IsOpening text) :
    (text ≠ [] ∧ text.head? ≠ some 67) ∧ ¬ text <+: ping ∧
      ¬ text <+: Utf8.encode peerAttribute ∧ ¬ Utf8.encode peerAttribute <+: text := by
  rcases opening with rfl | rfl | rfl <;> decide

/-- What begins with the opening of an answer is no request. -/
theorem not_isRequest_of_opening (opening : IsOpening text) (begins : text <+: message) :
    ¬ IsRequest message := by
  obtain ⟨⟨some, other⟩, noPing, noQuery, noQuery'⟩ := opening.spec
  rintro (rfl | query | assignment)
  · exact noPing begins
  · rw [List.isPrefixOf_iff_prefix] at query
    rcases List.prefix_or_prefix_of_prefix begins query with h | h
    · exact noQuery h
    · exact noQuery' h
  · obtain ⟨b, rest, rfl⟩ := List.exists_cons_of_ne_nil some
    obtain ⟨more, rfl⟩ := begins
    exact assignment (CtlWrite.parse?_eq_none (by simpa using other) _)

/-- **An answer is no request.** -/
theorem not_isRequest_of_respond (h : respond id message = some (id', answer)) :
    ¬ IsRequest answer := by
  obtain ⟨text, opening, begins⟩ := exists_opening h
  exact not_isRequest_of_opening opening begins

end Link

/-! ### Slots that ask -/

/-- A slot holds a link request. -/
def Slot.Asks (s : Slot) (m : Memory) : Prop :=
  (s.staged m).len ≠ 0 ∧ Link.IsRequest (s.staged m).message

instance (s : Slot) (m : Memory) : Decidable (s.Asks m) := inferInstanceAs (Decidable (_ ∧ _))

/-- Who asks afterwards asked before, if the slot was left alone or freed. -/
theorem Slot.Asks.of_staged {s : Slot} {m n : Memory}
    (same : s.staged n = s.staged m ∨ (s.staged n).len = 0) (asks : s.Asks n) : s.Asks m := by
  rcases same with same | idle
  · rwa [Slot.Asks, same] at asks
  · exact absurd idle asks.1

/-- An operation that sends no link request makes no slot ask. -/
theorem Memory.Deeds.asks {l : Layout} {p q : PeerId} {m n : Memory} {sent : Option Sent}
    (valid : l.Valid) (deeds : Deeds l p m sent n) (plain : ∀ s ∈ sent, ¬ Link.IsRequest s.message)
    (asks : (l.slotAt q).Asks n) : (l.slotAt q).Asks m := by
  by_cases own : q = p
  · subst own
    cases sent with
    | none =>
      cases deeds with
      | silent writes => exact asks.of_staged (own_of_writes valid writes)
    | some s =>
      -- what is staged now is what was sent
      obtain ⟨-, -, message⟩ := deeds.staged_of_sent
      exact absurd (message ▸ asks.2) (plain s rfl)
  · exact asks.of_staged (deeds.spared valid own).staged

namespace Network

/-- The peers whose slot asks. -/
def asking (net : Network) : Finset PeerId :=
  net.layout.peerIds.toFinset.filter fun q => (net.layout.slotAt q).Asks net.memory

/-- The rings under way and the slots that ask. -/
def due (net : Network) : Nat := net.rings.length + net.asking.card

variable {net after : Network} {l : Layout} {p q : PeerId} {sent : Option Sent}

/-- The peers that ask are those with a request in their slot. -/
theorem Seated.mem_asking (seated : net.Seated l) :
    q ∈ net.asking ↔ l.HasSlot q.toUInt64 ∧ (l.slotAt q).Asks net.memory := by
  obtain ⟨rfl, valid, -⟩ := seated
  rw [asking, Finset.mem_filter, List.mem_toFinset, Layout.mem_peerIds valid]

/-- An operation that sends no link request lets no more slots ask. -/
theorem Seated.asking_subset (seated : net.Seated l) (acts : net.Acts l p sent after)
    (plain : ∀ s ∈ sent, ¬ Link.IsRequest s.message) : after.asking ⊆ net.asking := by
  intro q asks
  obtain ⟨owner, asks⟩ := (seated.acts acts).mem_asking.mp asks
  exact seated.mem_asking.mpr ⟨owner, acts.deeds.asks seated.valid plain asks⟩

/-- Whoever answers an interrupt empties a slot that asks. -/
theorem Responds.due_le (seated : net.Seated l) (responds : net.Responds l p sent after) :
    after.due ≤ net.due := by
  have rings := responds.acts.length_rings
  unfold due
  cases responds with
  | silent acts =>
    have fewer := Finset.card_le_card (seated.asking_subset acts (by simp))
    simp only [Option.toList_none, List.length_nil] at rings
    omega
  | @answered a id id' answer result mid _ owner busy response clears idle kept replies =>
    have seated' := seated.acts clears
    have cleared := seated.asking_subset clears (by simp)
    have answered := seated'.asking_subset replies.toActs (by
      intro s sent
      have plain := Link.not_isRequest_of_respond response
      cases result <;> cases sent
      exact plain)
    -- the slot that is answered asked before, and does not ask once its request is consumed
    have asked : a ∈ net.asking := by
      refine seated.mem_asking.mpr ⟨owner, busy, ?_⟩
      by_contra plain
      rw [Link.respond_eq_none_iff.mpr plain] at response
      cases response
    have silent : a ∉ mid.asking := fun asks => (seated'.mem_asking.mp asks).2.1 idle
    have fewer : after.asking.card < net.asking.card :=
      Finset.card_lt_card ⟨answered.trans cleared, fun all => silent (answered (all asked))⟩
    have one : (Sent.ofResult? ⟨p, .peer a, answer⟩ result).toList.length ≤ 1 := by
      cases result <;> simp [Sent.ofResult?]
    omega

/-! ### Deliveries -/

/-- Every ring that is delivered leaves fewer rings and slots that ask than there were. -/
theorem Seated.deliver? (seated : net.Seated l) {place : Nat} {w : DoorbellWord}
    {result : RingResult} (h : net.deliver? place = some (w, result, after)) :
    after.Seated l ∧ after.due < net.due := by
  rcases found : net.rings[place]? with _ | ring
  · simp [Network.deliver?, found] at h
  · rw [deliver?_of_ring found, Option.some.injEq, Prod.mk.injEq, Prod.mk.injEq] at h
    obtain ⟨rfl, rfl, rfl⟩ := h
    have dropped : (net.dequeue place).Seated l := ⟨seated.layout, seated.valid, seated.seats⟩
    have responds := responds_raise (net.dequeue place) seated.valid [] (seated.seats ring.dest)
    refine ⟨dropped.acts responds.acts, ?_⟩
    -- an answer rings once but is to a request that no longer asks, so that the ring that is taken
    -- off the queue makes the difference
    have fewer := responds.due_le dropped
    have one := length_dequeue found
    have same : (net.dequeue place).asking = net.asking := rfl
    unfold due at fewer ⊢
    rw [same] at fewer
    omega

/-- Some rings are delivered one after another, in whatever order. -/
inductive Drain : Network → Nat → Network → Prop
  | done (net : Network) : Drain net 0 net
  | next {net mid after : Network} {place count : Nat} {w : DoorbellWord} {result : RingResult}
      (delivered : net.deliver? place = some (w, result, mid)) (rest : Drain mid count after) :
      Drain net (count + 1) after

/-- Each delivery uses up something that was due. -/
theorem Seated.drain (seated : net.Seated l) {count : Nat} (drain : net.Drain count after) :
    count + after.due ≤ net.due := by
  induction drain with
  | done => omega
  | next delivered _ ih =>
    obtain ⟨seated', fewer⟩ := seated.deliver? delivered
    have := ih seated'
    omega

/-- What is due bounds the deliveries of a run, and once as many were tried no ring is left. -/
theorem Seated.deliverMany (seated : net.Seated l) (count : Nat) :
    (deliverMany count net).1.length ≤ net.due ∧
      (net.due ≤ count → (deliverMany count net).2.rings = []) := by
  -- Induction on the deliveries that are tried, each of which lowers what is due.
  induction count generalizing net with
  | zero =>
    refine ⟨Nat.zero_le _, fun few => ?_⟩
    have none : net.rings.length = 0 := by
      unfold due at few
      omega
    exact List.length_eq_zero_iff.mp none
  | succ count ih =>
    unfold Network.deliverMany
    rcases delivered : net.deliver? 0 with _ | ⟨w, result, after⟩
    · have none : net.rings = [] := by
        rcases rings : net.rings with _ | ⟨ring, rest⟩
        · rfl
        · rw [deliver?_of_ring (w := ring) (by rw [rings]; rfl)] at delivered
          cases delivered
      exact ⟨Nat.zero_le _, fun _ => none⟩
    · obtain ⟨seated', fewer⟩ := seated.deliver? delivered
      obtain ⟨few, empty⟩ := ih seated'
      simp only [List.length_cons]
      exact ⟨by omega, fun bound => empty (by omega)⟩

/-- There are as many slots that may ask as there are peers. -/
theorem card_asking_le (net : Network) : net.asking.card ≤ net.layout.maxPeer.toNat := by
  refine (Finset.card_filter_le _ _).trans ((List.toFinset_card_le _).trans ?_)
  rw [Layout.peerIds, List.length_map]
  refine (List.length_filter_le _ _).trans ?_
  rw [List.length_map, List.length_range]

/-- Settling delivers all rings. -/
theorem Seated.rings_settle (seated : net.Seated l) : net.settle.rings = [] := by
  refine (seated.deliverMany _).2 ?_
  have := net.card_asking_le
  unfold due
  omega

/-- All rings are delivered after a number of deliveries at most. -/
structure Drains (net : Network) (bound : Nat) : Prop where
  /-- Whatever the order, no more rings are delivered, and after so many none is under way. -/
  few : ∀ count after, net.Drain count after → count + after.rings.length ≤ bound
  /-- From the oldest on, so many deliveries are enough. -/
  enough : ∀ count, bound ≤ count →
    (Network.deliverMany count net).2.rings = [] ∧ (Network.deliverMany count net).1.length ≤ bound

/-- **Answers end.** Whoever has answered a link request of whomever, the answer is none once it is
    staged, to whichever endpoint. So in every network, whatever is staged in it and whichever
    vectors its endpoints have, all rings are delivered after as many deliveries as there are rings
    under way and slots that hold a link request. -/
theorem answers_end :
    (∀ id message id' answer, Link.respond id message = some (id', answer) →
      ∀ (l : Layout) p target m, answer.length < l.maxPayload → ∀ id'',
        Link.respond id'' ((l.slotAt p).staged ((l.slotAt p).post target answer m)).message =
          none) ∧
      ∀ (net : Network) l, net.Seated l → net.Drains (net.rings.length + net.asking.card) := by
  refine ⟨fun id message id' answer response l p target m short id'' => ?_, fun net l seated => ?_⟩
  · rw [Slot.staged_post _ _ _ short,
      Staged.message_put (Nat.lt_trans short l.maxPayload_lt), Link.respond_eq_none_iff]
    exact Link.not_isRequest_of_respond response
  · refine ⟨fun count after drain => ?_, fun count bound => ?_⟩
    · exact Nat.le_trans (Nat.add_le_add_left (Nat.le_add_right _ _) count) (seated.drain drain)
    · exact ⟨(seated.deliverMany count).2 bound, (seated.deliverMany count).1⟩

/-- A ping is answered by `pong`; and with two rings under way and one slot that asks, three
    deliveries are enough. -/
theorem answers_end_small :
    (∀ m id, Link.respond id ((smallLayout.slotAt 2).staged
      ((smallLayout.slotAt 2).post 1 Link.pong m)).message = none) ∧
      ((ofMailbox smallMailbox).run .queue pinging).Drains 3 := by
  have wf := wellFormed_of_run create_small pinging
  refine ⟨fun m => answers_end.1 ⟨"", 0, 0, 0, 0, 0⟩ Link.ping _ Link.pong rfl smallLayout 2 1 m
    (by decide), ?_⟩
  have drains := answers_end.2 _ _ wf.seated
  rwa [show _ + _ = 3 by decide +kernel] at drains

end Network

end SharedMailbox
