import SharedMailbox.Frame.Stream
import SharedMailbox.Proofs.Posting
import SharedMailbox.Proofs.Releasing

namespace SharedMailbox

/-!
# Writing a request is sending its body

A write checks the length of the request, parses it, and sends the body, three times if the slot is
busy. Apart from that its outcome is the outcome of the send: two of its errors cannot occur, and
what fails leaves the region and the doorbell alone.

* `Request.length_lt_of_parse`: a body is shorter than its request, so that it always fits.
* `Network.sendPatiently_of_busy`: attempt after attempt at a busy slot is counted, and that is all.
* `Network.writtenAs`: the outcome of a write, told by that of a send; `Network.write_eq`: it is
  that.
* `Network.writesAsSent`: all of it.
-/

/-- The body of a request is shorter than the request, which has a colon as well. -/
theorem Request.length_lt_of_parse {l : Layout} {request body : List UInt8} {dest : Destination}
    (parsed : Request.parse l request = .ok (dest, body)) : body.length < request.length := by
  unfold Request.parse at parsed
  split_ifs at parsed with colon
  have some : request ≠ [] := List.ne_nil_of_mem colon
  -- the body is behind the colon, which is not part of it
  have suffix :=
    (List.dropWhile_suffix (l := request) fun c => decide (c ≠ Request.colon)).length_le
  have positive := List.length_pos_iff.mpr some
  split at parsed
  next => cases parsed
  next =>
    split at parsed
    next =>
      cases parsed
      rw [List.length_drop]
      omega
    next => cases parsed

namespace Network

variable {net : Network} {l : Layout} {p : PeerId} {e : Endpoint} {dest : Destination}
  {body request : List UInt8}

/-! ### Attempts -/

/-- Two changes to the record of an endpoint are one. -/
theorem update_update (net : Network) (p : PeerId) (f g : Endpoint → Endpoint) :
    (net.update p f).update p g = net.update p fun e => g (f e) := by
  have twice : (net.endpoints.modify p f).modify p g = net.endpoints.modify p fun e => g (f e) := by
    apply Std.ExtTreeMap.ext_getElem?
    intro q
    simp only [Std.ExtTreeMap.getElem?_modify, Std.LawfulEqCmp.compare_eq_iff_eq]
    by_cases same : p = q
    · simp [same, Function.comp_def]
    · simp [same]
  unfold update
  rw [twice]

/-- Only the memory decides whether an endpoint may send. -/
theorem Refuses.of_memory {after : Network} {wait : Duration} {busyPeers : List PeerId}
    {mode : WaitMode} {fault : MessageError} (same : after.memory = net.memory)
    (refuses : net.Refuses l p wait busyPeers mode dest body fault) :
    after.Refuses l p wait busyPeers mode dest body fault := by
  cases refuses with
  | address strays => exact .address strays
  | empty reaches none => exact .empty reaches none
  | long reaches some long => exact .long reaches some long
  | busy reaches some short wedged =>
    rw [← same] at wedged ⊢
    exact .busy reaches some short wedged

/-- Attempt after attempt at a busy slot gives up, and the sender counts them. -/
theorem sendPatiently_of_busy (valid : l.Valid) (seat : e.Seated l p) (ring : Bell)
    {responder : UInt64} {waited : Duration} (attempts : Nat)
    (refuses : net.Refuses l p e.sendDeadline [] .sleep dest body
      (.slotBusyTimeout responder waited)) :
    net.sendPatiently ring e dest body attempts =
      (.error .timedOut, net.update p (.countBusy attempts)) := by
  induction attempts generalizing net with
  | zero => exact congrArg (Prod.mk _) (update_eq_self fun e _ => e.countBusy_zero).symm
  | succ attempts ih =>
    -- the slot is as busy as before
    have again := ih (refuses.of_memory (memory_update net p (.countBusy 1)))
    have counted : (fun e : Endpoint => (e.countBusy 1).countBusy attempts) =
        .countBusy (attempts + 1) := by
      funext e
      rw [Endpoint.countBusy_countBusy, Nat.add_comm]
    rw [sendPatiently, send_of_refuses valid seat ring refuses]
    simp only [noteRefused]
    rw [again, update_update, counted]

/-- Whoever does not find the slot busy makes one attempt. -/
theorem sendPatiently_of_done {ring : Bell} (attempts : Nat)
    (done : ∀ responder waited, (net.send ring [] e .sleep dest body).1 ≠
      .error (.slotBusyTimeout responder waited)) :
    net.sendPatiently ring e dest body (attempts + 1) =
      net.send ring [] e .sleep dest body := by
  unfold sendPatiently
  split
  next outcome => exact absurd (congrArg Prod.fst outcome) (done _ _)
  next => rfl

/-! ### Writes -/

/-- The outcome of a write of so many bytes, told by that of the send of its body: the length of
    the request in place of that of the body, and three attempts in place of one at a busy slot. -/
def writtenAs (len : Nat) (p : PeerId) (net : Network) :
    Except MessageError Nat × Network → Except MessageError Nat × Network
  | (.ok _, after) => (.ok len, after)
  | (.error (.slotBusyTimeout ..), _) => (.error .timedOut, net.update p (.countBusy 3))
  | (.error fault, after) => (.error fault, after)

section

variable {fault : MessageError}
  (notBusy : ∀ responder waited, fault ≠ .slotBusyTimeout responder waited)

include notBusy

/-- Only a busy slot is counted. -/
theorem noteRefused_of_notBusy (net : Network) (p : PeerId) : net.noteRefused p fault = net := by
  cases fault
  case slotBusyTimeout responder waited => exact absurd rfl (notBusy responder waited)
  all_goals rfl

/-- An error other than that of a busy slot is passed on. -/
theorem writtenAs_of_notBusy (len : Nat) (p : PeerId) (net after : Network) :
    net.writtenAs len p (.error fault, after) = (.error fault, after) := by
  cases fault
  case slotBusyTimeout responder waited => exact absurd rfl (notBusy responder waited)
  all_goals rfl

end

/-- An error is that of a busy slot or another one. -/
theorem busy_or_not (fault : MessageError) :
    (∃ responder waited, fault = .slotBusyTimeout responder waited) ∨
      ∀ responder waited, fault ≠ .slotBusyTimeout responder waited := by
  cases fault
  case slotBusyTimeout responder waited => exact .inl ⟨responder, waited, rfl⟩
  all_goals exact .inr fun _ _ => nofun

section

variable {ring : Bell} {fault : MessageError} {after : Network} (layout : e.layout = l)
  (brief : request.length ≤ l.maxPayload - 2)
  (parsed : Request.parse l request = .ok (dest, body))

include layout brief parsed

/-- A write passes on the error of its patient send. -/
theorem write_of_error
    (failed : net.sendPatiently ring e dest body writeAttempts = (.error fault, after)) :
    net.write ring e request = (.error fault, after) := by
  simp only [write, layout, parsed, Nat.not_lt.mpr brief, if_false, failed]

/-- Where the whole body is sent, the whole request is written. -/
theorem write_of_ok
    (sent : net.sendPatiently ring e dest body writeAttempts = (.ok body.length, after)) :
    net.write ring e request = (.ok request.length, after) := by
  simp only [write, layout, parsed, Nat.not_lt.mpr brief, if_false, sent, ne_eq, not_true_eq_false]

end

/-- A request that parses is written as its body is sent. -/
theorem write_eq (valid : l.Valid) (seat : e.Seated l p) (ring : Bell)
    (brief : request.length ≤ l.maxPayload - 2)
    (parsed : Request.parse l request = .ok (dest, body)) :
    net.write ring e request =
      net.writtenAs request.length p (net.send ring [] e .sleep dest body) := by
  rcases sendable_or_refuses valid net p e.sendDeadline [] .sleep dest body with
    ⟨q, sendable⟩ | ⟨fault, refuses⟩
  · -- the first attempt decides, unless the slot is busy: then each of the three fails like that
    have sent := send_of_sendable valid seat ring sendable
    have once : net.sendPatiently ring e dest body 3 = net.send ring [] e .sleep dest body :=
      sendPatiently_of_done 2 fun _ _ => by simp [sent]
    rw [sent, write_of_ok seat.layout brief parsed (once.trans sent)]
    rfl
  · have refused := send_of_refuses valid seat ring refuses
    rcases busy_or_not fault with ⟨responder, waited, rfl⟩ | notBusy
    · rw [refused, write_of_error seat.layout brief parsed
        (sendPatiently_of_busy valid seat ring 3 refuses)]
      rfl
    · have once : net.sendPatiently ring e dest body 3 = net.send ring [] e .sleep dest body :=
        sendPatiently_of_done 2 fun _ _ => by simpa [refused] using notBusy _ _
      rw [refused, writtenAs_of_notBusy notBusy,
        write_of_error seat.layout brief parsed (once.trans refused)]

/-! ### What fails leaves no trace -/

/-- A write fails with this error whatever the doorbell: no byte of the region changes, no ring is
    issued, and only three attempts at a busy slot are counted. -/
structure WriteFails (net : Network) (p : PeerId) (e : Endpoint) (request : List UInt8)
    (fault : MessageError) (after : Network) : Prop where
  outcome : ∀ ring, net.write ring e request = (.error fault, after)
  memory : after.memory = net.memory
  rings : after.rings = net.rings
  stays : after = net ∨ (fault = .timedOut ∧ after = net.update p (.countBusy 3))

/-- Errors that a write never has: its body is sent as a whole, and a busy slot is a timeout. -/
def NeverWritten : MessageError → Prop
  | .partialTransfer .. => True
  | .slotBusyTimeout .. => True
  | _ => False

/-- The reasons against a message, a busy slot apart, are errors that a write may have. -/
theorem Refuses.not_neverWritten {wait : Duration} {busyPeers : List PeerId} {mode : WaitMode}
    {fault : MessageError} (refuses : net.Refuses l p wait busyPeers mode dest body fault)
    (notBusy : ∀ responder waited, fault ≠ .slotBusyTimeout responder waited) :
    ¬ NeverWritten fault := by
  cases refuses with
  | address strays => cases strays <;> exact id
  | empty => exact id
  | long => exact id
  | busy => exact absurd rfl (notBusy _ _)

/-- A message that is refused for its length is too long. -/
theorem Refuses.long_of_oversized {wait : Duration} {busyPeers : List PeerId} {mode : WaitMode}
    {len max : Nat}
    (refuses : net.Refuses l p wait busyPeers mode dest body (.oversizedPayload len max)) :
    l.maxPayload ≤ body.length := by
  cases refuses with
  | address strays => cases strays
  | long _ _ long => exact long

/-- A write succeeds with the length of the request, or it fails. -/
theorem write_cases (valid : l.Valid) (net : Network) (seat : e.Seated l p)
    (request : List UInt8) :
    (∀ ring, (net.write ring e request).1 = .ok request.length) ∨
      ∃ fault after, net.WriteFails p e request fault after ∧ ¬ NeverWritten fault := by
  by_cases brief : request.length ≤ l.maxPayload - 2
  · rcases parsed : Request.parse l request with fault | ⟨dest, body⟩
    · refine .inr ⟨.malformedRequest fault, net, ⟨fun ring => ?_, rfl, rfl, .inl rfl⟩, id⟩
      simp only [write, seat.layout, parsed, Nat.not_lt.mpr brief, if_false]
    have written : ∀ ring, net.write ring e request =
        net.writtenAs request.length p (net.send ring [] e .sleep dest body) :=
      fun ring => write_eq valid seat ring brief parsed
    -- The write fails as the send of its body does, except that a busy slot is a timeout by then.
    rcases sendable_or_refuses valid net p e.sendDeadline [] .sleep dest body with
      ⟨q, sendable⟩ | ⟨fault, refuses⟩
    · refine .inl fun ring => ?_
      rw [written, send_of_sendable valid seat ring sendable]
      rfl
    · simp only [send_of_refuses valid seat _ refuses] at written
      rcases busy_or_not fault with ⟨responder, waited, rfl⟩ | notBusy
      · exact .inr ⟨.timedOut, _, ⟨written, rfl, rfl, .inr ⟨rfl, rfl⟩⟩, id⟩
      · simp only [noteRefused_of_notBusy notBusy, writtenAs_of_notBusy notBusy] at written
        exact .inr ⟨fault, net, ⟨written, rfl, rfl, .inl rfl⟩, refuses.not_neverWritten notBusy⟩
  · refine .inr ⟨.oversizedPayload request.length (l.maxPayload - 2), net,
      ⟨fun ring => ?_, rfl, rfl, .inl rfl⟩, id⟩
    simp only [write, seat.layout, Nat.lt_of_not_le brief, if_true]

/-- A write has none of the errors that it never has. -/
theorem not_neverWritten_of_write (valid : l.Valid) (seat : e.Seated l p) {ring : Bell}
    {fault : MessageError} (failed : (net.write ring e request).1 = .error fault) :
    ¬ NeverWritten fault := by
  rcases write_cases valid net seat request with ok | ⟨fault', after, fails, never⟩
  · rw [ok] at failed
    cases failed
  · rw [fails.outcome] at failed
    cases failed
    exact never

/-- A request that reaches a peer is written if and only if the slot is idle. -/
theorem write_fails_iff (valid : l.Valid) (seat : e.Seated l p) (ring : Bell) {q : PeerId}
    (brief : request.length ≤ l.maxPayload - 2)
    (parsed : Request.parse l request = .ok (dest, body)) (reaches : dest.Reaches l q)
    (some : body ≠ []) : (∃ fault, (net.write ring e request).1 = .error fault) ↔
      (net.poll e).writable = false := by
  have shorter := Request.length_lt_of_parse parsed
  have short : body.length < l.maxPayload := by omega
  rw [poll, decide_eq_false_iff_not, seat.slot_eq, write_eq valid seat ring brief parsed]
  constructor
  · rintro ⟨fault, failed⟩ idle
    have sendable : net.Sendable l p [] .sleep dest body q := ⟨reaches, some, short, idle, nofun⟩
    rw [send_of_sendable valid seat ring sendable] at failed
    cases failed
  · intro busy
    rw [send_of_refuses valid seat ring (.busy reaches some short (.inl busy))]
    exact ⟨_, rfl⟩

/-! ### Writes are sends -/

/-- What a write of a request by the endpoint `e` of `p` comes to. -/
structure WritesAsSent (net : Network) (l : Layout) (p : PeerId) (e : Endpoint)
    (request : List UInt8) : Prop where
  /-- A request that is too long is refused unread, -/
  tooLong : l.maxPayload - 2 < request.length → ∀ ring, net.write ring e request =
    (.error (.oversizedPayload request.length (l.maxPayload - 2)), net)
  /-- then one that does not parse is, -/
  malformed : request.length ≤ l.maxPayload - 2 → ∀ fault, Request.parse l request = .error fault →
    ∀ ring, net.write ring e request = (.error (.malformedRequest fault), net)
  /-- and any other is written as its body is sent, -/
  sends : request.length ≤ l.maxPayload - 2 →
    ∀ dest body, Request.parse l request = .ok (dest, body) → ∀ ring,
      net.write ring e request =
        net.writtenAs request.length p (net.send ring [] e .sleep dest body)
  /-- which is never too long itself. -/
  fits : request.length ≤ l.maxPayload - 2 →
    ∀ dest body, Request.parse l request = .ok (dest, body) → ∀ ring len max,
      (net.send ring [] e .sleep dest body).1 ≠ .error (.oversizedPayload len max)
  notPartial : ∀ ring sent expected,
    (net.write ring e request).1 ≠ .error (.partialTransfer sent expected)
  notBusy : ∀ ring responder waited,
    (net.write ring e request).1 ≠ .error (.slotBusyTimeout responder waited)
  /-- A write that fails leaves no trace but its attempts at a busy slot. -/
  traceless : ∀ ring fault, (net.write ring e request).1 = .error fault →
    net.WriteFails p e request fault (net.write ring e request).2
  /-- A request that reaches a peer fails if and only if the endpoint is not ready for writing. -/
  writable : request.length ≤ l.maxPayload - 2 →
    ∀ dest body q, Request.parse l request = .ok (dest, body) → dest.Reaches l q → body ≠ [] →
      ∀ ring, (∃ fault, (net.write ring e request).1 = .error fault) ↔
        (net.poll e).writable = false

/-- **Writes are sends.** For every state of an endpoint and every request: a write whose own limit
    and form are met comes to what the send of its body comes to, and otherwise it is refused. -/
theorem writesAsSent (valid : l.Valid) (net : Network) (seat : e.Seated l p)
    (request : List UInt8) : net.WritesAsSent l p e request where
  tooLong long ring := by
    simp only [write, seat.layout, long, if_true]
  malformed brief fault parsed ring := by
    simp only [write, seat.layout, parsed, Nat.not_lt.mpr brief, if_false]
  sends brief dest body parsed ring := write_eq valid seat ring brief parsed
  fits brief dest body parsed ring len max refused := by
    have long := ((send_eq_error_iff valid seat ring).mp refused).long_of_oversized
    have shorter := Request.length_lt_of_parse parsed
    omega
  notPartial ring sent expected failed := not_neverWritten_of_write valid seat failed trivial
  notBusy ring responder waited failed := not_neverWritten_of_write valid seat failed trivial
  -- whichever doorbell rings, it is never reached by a write that fails
  traceless ring fault failed := by
    rcases write_cases valid net seat request with ok | ⟨fault', after, fails, -⟩
    · rw [ok] at failed
      cases failed
    · rw [fails.outcome] at failed ⊢
      cases failed
      exact fails
  writable brief dest body q parsed reaches some ring :=
    write_fails_iff valid seat ring brief parsed reaches some

/-- Peer 1 writes a message for peer 2. -/
theorem writesAsSent_small :
    let request := Utf8.encode "2:hello"
    ∃ e, smallPair.endpoint? 1 = some e ∧ smallPair.WritesAsSent smallLayout 1 e request ∧
      Request.parse smallLayout request = .ok (.component 2 peerIdSid, Utf8.encode "hello") := by
  obtain ⟨e, he, seat⟩ := exists_smallPair
  exact ⟨e, he, writesAsSent seated_smallPair.valid smallPair seat _, by decide +kernel⟩

end Network

end SharedMailbox
