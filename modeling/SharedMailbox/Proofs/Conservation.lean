import Mathlib.Algebra.BigOperators.Group.Finset.Basic
import Mathlib.Data.UInt
import SharedMailbox.Proofs.Delivery
import SharedMailbox.Proofs.Tally

namespace SharedMailbox

/-!
# Conservation of messages

No message gets lost or is made up: what has been sent is under way, was discarded, or was answered
or left for a consumer; and what was left for a consumer was displaced, is pending, or was released.
The counters of endpoints are words that wrap around, so the balances are equations between words.
What is only kept of a run is counted in natural numbers.

* `Books`, `Network.books`: what is kept of a run: the last record of every peer, the rings that
  were discarded, the answers that were sent, and the pending deliveries that were released.
* `Account.Turn`, `Books.Enters`: all that one action may enter into the books.
* `Books.Even`, `Books.Enters.even`: the balances, which every entry preserves.
* `WellFormed.audits`: every action makes one of these entries.
* `Network.balanced_of_run`: so the books of every run from a new mailbox balance.
-/

/-! ### Books -/

/-- The ring was discarded, since nobody listens at its destination. -/
def Outcome.discarded : Outcome → Nat
  | .delivered _ .unattached => 1
  | _ => 0

/-- The endpoint of a peer has sent the answer to a link request. -/
def Outcome.replied (p : PeerId) : Outcome → Nat
  | .delivered w (.reached (.handled (.answered _ _ (.ok _)))) => if w.dest = p then 1 else 0
  | _ => 0

/-- How many deliveries are pending at a peer. -/
def Network.waiting (net : Network) (p : PeerId) : Nat :=
  match net.inbox? p with
  | some i => i.waiting
  | none => 0

/-- How many pending deliveries a release of a peer has removed, by itself or behind a framed
    read. -/
def Network.removed (net : Network) (action : Action) (after : Network) (p : PeerId) : Nat :=
  match action with
  | .release q | .read q _ => if q = p then net.waiting p - after.waiting p else 0
  | _ => 0

/-- What is kept of a run. -/
structure Books where
  /-- The record of the endpoint of a peer, as it was last seen. -/
  record : PeerId → Option Endpoint := fun _ => none
  /-- Rings that were discarded. -/
  discarded : Nat := 0
  /-- Answers that a peer has sent. -/
  replied : PeerId → Nat := fun _ => 0
  /-- Pending deliveries that releases of a peer have removed. -/
  removed : PeerId → Nat := fun _ => 0

/-- What the endpoint of a peer had counted when it was last seen. -/
def Books.counted (books : Books) (p : PeerId) : Metrics :=
  ((books.record p).map Endpoint.metrics).getD {}

/-- How many deliveries were pending at a peer when it was last seen. -/
def Books.waiting (books : Books) (p : PeerId) : Nat :=
  match books.record p with
  | some e => e.inbox.waiting
  | none => 0

/-- What an action with an outcome enters into the books. -/
def Books.enter (books : Books) (net : Network) (action : Action) (outcome : Outcome)
    (after : Network) : Books where
  record p := (after.endpoint? p).or (books.record p)
  discarded := books.discarded + outcome.discarded
  replied p := books.replied p + outcome.replied p
  removed p := books.removed p + net.removed action after p

/-- The books after a run. -/
def Network.books (net : Network) (books : Books) : List Action → Books
  | [] => books
  | action :: rest =>
    let (outcome, after) := net.perform .queue action
    after.books (books.enter net action outcome after) rest

/-! ### Accounts -/

/-- The account of a peer: its tally, and what the books say of it besides. -/
structure Account extends Tally where
  replied : Nat
  removed : Nat

/-- What one action does to the account of the peer that acts, how many rings it takes off the queue
    and how many it puts there. -/
inductive Account.Turn (a : Account) : Nat → Nat → Account → Prop
  /-- A message is sent, or none. -/
  | submits (sent : Option Sent) :
      Turn a 0 sent.toList.length { a with toTally := a.submit sent }
  /-- The consumer is done. -/
  | releases {n : Nat} (fewer : n ≤ a.pending) :
      Turn a 0 0 { a with pending := n, removed := a.removed + (a.pending - n) }
  /-- A link request arrives and is answered. -/
  | replies (len : Nat) :
      Turn a 1 1 { a with toTally := a.answer (.ok len), replied := a.replied + 1 }
  /-- A link request arrives, and the answer cannot be sent. -/
  | fails (fault : MessageError) : Turn a 1 0 { a with toTally := a.answer (.error fault) }
  /-- A message arrives for the consumer. -/
  | receives : Turn a 1 0 { a with toTally := a.receive }

/-- What one account has to show. -/
structure Account.Even (a : Account) : Prop where
  spurious : a.spurious = 0
  dropped : a.dropped = 0
  answers : a.answered = UInt64.ofNat a.replied + a.failed
  deliveries : a.delivered = a.stomped + UInt64.ofNat (a.pending + a.removed)

namespace Account.Turn

variable {a b : Account} {taken rung : Nat}

/-- What is sent is put on the queue. -/
theorem sent_eq (turn : a.Turn taken rung b) : b.sent = a.sent + UInt64.ofNat rung := by
  cases turn with
  | submits | replies => rfl
  | releases | fails | receives => exact (UInt64.add_zero _).symm

/-- What is answered or left for the consumer is taken off the queue. -/
theorem handled_eq (turn : a.Turn taken rung b) :
    b.answered + b.delivered = a.answered + a.delivered + UInt64.ofNat taken := by
  cases turn with
  | submits | releases => exact (UInt64.add_zero _).symm
  | replies | fails => exact add_right_comm _ 1 _
  | receives => exact (UInt64.add_assoc _ _ 1).symm

/-- A turn leaves an account even. -/
theorem even (turn : a.Turn taken rung b) (even : a.Even) : b.Even := by
  obtain ⟨spurious, dropped, answers, deliveries⟩ := even
  cases turn with
  | submits => exact ⟨spurious, dropped, answers, deliveries⟩
  | @releases n fewer =>
    have same : n + (a.removed + (a.pending - n)) = a.pending + a.removed := by omega
    exact ⟨spurious, dropped, answers, by rw [deliveries, same]⟩
  | replies =>
    refine ⟨spurious, dropped, ?_, deliveries⟩
    simp only [Tally.answer, answers, UInt64.ofNat_add]
    exact add_right_comm _ _ 1
  | fails =>
    refine ⟨spurious, dropped, ?_, deliveries⟩
    simp only [Tally.answer, answers]
    exact UInt64.add_assoc _ _ 1
  | receives =>
    -- the delivery that was pending counts as displaced now, and the new one is pending
    refine ⟨spurious, dropped, answers, ?_⟩
    simp only [Tally.receive, deliveries, UInt64.ofNat_add]
    grind

end Account.Turn

/-! ### Entries -/

namespace Books

/-- The tally of a peer, as it was last seen. -/
def tally (books : Books) (p : PeerId) : Tally := ((books.record p).map Endpoint.tally).getD {}

/-- The account of one peer in the books. -/
def account (books : Books) (p : PeerId) : Account where
  toTally := books.tally p
  replied := books.replied p
  removed := books.removed p

/-- What one action makes of the books and of the number of rings under way. -/
inductive Enters (l : Layout) (books : Books) (rings : Nat) (books' : Books) (rings' : Nat) : Prop
  | nothing (accounts : books'.account = books.account)
      (discarded : books'.discarded = books.discarded) (queue : rings' = rings)
  /-- A ring is discarded. -/
  | discards (accounts : books'.account = books.account)
      (discarded : books'.discarded = books.discarded + 1) (queue : rings' + 1 = rings)
  /-- A peer acts. -/
  | turns {p : PeerId} {taken rung : Nat} (owner : l.HasSlot p.toUInt64)
      (turn : (books.account p).Turn taken rung (books'.account p))
      (others : ∀ q, q ≠ p → books'.account q = books.account q)
      (discarded : books'.discarded = books.discarded) (queue : rings' + taken = rings + rung)

/-- The books are balanced. -/
structure Even (l : Layout) (books : Books) (rings : Nat) : Prop where
  messages : ∑ p ∈ l.peerIds.toFinset, (books.account p).sent =
    UInt64.ofNat (rings + books.discarded) +
      ∑ p ∈ l.peerIds.toFinset, ((books.account p).answered + (books.account p).delivered)
  accounts : ∀ p, (books.account p).Even

/-- A sum in which one summand changes. -/
theorem sum_of_others {peers : Finset PeerId} {p : PeerId} (there : p ∈ peers)
    {f g : PeerId → UInt64} {n : UInt64} (own : g p = f p + n) (others : ∀ q, q ≠ p → g q = f q) :
    ∑ q ∈ peers, g q = ∑ q ∈ peers, f q + n := by
  have rest : ∑ q ∈ peers.erase p, g q = ∑ q ∈ peers.erase p, f q :=
    Finset.sum_congr rfl fun q h => others q (Finset.ne_of_mem_erase h)
  rw [← Finset.add_sum_erase peers g there, ← Finset.add_sum_erase peers f there, own, rest]
  exact add_right_comm _ _ _

variable {l : Layout} {books books' : Books} {rings rings' : Nat}

/-- Books stay even when an action is entered. -/
theorem Enters.even (valid : l.Valid) (enters : books.Enters l rings books' rings')
    (even : books.Even l rings) : books'.Even l rings' := by
  obtain ⟨messages, accounts⟩ := even
  -- Each side of the balance changes by the turn of one peer, or not at all.
  cases enters with
  | nothing same discarded queue =>
    rw [← same] at messages accounts
    exact ⟨by rw [messages, discarded, queue], accounts⟩
  | discards same discarded queue =>
    rw [← same] at messages accounts
    have moved : rings' + books'.discarded = rings + books.discarded := by omega
    exact ⟨by rw [messages, moved], accounts⟩
  | @turns p taken rung owner turn others discarded queue =>
    have there : p ∈ l.peerIds.toFinset :=
      List.mem_toFinset.mpr ((Layout.mem_peerIds valid).mpr owner)
    have sent := sum_of_others there (f := fun q => (books.account q).sent)
      (g := fun q => (books'.account q).sent) turn.sent_eq fun q other => by rw [others q other]
    have handled := sum_of_others there
      (f := fun q => (books.account q).answered + (books.account q).delivered)
      (g := fun q => (books'.account q).answered + (books'.account q).delivered) turn.handled_eq
      fun q other => by rw [others q other]
    refine ⟨?_, fun q => ?_⟩
    · -- what is taken off the queue is handled, and what is sent is put there
      have words := congrArg UInt64.ofNat queue
      simp only [UInt64.ofNat_add] at words messages ⊢
      rw [sent, handled, messages, discarded]
      grind
    by_cases own : q = p
    · subst own
      exact turn.even (accounts q)
    · rw [others q own]
      exact accounts q

end Books

/-! ### What actions enter -/

/-- Whoever sends owns a slot. -/
theorem Memory.Deeds.owner_of_sent {l : Layout} {p : PeerId} {m n : Memory} {s : Sent}
    (deeds : Deeds l p m (some s) n) : l.HasSlot s.origin.toUInt64 := by
  cases deeds with
  | posted owner _ origin => rwa [origin]

/-- A message whose ring is under way is new to every inbox. -/
theorem View.Owned.exists_fresh {v : View} {w : DoorbellWord} (owned : v.Owned w.origin)
    (there : w ∈ v.rings) {p : PeerId} {i : Inbox} (here : v.inbox p = some i) (len : UInt64) :
    ∃ d, i.fresh? w.origin len = some d := by
  rcases fresh : i.fresh? w.origin len with _ | d
  · obtain ⟨d, pending, sender⟩ := Option.map_eq_some_iff.mp (Inbox.fresh?_eq_none.mp fresh)
    obtain ⟨-, -, unreferred⟩ := owned.ring w there rfl
    exact absurd sender (unreferred p d ⟨i, here, .inl pending⟩)
  · exact ⟨d, rfl⟩

namespace Network

variable {net after : Network} {l : Layout} {p q : PeerId} {e : Endpoint} {t : Tally}
  {books : Books} {action : Action} {outcome : Outcome}

/-- What waits at a peer is what its tally has as pending. -/
theorem waiting_of_tally? (h : net.tally? p = some t) : net.waiting p = t.pending := by
  obtain ⟨e, he, rfl⟩ := Option.map_eq_some_iff.mp h
  rw [waiting, inbox?_of_endpoint? he]
  rfl

/-- Every endpoint has enough vectors for all peers, and every ring is of a peer with a slot. -/
structure Armed (l : Layout) (net : Network) : Prop where
  vectors : ∀ p e, net.endpoint? p = some e → l.nEvents.toNat ≤ e.vectors.size
  origins : ∀ w ∈ net.rings, l.HasSlot w.origin.toUInt64

/-- An act leaves all endpoints armed. -/
theorem Armed.acts (armed : net.Armed l) {sent : Option Sent} (acts : net.Acts l p sent after) :
    after.Armed l where
  vectors := Equipped.acts armed.vectors acts
  origins w h := by
    have there := List.mem_map_of_mem (f := DoorbellWord.origin) h
    rw [acts.rings, List.mem_append] at there
    rcases there with old | new
    · obtain ⟨w', h', same⟩ := List.mem_map.mp old
      rw [← same]
      exact armed.origins w' h'
    · obtain ⟨s, told, origin⟩ := List.mem_map.mp new
      obtain rfl := Option.mem_toList.mp told
      rw [← origin]
      exact acts.deeds.owner_of_sent

/-- Taking a ring off the queue leaves all endpoints armed. -/
theorem Armed.dequeue (armed : net.Armed l) (place : Nat) : (net.dequeue place).Armed l where
  vectors := armed.vectors
  origins w h := armed.origins w (List.mem_of_mem_eraseIdx h)

end Network

namespace Books

variable {net after : Network} {l : Layout} {p q : PeerId} {t t' : Tally}
  {books : Books} {action : Action} {outcome : Outcome}

/-- The books have the record of every endpoint. -/
def Cover (books : Books) (net : Network) : Prop :=
  ∀ p e, net.endpoint? p = some e → books.record p = some e

/-- Once an action is entered the books cover the network after it. -/
theorem cover_enter (books : Books) (net : Network) (action : Action) (outcome : Outcome)
    (after : Network) : (books.enter net action outcome after).Cover after := by
  intro p e he
  simp only [enter, he, Option.some_or]

/-- The entered tally of a peer is the one that it has, or the last one that it had. -/
theorem tally_enter (books : Books) (net : Network) (action : Action) (outcome : Outcome)
    (after : Network) (q : PeerId) :
    (books.enter net action outcome after).tally q = (after.tally? q).getD (books.tally q) := by
  simp only [tally, enter, Network.tally?]
  rcases after.endpoint? q with _ | e <;> rfl

/-- Books that cover a network have the tally of each of its peers. -/
theorem Cover.tally_eq (cover : books.Cover net) (h : net.tally? p = some t) :
    books.tally p = t := by
  obtain ⟨e, he, rfl⟩ := Option.map_eq_some_iff.mp h
  rw [tally, cover p e he]
  rfl

/-- Whether a peer has a tally now or had one before, the books have it. -/
theorem Cover.getD_eq (cover : books.Cover net) (q : PeerId) :
    (net.tally? q).getD (books.tally q) = books.tally q := by
  rcases h : net.tally? q with _ | t
  · rfl
  · exact (cover.tally_eq h).symm

/-- Nothing is entered for a peer whose tally stays. -/
theorem account_enter (same : (after.tally? q).getD (books.tally q) = books.tally q)
    (replied : outcome.replied q = 0) (removed : net.removed action after q = 0) :
    (books.enter net action outcome after).account q = books.account q := by
  simp only [account, tally_enter, same]
  simp only [enter, replied, removed, Nat.add_zero]

/-- An action that no tally shows enters nothing. -/
theorem enters_nothing (same : ∀ q, (after.tally? q).getD (books.tally q) = books.tally q)
    (plain : outcome.discarded = 0 ∧ ∀ q, outcome.replied q = 0)
    (removed : ∀ q, net.removed action after q = 0)
    (queue : after.rings.length = net.rings.length) :
    books.Enters l net.rings.length (books.enter net action outcome after) after.rings.length :=
  .nothing (funext fun q => account_enter (same q) (plain.2 q) (removed q))
    (by simp only [enter, plain.1, Nat.add_zero]) queue

/-- An action of one peer enters as a turn of its account, if no other peer has anything to do
    with it. -/
theorem enters_turn (cover : books.Cover net) (owner : l.HasSlot p.toUInt64) {taken rung : Nat}
    (before : net.tally? p = some t) (later : after.tally? p = some t')
    (others : ∀ q, q ≠ p → after.tally? q = net.tally? q) (discarded : outcome.discarded = 0)
    (silent : ∀ q, q ≠ p → outcome.replied q = 0 ∧ net.removed action after q = 0)
    (turn : (Account.mk t (books.replied p) (books.removed p)).Turn taken rung
      ⟨t', books.replied p + outcome.replied p, books.removed p + net.removed action after p⟩)
    (queue : after.rings.length + taken = net.rings.length + rung) :
    books.Enters l net.rings.length (books.enter net action outcome after) after.rings.length := by
  have own : (books.enter net action outcome after).account p =
      ⟨t', books.replied p + outcome.replied p, books.removed p + net.removed action after p⟩ := by
    simp only [account, tally_enter, later, Option.getD_some]
    rfl
  refine .turns owner ?_ (fun q other => ?_) (by simp only [enter, discarded, Nat.add_zero]) queue
  · rw [own, account, cover.tally_eq before]
    exact turn
  · obtain ⟨replied, removed⟩ := silent q other
    exact account_enter ((others q other).symm ▸ cover.getD_eq q) replied removed

end Books

namespace Network

variable {net after : Network} {l : Layout} {p q : PeerId} {e : Endpoint} {books : Books}
  {action : Action} {outcome : Outcome} {sent : Option Sent} {w : DoorbellWord}

/-- An action with an outcome keeps endpoints armed, and enters something into the books. -/
structure Audits (l : Layout) (books : Books) (net : Network) (action : Action) (outcome : Outcome)
    (after : Network) : Prop where
  armed : after.Armed l
  enters : books.Enters l net.rings.length (books.enter net action outcome after) after.rings.length

section

variable (armed : net.Armed l) (cover : books.Cover net)

include armed cover

/-- An endpoint that neither sends nor gives up anything. -/
theorem Acts.audits (acts : net.Acts l p none after)
    (same : (after.tally? p).getD (books.tally p) = books.tally p)
    (plain : outcome.discarded = 0 ∧ ∀ q, outcome.replied q = 0)
    (removed : ∀ q, net.removed action after q = 0) :
    Audits l books net action outcome after := by
  have queue : after.rings.length = net.rings.length := by simpa using acts.length_rings
  have kept : ∀ q, (after.tally? q).getD (books.tally q) = books.tally q := by
    intro q
    by_cases own : q = p
    · rw [own, same]
    · rw [acts.tally?_of_ne own, cover.getD_eq]
  exact ⟨armed.acts acts, Books.enters_nothing kept plain removed queue⟩

/-- An endpoint that is told to send. -/
theorem Submits.audits (he : net.endpoint? p = some e) (owner : l.HasSlot p.toUInt64)
    (submits : net.Submits l p sent after) {result : Except MessageError Nat}
    (counts : after.tally? p = (net.tally? p).map (·.submit sent))
    (removed : ∀ q, net.removed action after q = 0) :
    Audits l books net action (.sent result) after := by
  have before := tally?_of_endpoint? he
  rw [before, Option.map_some] at counts
  have turn : (Account.mk e.tally (books.replied p) (books.removed p)).Turn 0 sent.toList.length
      ⟨e.tally.submit sent, books.replied p + 0, books.removed p + net.removed action after p⟩ := by
    rw [removed]
    exact .submits sent
  refine ⟨armed.acts submits.toActs, Books.enters_turn cover owner before counts ?_ rfl ?_ turn
    submits.length_rings⟩
  · intro q other
    exact submits.tally?_of_ne other
  · intro q _
    exact ⟨rfl, removed q⟩

/-- A consumer that may give up what is pending. -/
theorem Acts.audits_release (he : net.endpoint? p = some e) (owner : l.HasSlot p.toUInt64)
    (acts : net.Acts l p none after) {n : Nat} (fewer : n ≤ e.inbox.waiting)
    (left : after.tally? p = some { e.tally with pending := n })
    (plain : outcome.discarded = 0 ∧ ∀ q, outcome.replied q = 0)
    (own : net.removed action after p = net.waiting p - after.waiting p)
    (others : ∀ q, q ≠ p → net.removed action after q = 0) :
    Audits l books net action outcome after := by
  have before := tally?_of_endpoint? he
  -- the books enter as removed what the record no longer has pending
  have gone : net.removed action after p = e.tally.pending - n := by
    rw [own, waiting_of_tally? before, waiting_of_tally? left]
  have turn : (Account.mk e.tally (books.replied p) (books.removed p)).Turn 0 0
      ⟨{ e.tally with pending := n }, books.replied p + outcome.replied p,
        books.removed p + net.removed action after p⟩ := by
    rw [plain.2, gone]
    exact .releases fewer
  have queue : after.rings.length = net.rings.length := by simpa using acts.length_rings
  refine ⟨armed.acts acts, Books.enters_turn cover owner before left ?_ plain.1 ?_ turn queue⟩
  · intro q other
    exact acts.tally?_of_ne other
  · intro q other
    exact ⟨plain.2 q, others q other⟩

/-- A ring that an endpoint at its destination has handled. -/
theorem Responds.audits {place : Nat} (found : net.rings[place]? = some w)
    (he : net.endpoint? w.dest = some e) (owner : l.HasSlot w.dest.toUInt64) {receipt : Receipt}
    {t : Tally} (responds : (net.dequeue place).Responds l w.dest (receipt.sent? w.dest) after)
    (counts : after.tally? w.dest = some t)
    (turn : (Account.mk e.tally (books.replied w.dest) (books.removed w.dest)).Turn 1
      (receipt.sent? w.dest).toList.length
      ⟨t, books.replied w.dest +
        (Outcome.delivered w (.reached (.handled receipt))).replied w.dest,
        books.removed w.dest⟩) :
    Audits l books net (.deliver place) (.delivered w (.reached (.handled receipt)))
      after := by
  have acts := responds.acts
  have queue :
      after.rings.length + 1 = net.rings.length + (receipt.sent? w.dest).toList.length := by
    have rung := acts.length_rings
    have one := length_dequeue found
    omega
  refine ⟨(armed.dequeue place).acts acts, Books.enters_turn cover owner (tally?_of_endpoint? he)
    counts ?_ rfl ?_ turn queue⟩
  · intro q other
    exact acts.tally?_of_ne other
  · intro q other
    refine ⟨?_, rfl⟩
    -- an answer counts at the destination of the ring only
    unfold Outcome.replied
    split
    next same =>
      cases same
      exact if_neg (Ne.symm other)
    next => rfl

/-- A ring that is dispatched: its message is answered or left for the consumer. -/
theorem audits_dispatch {place : Nat} (valid : l.Valid) (found : net.rings[place]? = some w)
    (he : net.endpoint? w.dest = some e) (seat : e.Seated l w.dest)
    (owner : l.HasSlot w.origin.toUInt64)
    (busy : ((l.slotAt w.origin).staged (net.dequeue place).memory).len ≠ 0)
    (new : ∀ len, ∃ d, e.inbox.fresh? w.origin len = some d) :
    Audits l books net (.deliver place)
      (.delivered w (.reached (.handled
        ((net.dequeue place).dispatch .queue [] e w.origin (l.slotAt w.origin)).1)))
      ((net.dequeue place).dispatch .queue [] e w.origin (l.slotAt w.origin)).2 := by
  have responds := (net.dequeue place).responds_dispatch valid seat [] owner
  have here : (net.dequeue place).endpoint? w.dest = some e := he
  -- A request is answered at once, a plain message is left pending: each counts in its own way.
  rcases response : Link.respond e.identity
      ((l.slotAt w.origin).staged (net.dequeue place).memory).message with _ | ⟨identity, answer⟩
  · have plain := Link.respond_eq_none_iff.mp response
    obtain ⟨d, fresh⟩ := new ((l.slotAt w.origin).staged (net.dequeue place).memory).len
    have counts := tally?_dispatch_plain here seat.peer [] busy plain fresh
    have told : ((net.dequeue place).dispatch .queue [] e w.origin (l.slotAt w.origin)).1 =
        .left w.origin (some d) := by rw [dispatch_of_plain _ _ busy plain, fresh]
    rw [told] at responds ⊢
    generalize ((net.dequeue place).dispatch .queue [] e w.origin (l.slotAt w.origin)).2 = after
      at responds counts ⊢
    exact responds.audits armed cover found he seat.owner counts .receives
  · obtain ⟨result, told, counts⟩ := tally?_dispatch_request here seat.peer [] busy response
    rw [told] at responds ⊢
    generalize ((net.dequeue place).dispatch .queue [] e w.origin (l.slotAt w.origin)).2 = after
      at responds counts ⊢
    apply responds.audits armed cover found he seat.owner counts
    rcases result with fault | len
    · exact .fails fault
    · simp only [Outcome.replied, if_true]
      exact .replies len

/-- A ring that arrives is discarded or dispatched. -/
theorem WellFormed.audits_deliver (wf : WellFormed l False net) (owned : ∀ a, net.view.Owned a)
    {place : Nat} (found : net.rings[place]? = some w) :
    Audits l books net (.deliver place)
      (.delivered w ((net.dequeue place).raise .queue [] w).1)
      ((net.dequeue place).raise .queue [] w).2 := by
  by_cases silent : ∀ e, (net.dequeue place).endpoint? w.dest = some e → e.listening = false
  · rw [raise_of_silent silent]
    refine ⟨armed.dequeue place, .discards ?_ rfl (length_dequeue found)⟩
    funext q
    exact Books.account_enter (cover.getD_eq q) rfl rfl
  · push Not at silent
    obtain ⟨e, there, listening⟩ := silent
    have he : net.endpoint? w.dest = some e := there
    have fits := wf.fits w.dest e he
    have seat : e.Seated l w.dest := ⟨fits.peer, fits.layout, fits.owner⟩
    have queued : w ∈ net.rings := List.mem_of_getElem? found
    have owner := armed.origins w queued
    rw [raise_of_listening wf.valid there seat (by simpa using listening)
      (fits.vectors.resolve_left id) (armed.vectors _ e he) owner]
    -- the ring announces a message, and nobody refers to its sender yet
    have same :
        net.view.staged w.origin = (l.slotAt w.origin).staged (net.dequeue place).memory := by
      rw [staged_view, Network.staged, wf.layout]
      rfl
    have busy := ((owned w.origin).ring w queued rfl).1
    rw [same] at busy
    dsimp only
    exact audits_dispatch armed cover wf.valid found he seat owner busy
      ((owned w.origin).exists_fresh queued (inbox?_of_endpoint? he))

/-- An endpoint acts, if the peer has one. -/
theorem audits_actAs (removed : ∀ q, net.removed action net q = 0)
    {act : Endpoint → Outcome × Network}
    (acts : ∀ e, net.endpoint? p = some e → Audits l books net action (act e).1 (act e).2) :
    Audits l books net action (net.actAs p act).1 (net.actAs p act).2 := by
  unfold Network.actAs
  rcases he : net.endpoint? p with _ | e
  · exact ⟨armed, Books.enters_nothing cover.getD_eq ⟨rfl, fun _ => rfl⟩ removed rfl⟩
  · exact acts e he

/-- Every action is entered as one of these, if a peer attaches only without a record. -/
theorem WellFormed.audits (wf : WellFormed l False net) (owned : ∀ a, net.view.Owned a)
    (orderly : action.Orderly)
    (unknown : ∀ p, .attached p ∈ net.events action → books.record p = none) :
    Audits l books net action (net.perform .queue action).1 (net.perform .queue action).2 := by
  have seats := wf.seated.seats
  cases action with
  | raise | interrupt => cases orderly
  | deliver place =>
    simp only [Network.perform]
    rcases found : net.rings[place]? with _ | w
    · simp only [Network.deliver?, found]
      exact ⟨armed, Books.enters_nothing cover.getD_eq ⟨rfl, fun _ => rfl⟩ (fun _ => rfl) rfl⟩
    · rw [deliver?_of_ring found]
      exact wf.audits_deliver armed cover owned found
  | attach p vectors config host =>
    simp only [events, Network.perform] at unknown ⊢
    rcases made : net.attach net.layout p vectors config host with fault | after
    · exact ⟨armed, Books.enters_nothing cover.getD_eq ⟨rfl, fun _ => rfl⟩ (fun _ => rfl) rfl⟩
    · rw [wf.layout] at made
      rw [wf.layout, made] at unknown
      refine (acts_attach wf.valid made).audits armed cover ?_ ⟨rfl, fun _ => rfl⟩ fun _ => rfl
      -- the counters start anew, as those of a peer without a record
      rw [tally?_attach made, Books.tally, unknown p (by simp [tell])]
      rfl
  | detach p =>
    simp only [Network.perform]
    refine (acts_detach net l p).audits armed cover ?_ ⟨rfl, fun _ => rfl⟩ fun _ => rfl
    rw [tally?_detach, cover.getD_eq]
  | forget p =>
    simp only [Network.perform]
    refine (acts_forget net l p).audits armed cover ?_ ⟨rfl, fun _ => rfl⟩ fun _ => rfl
    rw [tally?_forget]
    rfl
  | send p mode dest message =>
    apply audits_actAs armed cover fun _ => rfl
    intro e he
    have seat := seats p e he
    exact (net.submits_send seat [] mode dest message).audits armed cover he seat.owner
      (net.tally?_send seat.peer [] mode dest message) fun _ => rfl
  | requestDump p =>
    apply audits_actAs armed cover fun _ => rfl
    intro e he
    have seat := seats p e he
    exact (net.submits_requestDump seat).audits armed cover he seat.owner
      (net.tally?_requestDump seat) fun _ => rfl
  | write p request =>
    apply audits_actAs armed cover fun _ => rfl
    intro e he
    have seat := seats p e he
    exact (net.submits_write seat request).audits armed cover he seat.owner
      (net.tally?_write seat request) fun _ => rfl
  | await p patience =>
    apply audits_actAs armed cover fun _ => rfl
    intro e he
    have seat := seats p e he
    refine (net.acts_await wf.valid seat patience).audits armed cover ?_ ⟨rfl, fun _ => rfl⟩
      fun _ => rfl
    rw [tally?_await he seat.peer, Option.getD_some, cover.tally_eq (tally?_of_endpoint? he)]
  | release p =>
    apply audits_actAs armed cover fun q => by simp [removed]
    intro e he
    have seat := seats p e he
    obtain ⟨n, fewer, left⟩ := tally?_release he seat.peer
    exact (net.acts_release wf.valid seat).audits_release armed cover he seat.owner fewer left
      ⟨rfl, fun _ => rfl⟩ (if_pos rfl) fun q other => if_neg (Ne.symm other)
  | read p buffer =>
    apply audits_actAs armed cover fun q => by simp [removed]
    intro e he
    have seat := seats p e he
    obtain ⟨n, fewer, left⟩ := tally?_read wf.valid (seats p) he buffer
    exact (acts_read wf.valid (seats p) he buffer).audits_release armed cover he seat.owner fewer
      left ⟨rfl, fun _ => rfl⟩ (if_pos rfl) fun q other => if_neg (Ne.symm other)
  | setClass p name =>
    apply audits_actAs armed cover fun _ => rfl
    intro e he
    have seat := seats p e he
    refine (net.acts_setClass seat name).audits armed cover ?_ ⟨rfl, fun _ => rfl⟩ fun _ => rfl
    rw [tally?_setClass net seat.peer, cover.getD_eq]

end

/-! ### Runs -/

/-- The books of a run that goes on are those of its end, kept on from those of its beginning. -/
theorem books_append (net : Network) (books : Books) (first second : List Action) :
    net.books books (first ++ second) =
      (net.run .queue first).books (net.books books first) second := by
  induction first generalizing net books with
  | nil => rfl
  | cons action rest ih => exact ih _ _

variable {storage : Storage} {b : Mailbox} {actions : List Action}

/-- After a run the books know who has attached, and balance. -/
structure Audited (l : Layout) (story : Story) (net : Network) (books : Books) : Prop where
  armed : net.Armed l
  cover : books.Cover net
  known : ∀ p e, books.record p = some e → .attached p ∈ story ∧ l.HasSlot p.toUInt64
  even : books.Even l net.rings.length

/-- At the start the books are empty, and even. -/
theorem audited_ofMailbox (l : Layout) (b : Mailbox) : Audited l [] (ofMailbox b) {} where
  armed := ⟨fun p e he => by simp [ofMailbox, endpoint?] at he, by simp [ofMailbox]⟩
  cover p e he := by simp [ofMailbox, endpoint?] at he
  known _ _ h := by cases h
  even := ⟨by simp [Books.account, Books.tally, ofMailbox], fun _ => ⟨rfl, rfl, rfl, rfl⟩⟩

/-- After a run without stray rings in which no peer attaches twice, the books balance. -/
theorem audited_of_run (created : Mailbox.create storage l = .ok b)
    (orderly : ∀ action ∈ actions, action.Orderly) (once : ((ofMailbox b).story actions).Once) :
    Audited l ((ofMailbox b).story actions) ((ofMailbox b).run .queue actions)
      ((ofMailbox b).books {} actions) := by
  induction actions using List.reverseRecOn with
  | nil => exact audited_ofMailbox l b
  | append_singleton before action ih =>
    have early : ∀ a ∈ before, a.Orderly := fun a h => orderly a (List.mem_append_left _ h)
    have untouched := untouched_of_create created
    obtain ⟨wf', path⟩ := path_of_once False created (fun a h => .inr (orderly a h)) once
    rw [story_append] at once
    obtain ⟨wf, -⟩ := path_of_once False created (fun a h => .inr (early a h)) once.of_append
    have account := account_of_run created early once.of_append
    obtain ⟨armed, cover, known, even⟩ := ih early once.of_append
    -- a peer that attaches now has not attached before, so there is no record of it
    have unknown : ∀ p, .attached p ∈ ((ofMailbox b).run .queue before).events action →
        ((ofMailbox b).books {} before).record p = none := by
      intro p now
      by_contra recorded
      obtain ⟨e, record⟩ := Option.ne_none_iff_exists'.mp recorded
      exact once.not_mem (List.mem_append_left _ now) (known p e record).1
    obtain ⟨armed', enters⟩ :=
      wf.audits armed cover account.owned (orderly action (by simp)) unknown
    have known' : ∀ p e, (((ofMailbox b).run .queue (before ++ [action])).endpoint? p).or
        (((ofMailbox b).books {} before).record p) = some e →
        .attached p ∈ (ofMailbox b).story (before ++ [action]) ∧ l.HasSlot p.toUInt64 := by
      intro p e record
      rcases Option.or_eq_some_iff.mp record with here | ⟨-, record⟩
      · refine ⟨?_, (wf'.fits p e here).owner⟩
        by_contra never
        have absent := (untouched_of_path path (untouched p) never).absent
        rw [inbox_view, inbox?_of_endpoint? here] at absent
        cases absent
      · obtain ⟨attached, owner⟩ := known p e record
        rw [story_append]
        exact ⟨List.mem_append_left _ attached, owner⟩
    rw [run_append, run_cons, run_nil] at known' ⊢
    rw [books_append]
    exact ⟨armed', Books.cover_enter _ _ _ _ _, known', enters.even wf.valid even⟩

/-- The books of a run balance. The counters are words, and so are their sums. -/
structure Balanced (l : Layout) (net : Network) (books : Books) : Prop where
  /-- Every endpoint is on record, and the sums below miss none that is. -/
  cover : books.Cover net
  owner : ∀ p e, books.record p = some e → p ∈ l.peerIds.toFinset
  /-- What was sent is under way, was discarded, or was answered or left for a consumer. -/
  messages : ∑ p ∈ l.peerIds.toFinset, (books.counted p).messagesSent =
    UInt64.ofNat (net.rings.length + books.discarded) +
      ∑ p ∈ l.peerIds.toFinset, ((books.counted p).linkHandled + (books.counted p).delivered)
  spurious : ∀ p, (books.counted p).spuriousInterrupts = 0
  dropped : ∀ p, (books.counted p).droppedInterrupts = 0
  /-- For what was answered an answer was sent, or that failed. -/
  answers : ∀ p, (books.counted p).linkHandled =
    UInt64.ofNat (books.replied p) + (books.counted p).replyFailures
  /-- What was left for the consumer was displaced, is pending, or was removed by a release. -/
  deliveries : ∀ p, (books.counted p).delivered =
    (books.counted p).incomingStomps + UInt64.ofNat (books.waiting p + books.removed p)

/-- **Conservation.** In every run from a new mailbox in which no peer attaches twice, no vector
    table has repeats and no ring is raised that nobody sent, no message gets lost or is made up:
    the counters of all endpoints that there are or were balance. -/
theorem balanced_of_run (created : Mailbox.create storage l = .ok b)
    (orderly : ∀ action ∈ actions, action.Orderly) (once : ((ofMailbox b).story actions).Once) :
    Balanced l ((ofMailbox b).run .queue actions) ((ofMailbox b).books {} actions) := by
  obtain ⟨-, cover, known, messages, accounts⟩ := audited_of_run created orderly once
  have valid := Mailbox.valid_of_create created
  generalize (ofMailbox b).books {} actions = books at *
  -- the books hold what the endpoints count, also of endpoints that are gone
  have shows : ∀ p, books.account p = Account.mk
      { sent := (books.counted p).messagesSent
        answered := (books.counted p).linkHandled
        failed := (books.counted p).replyFailures
        delivered := (books.counted p).delivered
        stomped := (books.counted p).incomingStomps
        dropped := (books.counted p).droppedInterrupts
        spurious := (books.counted p).spuriousInterrupts
        pending := books.waiting p }
      (books.replied p) (books.removed p) := by
    intro p
    simp only [Books.account, Books.tally, Books.counted, Books.waiting]
    rcases books.record p with _ | e <;> rfl
  simp only [shows] at messages accounts
  exact
    { cover := cover
      owner := fun p e record =>
        List.mem_toFinset.mpr ((Layout.mem_peerIds valid).mpr (known p e record).2)
      messages := messages
      spurious := fun p => (accounts p).spurious
      dropped := fun p => (accounts p).dropped
      answers := fun p => (accounts p).answers
      deliveries := fun p => (accounts p).deliveries }

/-- Peers 1 and 3 send to peer 2, which displaces the first message and releases the second, and
    asks peer 1 for a sign of life. It is gone when the answer arrives. -/
def exchange : List Action :=
  [join 1, join 2, join 3, hail 1 2, .deliver 0, hail 3 2, .deliver 0, .release 2,
    .send 2 .spin (.peer 1) Link.ping, .deliver 0, .forget 2, .deliver 0]

/-- The books of this run balance. -/
theorem balanced_of_run_small : Balanced smallLayout ((ofMailbox smallMailbox).run .queue exchange)
    ((ofMailbox smallMailbox).books {} exchange) :=
  balanced_of_run create_small (by decide) (by decide +kernel)

example :
    let books := (ofMailbox smallMailbox).books {} exchange
    books.discarded = 1 ∧ books.replied 1 = 1 ∧ books.removed 2 = 1 ∧
      (books.counted 2).incomingStomps = 1 ∧ (books.counted 2).messagesSent = 1 := by
  decide +kernel

end Network

end SharedMailbox
