import SharedMailbox.Proofs.Ledger
import SharedMailbox.Proofs.Stamps

namespace SharedMailbox

/-!
# Lengths that somebody else wrote

The memory is shared, and whoever maps it can write any length into a slot. An interrupt takes the
length as it stands there, and the consumer is told it; only reading the message is cut at the
payload area.

* `Incoming.Truthful`: what a consumer is told of its message is true; `Incoming.Clamps`: what it is
  told in any case.
* `Motion`, `Network.drive`: actions of endpoints, and writes of somebody else between them.
* `Network.Roomy`: as long as only endpoints write, every staged length is one that they can send.
* `Network.tells_of_drive`: what is told of a delivery, by the length that stood in the slot when it
  became pending.
-/

/-! ### What is told of a delivery -/

namespace Slot

variable (s : Slot) (m : Memory)

/-- The payload area. -/
def area (m : Memory) : List UInt8 := (s.staged m).area

/-- The bytes behind the header are as many as the slot has for payloads. -/
@[simp] theorem length_area : (s.area m).length = s.capacity := by simp [area, staged]

end Slot

namespace Incoming

variable {i : Incoming} {m : Memory} {buffer : List UInt8} {count : Nat}

/-- What a delivery in hand tells of its message in a memory is true. -/
structure Truthful (i : Incoming) (m : Memory) : Prop where
  /-- The length is one that the payload area holds, -/
  within : i.len ≤ i.slot.capacity
  /-- and that of the message. -/
  length : (i.payload m).length = i.len
  /-- A copy puts as many bytes of the area as it reports over the front of the buffer, and leaves
      the rest of the buffer alone. -/
  copied : ∀ buffer count, (i.copyOver m buffer).1 = .ok count →
    (i.copyOver m buffer).2.take count = (i.slot.area m).take count ∧
      (i.copyOver m buffer).2.drop count = buffer.drop count

/-- What a delivery in hand tells of its message in a memory, whatever its length: the message is
    cut at the payload area, the length is not. -/
structure Clamps (i : Incoming) (m : Memory) : Prop where
  payload : i.payload m = (i.slot.area m).take i.len
  length : (i.payload m).length = min i.len i.slot.capacity
  copied : ∀ buffer, i.len ≤ buffer.length →
    i.copyOver m buffer = (.ok i.len, i.payload m ++ buffer.drop (min i.len i.slot.capacity))
  refused : ∀ buffer, buffer.length < i.len →
    i.copyOver m buffer = (.error (.oversizedPayload i.len buffer.length), buffer)
  truthful : i.Truthful m ↔ i.len ≤ i.slot.capacity

/-- The payload is the beginning of what is behind the header. -/
theorem payload_eq_take (i : Incoming) (m : Memory) : i.payload m = (i.slot.area m).take i.len :=
  i.slot.payload_eq_take m i.len

/-- The payload ends with the slot at the latest. -/
theorem length_payload (i : Incoming) (m : Memory) :
    (i.payload m).length = min i.len i.slot.capacity := by
  rw [payload_eq_take, List.length_take, Slot.length_area]

/-- A copy covers the front of the buffer up to where the length or the payload area ends. -/
theorem copyOver_of_le (room : i.len ≤ buffer.length) :
    i.copyOver m buffer =
      (.ok i.len, i.payload m ++ buffer.drop (min i.len i.slot.capacity)) := by
  have front : (buffer.take i.len).length = i.len := by rw [List.length_take]; omega
  have rest : (buffer.take i.len).drop i.slot.capacity ++ buffer.drop i.len =
      buffer.drop (min i.len i.slot.capacity) := by
    rcases Nat.le_total i.len i.slot.capacity with within | beyond
    · rw [Nat.min_eq_left within, List.drop_eq_nil_of_le (by omega), List.nil_append]
    · rw [Nat.min_eq_right beyond, ← List.drop_append_of_le_length (by omega),
        List.take_append_drop]
  rw [copyOver, if_neg (Nat.not_lt.mpr room), Slot.copyOver, front, List.append_assoc, rest]
  rfl

/-- A buffer that is shorter than the reported length is refused, and stays. -/
theorem copyOver_of_lt (short : buffer.length < i.len) :
    i.copyOver m buffer = (.error (.oversizedPayload i.len buffer.length), buffer) := by
  rw [copyOver, if_pos short]

/-- A copy that succeeds reports the length. -/
theorem copyOver_eq_ok (copied : (i.copyOver m buffer).1 = .ok count) :
    count = i.len ∧ i.len ≤ buffer.length := by
  by_cases room : i.len ≤ buffer.length
  · rw [copyOver_of_le room] at copied
    exact ⟨(Except.ok.inj copied).symm, room⟩
  · rw [copyOver_of_lt (Nat.lt_of_not_le room)] at copied
    cases copied

/-- What is told is true iff the length does not exceed the payload area. -/
theorem truthful_iff (i : Incoming) (m : Memory) : i.Truthful m ↔ i.len ≤ i.slot.capacity := by
  refine ⟨Truthful.within, fun within => ⟨within, ?_, fun buffer count copied => ?_⟩⟩
  · rw [length_payload, Nat.min_eq_left within]
  · obtain ⟨rfl, room⟩ := copyOver_eq_ok copied
    have length : (i.payload m).length = i.len := by
      rw [length_payload, Nat.min_eq_left within]
    rw [copyOver_of_le room, Nat.min_eq_left within]
    refine ⟨?_, ?_⟩
    · rw [← payload_eq_take]
      exact List.take_left' length
    · exact List.drop_left' length

/-- What is told is this, whatever the length. -/
theorem clamps (i : Incoming) (m : Memory) : i.Clamps m where
  payload := i.payload_eq_take m
  length := i.length_payload m
  copied _ := copyOver_of_le
  refused _ := copyOver_of_lt
  truthful := i.truthful_iff m

end Incoming

/-! ### Writes of somebody else -/

/-- One thing that happens to a network: an action, or a write into its memory by somebody who is
    no endpoint of it. -/
inductive Motion where
  | act (action : Action)
  | touch (write : Memory → Memory)

/-- An endpoint is behind it. -/
def Motion.IsAct : Motion → Prop
  | .act _ => True
  | .touch _ => False

namespace Network

variable {net : Network} {l : Layout} {p : PeerId} {e : Endpoint} {d : Delivery}

/-- The network after one thing has happened to it. -/
def move (net : Network) : Motion → Network
  | .act action => (net.perform .queue action).2
  | .touch write => net.remember write

/-- The network after a list of things has happened to it. -/
def drive (net : Network) (motions : List Motion) : Network := motions.foldl move net

/-- Whatever is written, the endpoints keep to the layout that they have, and refer to peers that
    own a slot in it. -/
theorem WellFormed.move (wf : WellFormed l True net) (motion : Motion) :
    WellFormed l True (net.move motion) := by
  cases motion with
  | act action =>
    exact (wf.perform (abides_lax net action)).1
  | touch write => exact wf.remember write

/-- Whatever a network is driven through keeps it well-formed. -/
theorem WellFormed.drive (wf : WellFormed l True net) (motions : List Motion) :
    WellFormed l True (net.drive motions) := by
  induction motions generalizing net with
  | nil => exact wf
  | cons motion rest ih => exact ih (wf.move motion)

/-! ### Lengths that endpoints write -/

/-- Every staged length leaves room for the final NUL of its message. -/
def Roomy (l : Layout) (net : Network) : Prop := ∀ a, (net.staged a).len.toNat < l.maxPayload

/-- In a new mailbox nothing is staged. -/
theorem roomy_of_create {storage : Storage} {b : Mailbox}
    (created : Mailbox.create storage l = .ok b) : (ofMailbox b).Roomy l := by
  intro a
  have idle := (untouched_of_create created a).idle
  rw [staged_view] at idle
  rw [idle]
  exact (Mailbox.valid_of_create created).maxPayload_pos

/-- What endpoints do keeps to that. -/
theorem Roomy.perform (roomy : net.Roomy l) (wf : WellFormed l True net) (action : Action) :
    (net.perform .queue action).2.Roomy l := by
  obtain ⟨-, path⟩ := wf.perform (abides_lax net action)
  refine path.invariant [] (I := fun _ v => ∀ a, (v.staged a).len.toNat < l.maxPayload) ?_ roomy
  intro _ _ v u step before a
  have change := step.slotChange a
  generalize u.staged a = left at change ⊢
  -- only a message that is sent sets a length, and it was admitted
  cases change with
  | kept => exact before a
  | emptied idle =>
    rw [idle]
    exact wf.valid.maxPayload_pos
  | put _ admits =>
    rw [Staged.toNat_len_put (Nat.lt_trans admits.short l.maxPayload_lt)]
    exact admits.short

/-- As long as only endpoints act, every staged length leaves room for a NUL. -/
theorem Roomy.drive (roomy : net.Roomy l) (wf : WellFormed l True net) {motions : List Motion}
    (acts : ∀ motion ∈ motions, motion.IsAct) : (net.drive motions).Roomy l := by
  induction motions generalizing net with
  | nil => exact roomy
  | cons motion rest ih =>
    rw [List.forall_mem_cons] at acts
    obtain ⟨here, later⟩ := acts
    cases motion with
    | act action => exact ih (roomy.perform wf action) (wf.move (.act action)) later
    | touch write => exact here.elim

/-! ### The length that is told -/

/-- A dispatch leaves a delivery with the length that stands in the slot of its sender, where
    something is staged. -/
theorem Dispatched.seen {after : Network} (layout : net.layout = l)
    (left : net.Dispatched l d after) : d.len = (net.staged d.sender).len ∧ d.len ≠ 0 := by
  obtain rfl := layout
  cases left with
  | dispatch memory _ left =>
    obtain ⟨rfl, seen⟩ := seen_of_dispatch left
    rwa [memory] at seen

/-- What a consumer is told of a delivery of a peer that became pending when the network was
    `before`. -/
structure Tells (l : Layout) (before : Network) (a : PeerId) (i : Incoming) : Prop where
  sender : i.sender = a
  slot : i.slot = l.slotAt a
  /-- The length is what stood in the slot, where something did. -/
  len : i.len = ((l.slotAt a).busy before.memory).len.toNat ∧ i.len ≠ 0
  clamps : ∀ m, i.Clamps m

/-- **Lengths.** From a new mailbox on, whoever writes whatever into its memory, and when: a
    delivery that an interrupt made pending is awaited with the length that stood in the slot then.
    What the consumer is told is true, now and whenever it reads, if and only if that length is one
    that the payload area holds. It is, if up to then only endpoints have written. -/
theorem tells_of_drive {storage : Storage} {b : Mailbox}
    (created : Mailbox.create storage l = .ok b) (early later : List Motion) {action : Action}
    (installed : .installed p d ∈ ((ofMailbox b).drive early).events action)
    (he : ((ofMailbox b).drive (early ++ .act action :: later)).endpoint? p = some e)
    (pending : e.inbox.pending = some d) (patience : Patience) :
    ∃ i, (((ofMailbox b).drive (early ++ .act action :: later)).await e patience).1 = .ok i ∧
      Tells l ((ofMailbox b).drive early) d.sender i ∧
      (∀ m, i.Truthful m ↔
        ((l.slotAt d.sender).busy ((ofMailbox b).drive early).memory).len.toNat ≤ l.maxPayload) ∧
      ((∀ motion ∈ early, motion.IsAct) → ∀ m, i.Truthful m) := by
  have start : WellFormed l True (ofMailbox b) := wellFormed_of_create created
  have wf := start.drive early
  -- the dispatch has read the length when it installed the delivery, and it is kept since then
  obtain ⟨seen, some⟩ := (wf.seated.dispatched_of_installed installed).seen wf.layout
  obtain ⟨-, received, -⟩ :=
    (start.drive (early ++ .act action :: later)).await he pending patience
  have len : d.len = ((l.slotAt d.sender).busy ((ofMailbox b).drive early).memory).len := by
    rw [seen, Network.staged, wf.layout, Slot.len_staged]
  refine ⟨_, received, ⟨rfl, rfl, ⟨congrArg UInt64.toNat len, ?_⟩, Incoming.clamps _⟩,
    fun m => ?_, fun acts m => ?_⟩
  · exact fun zero => some (UInt64.toNat_inj.mp zero)
  · rw [← len]
    exact Incoming.truthful_iff _ m
  · have room := (roomy_of_create created).drive start acts d.sender
    rw [← seen] at room
    exact (Incoming.truthful_iff _ m).mpr (Nat.le_of_lt room)

/-- Peer 1 sends to peer 2. -/
def sending : List Motion := [.act (join 1), .act (join 2), .act (hail 1 2)]

/-- Somebody writes a length of 200 into the slot of peer 1, whose payload area has 128 bytes. -/
def scribble : Motion := .touch ((smallLayout.slotAt 1).publish 200)

/-- Peer 2 awaits the message of peer 1 with the length that it had when it arrived, whatever is
    written over it since. -/
theorem tells_of_drive_small :
    ∃ e i, ((ofMailbox smallMailbox).drive
        (sending ++ [.act (.deliver 0), scribble])).endpoint? 2 = some e ∧
      (((ofMailbox smallMailbox).drive
        (sending ++ [.act (.deliver 0), scribble])).await e .none).1 = .ok i ∧
      Tells smallLayout ((ofMailbox smallMailbox).drive sending) 1 i ∧ ∀ m, i.Truthful m := by
  obtain ⟨e, he, inbox⟩ := exists_of_inbox?
    (show ((ofMailbox smallMailbox).drive (sending ++ [.act (.deliver 0), scribble])).inbox? 2 =
      some ⟨some ⟨1, 1, 1⟩, none, 1⟩ by decide +kernel)
  obtain ⟨i, received, tells, -, truthful⟩ := tells_of_drive create_small sending [scribble]
    (show Event.installed 2 ⟨1, 1, 1⟩ ∈ ((ofMailbox smallMailbox).drive sending).events
      (.deliver 0) by decide +kernel) he (by rw [inbox]) .none
  exact ⟨e, i, he, received, tells, truthful (by simp [sending, Motion.IsAct])⟩

/-- The length is written before peer 2 is interrupted. -/
def scribbled : List Motion :=
  [.act (join 1), .act (join 2), scribble, .act (.interrupt 2 1)]

/-- Peer 2 is told 200 bytes and reads 128, and a copy that reports 200 bytes puts 128 of them over
    the buffer. -/
theorem not_truthful_small :
    ∃ e i, ((ofMailbox smallMailbox).drive scribbled).endpoint? 2 = some e ∧
      (((ofMailbox smallMailbox).drive scribbled).await e .none).1 = .ok i ∧
      i.len = 200 ∧ i.slot.capacity = 128 ∧
      (i.payload ((ofMailbox smallMailbox).drive scribbled).memory).length = 128 ∧
      i.copyOver ((ofMailbox smallMailbox).drive scribbled).memory (List.replicate 256 238) =
        (.ok 200, List.replicate 128 0 ++ List.replicate 128 238) := by
  obtain ⟨e, he, inbox⟩ := exists_of_inbox?
    (show ((ofMailbox smallMailbox).drive scribbled).inbox? 2 =
      some ⟨some ⟨1, 200, 1⟩, none, 1⟩ by decide +kernel)
  have start : WellFormed smallLayout True (ofMailbox smallMailbox) :=
    wellFormed_of_create create_small
  obtain ⟨-, received, -⟩ := (start.drive scribbled).await he (by rw [inbox]) .none
  exact ⟨e, _, he, received, rfl, rfl, by decide +kernel, by decide +kernel⟩

end Network

end SharedMailbox
