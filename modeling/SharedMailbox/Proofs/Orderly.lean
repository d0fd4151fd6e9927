import SharedMailbox.Proofs.GivenUp
import SharedMailbox.Proofs.Ownership

namespace SharedMailbox

/-!
# Orderly runs

Runs from a new mailbox in which no peer attaches twice.

* `Network.wellFormed_of_create`, `Network.untouched_of_create`: a new mailbox is well-formed, and
  no peer of it has attached.
* `Network.WellFormed.abides_of_once`: a peer that attaches once claims a slot that is untouched.
* `Network.SlotOwned`, `Network.slotOwned_of_run`: after such a run without stray rings, every slot
  that is busy is busy for one ring or for one endpoint, and whatever is given up empties it.
-/

/-! ### New mailboxes -/

namespace Mailbox

variable {storage : Storage} {l : Layout} {b : Mailbox}

/-- The layout of a mailbox that was made is valid. -/
theorem valid_of_create (h : create storage l = .ok b) : l.Valid := by
  unfold create at h
  split at h
  next => cases h
  next valid => exact valid

/-- A mailbox that was made has the layout it was made for, and nothing but its stamps in memory. -/
theorem eq_of_create (h : create storage l = .ok b) : b.layout = l ∧ b.memory = format l := by
  unfold create at h
  split at h
  · cases h
  · split at h
    · cases h
    · cases h
      exact ⟨rfl, rfl⟩

/-- Stamping the slots of a new mailbox leaves every length at zero. -/
theorem word_format (valid : l.Valid) (p : PeerId) :
    (format l).word ((l.slotAt p).base + 64) = 0 := by
  -- a stamp lies behind the length of its own slot, and in no other slot
  have stamped : ∀ (peers : List PeerId) (m : Memory), m.word ((l.slotAt p).base + 64) = 0 →
      (peers.foldl (stampPeer l) m).word ((l.slotAt p).base + 64) = 0 := by
    intro peers
    induction peers with
    | nil => exact fun m h => h
    | cons q rest ih =>
      intro m h
      refine ih _ ?_
      unfold stampPeer
      split
      next slot found =>
        obtain rfl := Layout.slot?_eq_some valid found
        have within := Memory.sameOutside_storeWord m ((l.slotAt q).base + 72) q.toUInt64
        refine (within.word_eq ?_).trans h
        by_cases same : p = q
        · subst same
          omega
        · have apart := Layout.slotAt_apart valid same
          simp only [Slot.limit] at apart
          omega
      next => exact h
  -- before any slot is stamped, only the parameters at the start of slot 0 are not zero
  refine stamped _ _ ?_
  have short : (l.words.flatMap Word.encode).length = 40 := by simp [Layout.words]
  have within := Memory.sameOutside_store Memory.zero 0 (l.words.flatMap Word.encode)
  have apart : 0 + (l.words.flatMap Word.encode).length ≤ (l.slotAt p).base + 64 := by omega
  rw [Layout.save, within.word_eq (.inr apart)]
  exact Memory.word_eq_zero fun c _ _ => Memory.byte_zero c

end Mailbox

namespace Network

variable {storage : Storage} {l : Layout} {b : Mailbox} {net : Network} {stray : Prop}

/-- A new mailbox is a well-formed network without endpoints. -/
theorem wellFormed_of_create (h : Mailbox.create storage l = .ok b) :
    WellFormed l stray (ofMailbox b) where
  layout := (Mailbox.eq_of_create h).1
  valid := Mailbox.valid_of_create h
  fits p e he := by simp [ofMailbox, endpoint?] at he

/-- Whatever run from a new mailbox is a chain of steps, if stray rings may arrive, vectors may
    repeat and peers may claim their slots at any time. -/
theorem path_of_run (created : Mailbox.create storage l = .ok b) (actions : List Action) :
    WellFormed l True ((ofMailbox b).run .queue actions) ∧
      (ofMailbox b).view.Path l ⟨True, fun _ _ => True⟩ ((ofMailbox b).story actions)
        ((ofMailbox b).run .queue actions).view :=
  WellFormed.run (r := ⟨True, fun _ _ => True⟩) (wellFormed_of_create created)
    fun _ action _ _ => abides_lax _ action

/-- Every run from a new mailbox keeps it well-formed. -/
theorem wellFormed_of_run (created : Mailbox.create storage l = .ok b) (actions : List Action) :
    WellFormed l True ((ofMailbox b).run .queue actions) :=
  (path_of_run created actions).1

/-- Nobody has attached to a new mailbox. -/
theorem untouched_of_create (h : Mailbox.create storage l = .ok b) (p : PeerId) :
    (ofMailbox b).view.Untouched p := by
  obtain ⟨layout, memory⟩ := Mailbox.eq_of_create h
  have nobody : ∀ q, (ofMailbox b).view.inbox q = none := by
    intro q
    simp [inbox?, ofMailbox, endpoint?]
  refine ⟨⟨by simp [ofMailbox], fun q d refers => ?_⟩, nobody p, ?_⟩
  · obtain ⟨i, there, -⟩ := refers
    rw [nobody] at there
    cases there
  · have idle := Mailbox.word_format (Mailbox.valid_of_create h) p
    rw [← memory, ← layout] at idle
    exact idle

/-! ### Attaching once -/

/-- A peer that has not attached in a run is untouched after it. -/
theorem untouched_of_path {r : Rules} {v u : View} {story : Story} {p : PeerId}
    (path : View.Path l r v story u) (start : v.Untouched p) (never : .attached p ∉ story) :
    u.Untouched p := by
  have invariant := path.invariant []
    (I := fun story v => .attached p ∉ story → v.Untouched p) ?_ (fun _ => start)
  · simpa using invariant never
  · intro before after v u step untouched unclaimed
    rw [List.mem_append, not_or] at unclaimed
    exact (untouched unclaimed.1).step step unclaimed.2

/-- If no peer attaches twice, each claims a slot that is untouched. -/
theorem WellFormed.abides_of_once (wf : WellFormed l stray net) (start : ∀ p, net.view.Untouched p)
    {actions : List Action} (orderly : ∀ action ∈ actions, stray ∨ action.Orderly)
    (once : (net.story actions).Once) :
    ∀ before action after, actions = before ++ action :: after →
      (net.run .queue before).Abides ⟨stray, View.Untouched⟩ action := by
  rintro before action after rfl
  refine ⟨orderly action (by simp), fun p claimed => ?_⟩
  -- up to here nothing is known about the claims yet
  have lax : ∀ first next rest, before = first ++ next :: rest →
      (net.run .queue first).Abides ⟨stray, fun _ _ => True⟩ next := by
    rintro first next rest rfl
    exact ⟨orderly next (by simp), fun _ _ => trivial⟩
  obtain ⟨-, path⟩ := WellFormed.run (r := ⟨stray, fun _ _ => True⟩) wf lax
  refine untouched_of_path path (start p) ?_
  rw [story_append] at once
  exact once.not_mem (List.mem_append_left _ claimed)

/-- A run from a new mailbox in which no peer attaches twice is a chain of steps in which untouched
    slots only are claimed. -/
theorem path_of_once (stray : Prop) (created : Mailbox.create storage l = .ok b)
    {actions : List Action} (orderly : ∀ action ∈ actions, stray ∨ action.Orderly)
    (once : ((ofMailbox b).story actions).Once) :
    WellFormed l stray ((ofMailbox b).run .queue actions) ∧
      (ofMailbox b).view.Path l ⟨stray, View.Untouched⟩ ((ofMailbox b).story actions)
        ((ofMailbox b).run .queue actions).view :=
  have wf := wellFormed_of_create created
  WellFormed.run (r := ⟨stray, View.Untouched⟩) wf
    (wf.abides_of_once (untouched_of_create created) orderly once)

/-- Chains of steps without stray rings preserve the invariant. -/
theorem owned_of_path {r : Rules} {v u : View} {story : Story} {a : PeerId} (valid : l.Valid)
    (calm : ¬ r.stray) (quiet : ∀ v, r.claim v a → v.Quiet a) (path : View.Path l r v story u)
    (owned : v.Owned a) : u.Owned a :=
  path.invariant [] (I := fun _ v => v.Owned a)
    (fun step owned => owned.step valid calm quiet step) owned

/-! ### Owned slots -/

/-- An endpoint refers to the message of a delivery. -/
def Refers (net : Network) (p : PeerId) (d : Delivery) : Prop :=
  ∃ e, net.endpoint? p = some e ∧ e.inbox.Refers d

/-- The view shows what peers refer to. -/
theorem refers_view {p : PeerId} {d : Delivery} : net.view.Refers p d ↔ net.Refers p d := by
  simp [View.Refers, Refers, inbox?]

/-- The slot of a peer and all that is about of its messages. -/
structure SlotOwned (net : Network) (a : PeerId) (s : Slot) : Prop where
  /-- While the slot is idle, no ring of the peer is under way and nobody refers to it. -/
  idle : (s.busy net.memory).IsIdle →
    (∀ w ∈ net.rings, w.origin ≠ a) ∧ ∀ p d, net.Refers p d → d.sender ≠ a
  /-- A ring of the peer that is under way is the only one, goes to the destination of the last
      send, and nobody refers to the peer then. -/
  ring : ∀ w ∈ net.rings, w.origin = a →
    (net.rings.filter fun w => w.origin = a) = [w] ∧ w.dest.toUInt64 = s.lastResponder net.memory ∧
      ∀ p d, net.Refers p d → d.sender ≠ a
  /-- Only the destination of the last send refers to the peer, with the length that is staged. -/
  reference : ∀ p d, net.Refers p d → d.sender = a →
    p.toUInt64 = s.lastResponder net.memory ∧ d.len = (s.busy net.memory).len
  /-- What is pending and in hand of the peer arrived as one. -/
  generation : ∀ p e q h, net.endpoint? p = some e → e.inbox.pending = some q →
    e.inbox.inHand = some h → q.sender = a → h.sender = a → q.generation = h.generation
  /-- Whenever a delivery of the peer is given up, the slot holds its length, and is idle then. -/
  cleared : ∀ action event p d, event ∈ net.events action → event.givenUp? = some (p, d) →
    d.sender = a → (s.busy net.memory).compareAndClear d.len = .ok .idle ∧
      (s.busy (net.perform .queue action).2.memory).IsIdle

/-- A slot that is owned in the view is owned. -/
theorem WellFormed.slotOwned (wf : WellFormed l stray net) {a : PeerId}
    (owned : net.view.Owned a) {s : Slot} (own : l.slot? a.toUInt64 = some s) :
    net.SlotOwned a s := by
  obtain rfl := Layout.slot?_eq_some wf.valid own
  -- what the view shows as staged is what the slot holds
  have staged : ∀ after : Network, after.layout = l →
      after.view.staged a = (l.slotAt a).staged after.memory := by
    rintro after rfl
    rfl
  have now := staged net wf.layout
  have refers : ∀ p d, net.Refers p d → d.sender = a →
      d.len = (net.view.staged a).len ∧ (net.view.staged a).dest = p.toUInt64 := by
    intro p d h sender
    obtain ⟨i, here, refers⟩ := refers_view.mpr h
    obtain ⟨len, -, dest, -⟩ := (owned.sound p i here).refs d refers sender
    exact ⟨len, dest⟩
  refine ⟨fun idle => ?_, fun w h origin => ?_, fun p d h sender => ?_, ?_, ?_⟩
  · have quiet := owned.quiet (by rw [now]; exact idle)
    exact ⟨quiet.rings, fun p d h => quiet.refs p d (refers_view.mpr h)⟩
  · obtain ⟨-, dest, unreferred⟩ := owned.ring w h origin
    refine ⟨?_, ?_, fun p d h => unreferred p d (refers_view.mpr h)⟩
    · -- a list of at most one ring that has this one in it is that ring
      have there : w ∈ net.rings.filter fun w => w.origin = a :=
        List.mem_filter.mpr ⟨h, by simpa using origin⟩
      have one : (net.rings.filter fun w => w.origin = a).length = 1 :=
        Nat.le_antisymm owned.single (List.length_pos_of_mem there)
      obtain ⟨x, only⟩ := List.length_eq_one_iff.mp one
      rw [only] at there ⊢
      rw [List.mem_singleton.mp there]
    · rw [← dest, now]
      rfl
  · obtain ⟨len, dest⟩ := refers p d h sender
    rw [now] at len dest
    exact ⟨dest.symm, len⟩
  · intro p e q h he pending held sender sender'
    rw [(owned.sound p e.inbox (inbox?_of_endpoint? he)).same q h pending held sender sender']
  · intro action event p d told gave sender
    -- a delivery that is given up has the length that is staged, so the comparison succeeds
    obtain ⟨was, cleared⟩ := wf.givesUp told gave
    obtain ⟨len, -⟩ := refers p d (refers_view.mp was) sender
    rw [sender, len, staged _ (wf.layout_perform action)] at cleared
    have emptied := congrArg Staged.len cleared
    rw [Staged.len_clear_self] at emptied
    refine ⟨?_, emptied⟩
    rw [len, now]
    simp [BusyCell.compareAndClear]

/-- **Slot ownership.** After every run from a new mailbox in which no peer attaches twice, no
    vector table has repeats and no ring is raised that nobody sent, every slot is owned. -/
theorem slotOwned_of_run (created : Mailbox.create storage l = .ok b) {actions : List Action}
    (orderly : ∀ action ∈ actions, action.Orderly) (once : ((ofMailbox b).story actions).Once)
    {a : PeerId} {s : Slot} (own : l.slot? a.toUInt64 = some s) :
    ((ofMailbox b).run .queue actions).SlotOwned a s := by
  obtain ⟨wf, path⟩ := path_of_once False created
    (fun action h => .inr (orderly action h)) once
  have owned := owned_of_path wf.valid id (fun _ => View.Untouched.toQuiet) path
    (untouched_of_create created a).toQuiet.owned
  exact wf.slotOwned owned own

end Network

/-! ### A small mailbox -/

/-- Three clients and the coordinator 4, with slots of 256 bytes. -/
def smallLayout : Layout := .conventional 256 3

/-- A new mailbox with that layout. -/
def smallMailbox : Mailbox := ⟨smallLayout, Mailbox.format smallLayout, 1280, .heap⟩

/-- The small mailbox can be made on a heap that has room for everything. -/
theorem create_small : Mailbox.create (.heap fun _ => true) smallLayout = .ok smallMailbox := rfl

/-- A peer attaches with the vectors from 0 on. -/
def join (p : PeerId) : Action := .attach p (.run 0 5) {} none

/-- A peer sends the number of the peer to another one. -/
def hail (p q : PeerId) : Action := .send p .spin (.peer q) [UInt8.ofNat p.toNat]

/-- The slot of peer 1 while its message is in the hand of peer 2 and one of peer 3 is pending. -/
theorem Network.slotOwned_of_run_small :
    ((Network.ofMailbox smallMailbox).run .queue
      [join 1, join 2, join 3, hail 1 2, .deliver 0, .await 2 .none, hail 3 2,
        .deliver 0]).SlotOwned 1 ⟨256, 128⟩ :=
  slotOwned_of_run (l := smallLayout) create_small (by decide)
    (by decide +kernel) (by decide)

end SharedMailbox
