import SharedMailbox.Proofs.Image
import SharedMailbox.Proofs.Wiring

namespace SharedMailbox

/-!
# Attaching is all or nothing

An endpoint attaches if its peer owns a slot that is stamped with its id and there are enough
vectors, whatever else stands in the region; a fabric also checks that the peer is not registered
and that its vectors fit. Then the slot is wiped and labelled, and nothing else changes. Otherwise
the first failing check is the error, and there is no trace, since all checks come before the first
write.

* `Slot.Claimed`: what a slot that was claimed looks like.
* `Network.Claimable`, `Network.Rejects`: what it takes to claim a slot, and why one cannot;
  `Fabric.Attachable`, `Fabric.Rejects`: the same in a fabric.
* `Network.Seizes`: how the network changes if its slot is claimed by a peer.
* `Network.Setup`: programs that change a network as they go, and may fail on their way;
  `Network.attachSteps`, `Fabric.attachSteps`: attaching as such a program.
* `Fabric.attachAll_iff`: which peers can attach one after another.
* `Network.Attaches`, `Fabric.Attaches`, `Mailbox.Welcomes`: what attaching comes to, and who can
  attach to a new mailbox; `attaches_exactly`: all of it.
-/

/-! ### A slot that was claimed -/

namespace Slot

variable (s : Slot) (m : Memory)

/-- The second memory differs from the first by a slot that was claimed: it is idle, has the id of
    its peer and is labelled, and all else in it is zero but the unused bytes of its header. -/
structure Claimed (s : Slot) (p : PeerId) (nodename className : String) (m n : Memory) : Prop where
  nodename : s.nodenameField n = Name.toField nodename
  className : s.classField n = Name.toField className
  busy : (s.busy n).IsIdle
  peerId : s.peerId n = p.toUInt64
  lastResponder : s.lastResponder n = 0
  peerSid : s.peerSid n = 0
  peerCid : s.peerCid n = 0
  payload : n.bytes (s.base + 128) s.capacity = List.replicate s.capacity 0
  unused : n.bytes (s.base + 104) 24 = m.bytes (s.base + 104) 24
  rest : Memory.SameOutside s.base s.limit m n

/-- A wiped slot has the id that it was wiped for. -/
theorem peerId_wipe (p : PeerId) : s.peerId (s.wipe p m) = p.toUInt64 := by
  have emptied := Memory.sameOutside_clear
    ((m.clear s.base 104).storeWord (s.base + 72) p.toUInt64) (s.base + 128) s.capacity
  exact (emptied.word_eq (by omega)).trans (Memory.word_storeWord_self _ _ _)

/-- The words behind the id of a slot that was wiped, up to the unused bytes, are zero. -/
theorem word_wipe (p : PeerId) {a : Nat} (low : s.base + 80 ≤ a) (high : a + 8 ≤ s.base + 104) :
    (s.wipe p m).word a = 0 := by
  have emptied := Memory.sameOutside_clear
    ((m.clear s.base 104).storeWord (s.base + 72) p.toUInt64) (s.base + 128) s.capacity
  have stamped := Memory.sameOutside_storeWord (m.clear s.base 104) (s.base + 72) p.toUInt64
  exact (emptied.word_eq (by omega)).trans ((stamped.word_eq (by omega)).trans
    (Memory.word_clear_of_within (by omega)))

/-- The unused end of the header is not wiped. -/
theorem unused_wipe (p : PeerId) :
    (s.wipe p m).bytes (s.base + 104) 24 = m.bytes (s.base + 104) 24 := by
  have cleared := Memory.sameOutside_clear m s.base 104
  have stamped := Memory.sameOutside_storeWord (m.clear s.base 104) (s.base + 72) p.toUInt64
  have emptied := Memory.sameOutside_clear
    ((m.clear s.base 104).storeWord (s.base + 72) p.toUInt64) (s.base + 128) s.capacity
  rw [wipe, emptied.bytes_eq (by omega), stamped.bytes_eq (by omega), cleared.bytes_eq (by omega)]

/-- Whoever occupies a slot claims it. -/
theorem claimed_occupy (p : PeerId) (nodename className : String) :
    s.Claimed p nodename className m (s.occupy p nodename className m) := by
  have named := s.sameOutside_setNodename (s.wipe p m) nodename
  have classed := s.sameOutside_setClassName (s.setNodename nodename (s.wipe p m)) className
  -- the labels lie before all other fields
  have word : ∀ a, s.base + 64 ≤ a →
      (s.occupy p nodename className m).word a = (s.wipe p m).word a := fun a low => by
    rw [occupy, classed.word_eq (by omega), named.word_eq (by omega)]
  have staged := s.staged_occupy m p nodename className
  simp only [Slot.staged, Staged.blank, Staged.mk.injEq] at staged
  obtain ⟨len, dest, area⟩ := staged
  have width : Name.width = 32 := rfl
  exact
    { nodename := by
        rw [nodenameField, occupy, classed.bytes_eq (by omega), ← nodenameField,
          nodenameField_setNodename]
      className := by rw [occupy, classField_setClassName]
      busy := len
      peerId := by rw [peerId, word _ (by omega), ← peerId, peerId_wipe]
      lastResponder := dest
      peerSid := by rw [peerSid, word _ (by omega), word_wipe _ _ _ (by omega) (by omega)]
      peerCid := by rw [peerCid, word _ (by omega), word_wipe _ _ _ (by omega) (by omega)]
      payload := area
      unused := by
        rw [occupy, classed.bytes_eq (by omega), named.bytes_eq (by omega), unused_wipe]
      rest := s.sameOutside_occupy m p nodename className }

end Slot

/-! ### Who may claim a slot -/

/-- Who owns no slot finds none. -/
theorem Layout.slot?_of_not_hasSlot {l : Layout} {p : UInt64} (none : ¬ l.HasSlot p) :
    l.slot? p = .none :=
  Option.eq_none_iff_forall_ne_some.mpr fun _ found => none (Layout.hasSlot_of_slot? found)

namespace Network

/-- A peer may claim its slot with a table of vectors: it owns one, which is stamped with its id,
    and there is a vector for every event. -/
structure Claimable (net : Network) (l : Layout) (p : PeerId) (t : VectorTable) : Prop where
  owner : l.HasSlot p.toUInt64
  stamped : (l.slotAt p).peerId net.memory = p.toUInt64
  enough : l.nEvents.toNat ≤ t.size

/-- Why a peer may not claim its slot. The checks come in this order, and each reason says that the
    earlier checks pass. -/
inductive Rejects (net : Network) (l : Layout) (p : PeerId) (t : VectorTable) : SetupError → Prop
  | stranger (none : ¬ l.HasSlot p.toUInt64) : Rejects net l p t (.addressOutOfRange p)
  | foreign (owner : l.HasSlot p.toUInt64)
      (other : (l.slotAt p).peerId net.memory ≠ p.toUInt64) :
      Rejects net l p t (.peerIdMismatch p ((l.slotAt p).peerId net.memory))
  | few (owner : l.HasSlot p.toUInt64) (stamped : (l.slotAt p).peerId net.memory = p.toUInt64)
      (few : t.size < l.nEvents.toNat) :
      Rejects net l p t (.insufficientVectors l.nEvents t.size)

/-- A peer has claimed its slot: it is wiped and labelled, and the peer has a new endpoint. -/
def seize (net : Network) (l : Layout) (p : PeerId) (t : VectorTable) (config : EndpointConfig)
    (host : HostAnswer) : Network :=
  let labelled := net.remember ((l.slotAt p).occupy p (config.label host p) config.className)
  { labelled with endpoints := net.endpoints.insert p (newEndpoint l p t config) }

variable {net after : Network} {l : Layout} {p q : PeerId} {t : VectorTable}
  {config : EndpointConfig} {host : HostAnswer} {fault : SetupError}

/-- A slot can be claimed, or there is a reason against it. -/
theorem claimable_or_rejects (net : Network) (l : Layout) (p : PeerId) (t : VectorTable) :
    net.Claimable l p t ∨ ∃ fault, net.Rejects l p t fault := by
  by_cases owner : l.HasSlot p.toUInt64
  · by_cases stamped : (l.slotAt p).peerId net.memory = p.toUInt64
    · rcases Nat.lt_or_ge t.size l.nEvents.toNat with few | enough
      · exact .inr ⟨_, .few owner stamped few⟩
      · exact .inl ⟨owner, stamped, enough⟩
    · exact .inr ⟨_, .foreign owner stamped⟩
  · exact .inr ⟨_, .stranger owner⟩

/-- What can be claimed is claimed. -/
theorem claim_of_claimable (valid : l.Valid) (claimable : net.Claimable l p t) :
    net.claim l p t = .ok (l.slotAt p) := by
  obtain ⟨owner, stamped, enough⟩ := claimable
  have checked : l.validate = .ok () := valid
  simp only [claim, checked, Layout.slot?_of_hasSlot valid owner, stamped, ne_eq, not_true_eq_false,
    Nat.not_lt.mpr enough, if_false]

/-- What is rejected is rejected for its reason. -/
theorem claim_of_rejects (valid : l.Valid) (rejects : net.Rejects l p t fault) :
    net.claim l p t = .error fault := by
  have checked : l.validate = .ok () := valid
  cases rejects with
  | stranger none =>
    simp only [claim, checked, Layout.slot?_of_not_hasSlot none]
  | foreign owner other =>
    simp only [claim, checked, Layout.slot?_of_hasSlot valid owner, ne_eq, other, not_false_eq_true,
      if_true]
  | few owner stamped few =>
    simp only [claim, checked, Layout.slot?_of_hasSlot valid owner, stamped, ne_eq,
      not_true_eq_false, few, if_true, if_false]

/-- Whoever can claim the slot attaches and seizes it. -/
theorem attach_of_claimable (valid : l.Valid) (claimable : net.Claimable l p t)
    (config : EndpointConfig) (host : HostAnswer) :
    net.attach l p t config host = .ok (net.seize l p t config host) := by
  rw [attach, claim_of_claimable valid claimable]
  rfl

/-- Whoever is rejected does not attach. -/
theorem attach_of_rejects (valid : l.Valid) (rejects : net.Rejects l p t fault)
    (config : EndpointConfig) (host : HostAnswer) :
    net.attach l p t config host = .error fault := by
  rw [attach, claim_of_rejects valid rejects]

/-- An endpoint attaches if and only if its peer may claim its slot; and where it fails, it is told
    why. -/
theorem attach_iff (valid : l.Valid) (net : Network) (p : PeerId) (t : VectorTable)
    (config : EndpointConfig) (host : HostAnswer) :
    (∀ after, net.attach l p t config host = .ok after ↔
      net.Claimable l p t ∧ after = net.seize l p t config host) ∧
    ∀ fault, net.attach l p t config host = .error fault ↔ net.Rejects l p t fault :=
  outcome_iff_of_or (claimable_or_rejects net l p t)
    (fun claimable => attach_of_claimable valid claimable config host)
    (fun _ rejects => attach_of_rejects valid rejects config host)

/-- The second network differs from the first by a peer that has claimed its slot. -/
structure Seizes (l : Layout) (p : PeerId) (t : VectorTable) (config : EndpointConfig)
    (host : HostAnswer) (net after : Network) : Prop where
  claimed : (l.slotAt p).Claimed p (config.label host p) config.className net.memory after.memory
  own : after.endpoint? p = some (newEndpoint l p t config)
  others : ∀ q, q ≠ p → after.endpoint? q = net.endpoint? q
  slots : ∀ q, q ≠ p → after.memory.bytes (l.slotAt q).base l.stride.toNat =
    net.memory.bytes (l.slotAt q).base l.stride.toNat
  rings : after.rings = net.rings
  region : after.layout = net.layout ∧ after.size = net.size ∧ after.backing = net.backing

/-- What a new endpoint leaves is all that a seizure says. -/
theorem seizes_seize (valid : l.Valid) (net : Network) (p : PeerId) (t : VectorTable)
    (config : EndpointConfig) (host : HostAnswer) :
    Seizes l p t config host net (net.seize l p t config host) where
  claimed := (l.slotAt p).claimed_occupy net.memory p _ _
  own := by simp [endpoint?, seize]
  others q other := by simp [endpoint?, seize, Std.ExtTreeMap.getElem?_insert, Ne.symm other]
  slots q other := by
    have apart := Layout.slotAt_apart valid other
    have ends : (l.slotAt q).limit = (l.slotAt q).base + l.stride.toNat := by
      rw [valid.stride_eq, ← Nat.add_assoc]
      rfl
    rw [ends] at apart
    have rest := (l.slotAt p).sameOutside_occupy net.memory p (config.label host p) config.className
    exact rest.bytes_eq apart
  rings := rfl
  region := ⟨rfl, rfl, rfl⟩

/-! ### Step by step -/

/-- A program that changes a network as it goes. Where it fails, the network stays as it is then. -/
abbrev Setup := EStateM SetupError Network

/-- Fail for a reason if a condition holds. -/
def refuseIf (c : Prop) [Decidable c] (fault : SetupError) : Setup Unit :=
  if c then throw fault else pure ()

/-- Check and write in the order in which this is done, one access at a time. -/
def claimSteps (l : Layout) (p : PeerId) (t : VectorTable) (config : EndpointConfig)
    (host : HostAnswer) : Setup Endpoint := do
  if let .error fault := l.validate then throw (.layout fault)
  let some slot := l.slot? p.toUInt64 | throw (.addressOutOfRange p)
  let found := slot.peerId (← get).memory
  refuseIf (found ≠ p.toUInt64) (.peerIdMismatch p found)
  refuseIf (t.size < l.nEvents.toNat) (.insufficientVectors l.nEvents t.size)
  modify (remember · (slot.wipe p))
  modify (remember · (slot.setNodename (config.label host p)))
  modify (remember · (slot.setClassName config.className))
  return newEndpoint l p t config

/-- An endpoint becomes that of its peer. -/
def register (e : Endpoint) : Setup Unit :=
  modify fun net => { net with endpoints := net.endpoints.insert e.peer e }

/-- Attach step by step. -/
def attachSteps (l : Layout) (p : PeerId) (t : VectorTable) (config : EndpointConfig)
    (host : HostAnswer) : Setup Unit := do
  register (← claimSteps l p t config host)

/-- What a program comes to that leaves no trace where it fails. -/
def traceless (net : Network) : Except SetupError Network → EStateM.Result SetupError Network Unit
  | .ok after => .ok () after
  | .error fault => .error fault net

/-- A check ends what follows with an error, or changes nothing. -/
theorem run_refuseIf (c : Prop) [Decidable c] (fault : SetupError) (net : Network) :
    (refuseIf c fault).run net = if c then .error fault net else .ok () net := by
  unfold refuseIf
  split <;> rfl

/-- The record of the endpoint is made once its slot is written. -/
theorem run_claimSteps (l : Layout) (p : PeerId) (t : VectorTable) (config : EndpointConfig)
    (host : HostAnswer) (net : Network) :
    (claimSteps l p t config host).run net = match net.claim l p t with
      | .ok slot => .ok (newEndpoint l p t config)
          (net.remember (slot.occupy p (config.label host p) config.className))
      | .error fault => .error fault net := by
  -- the checks come in the same order in both, and neither writes before the last of them
  unfold claimSteps claim
  rcases l.validate with reason | ⟨⟩
  · rfl
  rcases l.slot? p.toUInt64 with _ | slot
  · rfl
  simp only [EStateM.run_bind, EStateM.run_pure, EStateM.run_get, EStateM.run_modify, run_refuseIf]
  by_cases other : slot.peerId net.memory ≠ p.toUInt64
  · rw [if_pos other, if_pos other]
  · rw [if_neg other, if_neg other]
    dsimp only
    by_cases few : t.size < l.nEvents.toNat
    · rw [if_pos few, if_pos few]
    · rw [if_neg few, if_neg few]
      rfl

/-- Taken step by step, attaching is the same: where it fails it has not written anything. -/
theorem run_attachSteps (net : Network) (l : Layout) (p : PeerId) (t : VectorTable)
    (config : EndpointConfig) (host : HostAnswer) :
    (attachSteps l p t config host).run net = net.traceless (net.attach l p t config host) := by
  rw [attachSteps, EStateM.run_bind, run_claimSteps, attach]
  rcases net.claim l p t with fault | slot
  · rfl
  · rfl

/-- What attaching an endpoint comes to. -/
structure Attaches (net : Network) (l : Layout) (p : PeerId) (t : VectorTable)
    (config : EndpointConfig) (host : HostAnswer) : Prop where
  /-- It succeeds if and only if the peer may claim its slot, -/
  succeeds : (∃ after, net.attach l p t config host = .ok after) ↔ net.Claimable l p t
  /-- and fails for the first reason that there is. -/
  fails : ∀ fault, net.attach l p t config host = .error fault ↔ net.Rejects l p t fault
  /-- Who attaches changes its own slot, and gets a new endpoint. -/
  seizes : ∀ after, net.attach l p t config host = .ok after → Seizes l p t config host net after
  /-- Who does not has not written a byte. -/
  steps : (attachSteps l p t config host).run net = net.traceless (net.attach l p t config host)

/-- Attaching succeeds exactly where the slot can be claimed. -/
theorem attaches (valid : l.Valid) (net : Network) (p : PeerId) (t : VectorTable)
    (config : EndpointConfig) (host : HostAnswer) : net.Attaches l p t config host := by
  obtain ⟨ok_iff, error_iff⟩ := attach_iff valid net p t config host
  exact
    { succeeds := by simp only [ok_iff, exists_and_left, exists_eq, and_true]
      fails := error_iff
      seizes := fun after made => by
        obtain ⟨-, rfl⟩ := (ok_iff after).mp made
        exact seizes_seize valid net p t config host
      steps := run_attachSteps net l p t config host }

end Network

/-! ### Fabrics -/

namespace Fabric

open Network (Seizes refuseIf run_refuseIf claimSteps run_claimSteps register)

/-- A peer may attach to a fabric: it is not registered, its vectors fit, and it may claim its slot
    with them. -/
structure Attachable (net : Network) (l : Layout) (p : PeerId) : Prop where
  new : ¬ IsRegistered net p
  fits : Fits l p
  owner : l.HasSlot p.toUInt64
  stamped : (l.slotAt p).peerId net.memory = p.toUInt64

/-- Why a peer may not attach to a fabric, in the order of the checks. It is never for want of
    vectors. -/
inductive Rejects (net : Network) (l : Layout) (p : PeerId) : SetupError → Prop
  | twice (on : IsRegistered net p) : Rejects net l p (.alreadyAttached p)
  | wide (new : ¬ IsRegistered net p) (wide : ¬ Fits l p) :
      Rejects net l p (.vectorOverflow p l.nEvents)
  | stranger (new : ¬ IsRegistered net p) (fits : Fits l p) (none : ¬ l.HasSlot p.toUInt64) :
      Rejects net l p (.addressOutOfRange p)
  | foreign (new : ¬ IsRegistered net p) (fits : Fits l p) (owner : l.HasSlot p.toUInt64)
      (other : (l.slotAt p).peerId net.memory ≠ p.toUInt64) :
      Rejects net l p (.peerIdMismatch p ((l.slotAt p).peerId net.memory))

variable {net after : Network} {l : Layout} {p q : PeerId} {config : EndpointConfig}
  {host : HostAnswer}
  {fault : SetupError}

/-- A peer can be attached to the fabric, or there is a reason against it. -/
theorem attachable_or_rejects (net : Network) (l : Layout) (p : PeerId) :
    Attachable net l p ∨ ∃ fault, Rejects net l p fault := by
  by_cases on : IsRegistered net p
  · exact .inr ⟨_, .twice on⟩
  by_cases fits : Fits l p
  · by_cases owner : l.HasSlot p.toUInt64
    · by_cases stamped : (l.slotAt p).peerId net.memory = p.toUInt64
      · exact .inl ⟨on, fits, owner, stamped⟩
      · exact .inr ⟨_, .foreign on fits owner stamped⟩
    · exact .inr ⟨_, .stranger on fits owner⟩
  · exact .inr ⟨_, .wide on fits⟩

/-- What is rejected cannot be attached. -/
theorem Rejects.not_attachable (rejects : Rejects net l p fault) : ¬ Attachable net l p := by
  intro attachable
  cases rejects with
  | twice on => exact attachable.new on
  | wide _ wide => exact wide attachable.fits
  | stranger _ _ none => exact none attachable.owner
  | foreign _ _ _ other => exact other attachable.stamped

/-- Whoever can be attached to the fabric is. -/
theorem attach_of_attachable (valid : l.Valid) (layout : net.layout = l)
    (attachable : Attachable net l p) (config : EndpointConfig) (host : HostAnswer) :
    attach net p config host = .ok (net.seize l p (run l p) config host) := by
  obtain ⟨new, fits, owner, stamped⟩ := attachable
  rw [attach, if_neg new, layout, vectors?_eq valid, if_pos fits]
  exact Network.attach_of_claimable valid ⟨owner, stamped, Nat.le_refl _⟩ config host

/-- Whoever the fabric rejects is not attached. -/
theorem attach_of_rejects (valid : l.Valid) (layout : net.layout = l)
    (rejects : Rejects net l p fault) (config : EndpointConfig) (host : HostAnswer) :
    attach net p config host = .error fault := by
  cases rejects with
  | twice on => rw [attach, if_pos on]
  | wide new wide => rw [attach, if_neg new, layout, vectors?_eq valid, if_neg wide]
  | stranger new fits none =>
    rw [attach, if_neg new, layout, vectors?_eq valid, if_pos fits]
    exact Network.attach_of_rejects valid (.stranger none) config host
  | foreign new fits owner other =>
    rw [attach, if_neg new, layout, vectors?_eq valid, if_pos fits]
    exact Network.attach_of_rejects valid (.foreign owner other) config host

/-- Both outcomes of attaching to the fabric, each with its exact condition. -/
theorem attach_iff (valid : l.Valid) (layout : net.layout = l) (p : PeerId)
    (config : EndpointConfig) (host : HostAnswer) :
    (∀ after, attach net p config host = .ok after ↔
      Attachable net l p ∧ after = net.seize l p (run l p) config host) ∧
    ∀ fault, attach net p config host = .error fault ↔ Rejects net l p fault :=
  outcome_iff_of_or (attachable_or_rejects net l p)
    (fun attachable => attach_of_attachable valid layout attachable config host)
    (fun _ rejects => attach_of_rejects valid layout rejects config host)

/-- Attach to a fabric step by step. The interrupt line of the peer is opened after its slot is
    claimed, and before it is registered. -/
def attachSteps (openLine : PeerId → Except String Unit) (p : PeerId) (config : EndpointConfig)
    (host : HostAnswer) : Network.Setup Unit := do
  refuseIf (IsRegistered (← get) p) (.alreadyAttached p)
  let l := (← get).layout
  let some t := vectors? l p | throw (.vectorOverflow p l.nEvents)
  let e ← claimSteps l p t config host
  if let .error reason := openLine p then throw (.interruptLine reason)
  register e

/-- Taken step by step, attaching is the same where interrupt lines can be opened. -/
theorem run_attachSteps {openLine : PeerId → Except String Unit} (opened : openLine p = .ok ())
    (net : Network) (config : EndpointConfig) (host : HostAnswer) :
    (attachSteps openLine p config host).run net = net.traceless (attach net p config host) := by
  unfold attachSteps attach
  simp only [EStateM.run_bind, EStateM.run_get, run_refuseIf]
  by_cases on : IsRegistered net p
  · rw [if_pos on, if_pos on]
    rfl
  rw [if_neg on, if_neg on]
  dsimp only
  rcases vectors? net.layout p with _ | t
  · rfl
  dsimp only
  rw [EStateM.run_bind, run_claimSteps, Network.attach]
  rcases net.claim net.layout p t with fault | slot
  · rfl
  · rw [opened]
    rfl

/-- What attaching to a fabric comes to. -/
structure Attaches (net : Network) (l : Layout) (p : PeerId) (config : EndpointConfig)
    (host : HostAnswer) : Prop where
  /-- It succeeds if and only if the peer may attach, -/
  succeeds : (∃ after, attach net p config host = .ok after) ↔ Attachable net l p
  /-- and fails for the first reason that there is. -/
  fails : ∀ fault, attach net p config host = .error fault ↔ Rejects net l p fault
  /-- There are vectors enough. -/
  enough : ∀ needed available,
    attach net p config host ≠ .error (.insufficientVectors needed available)
  /-- Who attaches changes its own slot, and gets a new endpoint with its run of vectors. -/
  seizes : ∀ after, attach net p config host = .ok after →
    Seizes l p (run l p) config host net after
  /-- Then it is registered, and so are those who were. -/
  registers : ∀ after, attach net p config host = .ok after → ∀ q,
    IsRegistered after q ↔ q = p ∨ IsRegistered net q
  /-- Who does not attach has not written a byte. -/
  steps : ∀ openLine : PeerId → Except String Unit, openLine p = .ok () →
    (attachSteps openLine p config host).run net = net.traceless (attach net p config host)

/-- Who seizes a slot is registered, and the others stay as they were. -/
theorem isRegistered_of_seizes {t : VectorTable} (seizes : Seizes l p t config host net after)
    (q : PeerId) : IsRegistered after q ↔ q = p ∨ IsRegistered net q := by
  by_cases same : q = p
  · subst same
    simp [IsRegistered, seizes.own, Network.newEndpoint]
  · simp [IsRegistered, seizes.others q same, same]

/-- Attaching to the fabric succeeds exactly on its checks. -/
theorem attaches (valid : l.Valid) (layout : net.layout = l) (p : PeerId)
    (config : EndpointConfig) (host : HostAnswer) : Attaches net l p config host := by
  obtain ⟨ok_iff, error_iff⟩ := attach_iff valid layout p config host
  have seizes : ∀ after, attach net p config host = .ok after →
      Seizes l p (run l p) config host net after :=
    fun after made => by
      obtain ⟨-, rfl⟩ := (ok_iff after).mp made
      exact Network.seizes_seize valid net p _ config host
  exact
    { succeeds := by simp only [ok_iff, exists_and_left, exists_eq, and_true]
      fails := error_iff
      enough := fun needed available failed => by cases (error_iff _).mp failed
      seizes := seizes
      registers := fun after made => isRegistered_of_seizes (seizes after made)
      steps := fun _ opened => run_attachSteps opened net config host }

end Fabric

/-! ### New mailboxes -/

/-- Every slot is stamped with the id of its peer. -/
def Layout.Assigned (l : Layout) (m : Memory) : Prop :=
  ∀ p : PeerId, l.HasSlot p.toUInt64 → (l.slotAt p).peerId m = p.toUInt64

/-- Who claims its slot leaves the stamps of all peers. -/
theorem Layout.Assigned.seize {l : Layout} {net : Network} (assigned : l.Assigned net.memory)
    (valid : l.Valid) (p : PeerId) (t : VectorTable) (config : EndpointConfig) (host : HostAnswer) :
    l.Assigned (net.seize l p t config host).memory := fun q owner => by
  by_cases same : q = p
  · subst same
    exact ((l.slotAt q).claimed_occupy net.memory q _ _).peerId
  · have apart := Layout.slotAt_apart valid same
    simp only [Slot.limit] at apart
    have rest := (l.slotAt p).sameOutside_occupy net.memory p (config.label host p) config.className
    exact (rest.word_eq (by simp only [Slot.limit]; omega)).trans (assigned q owner)

namespace Fabric

variable {net : Network} {l : Layout} {p : PeerId}

/-- Peers attach to a fabric one after another, on hosts of their own. -/
def attachAll (config : PeerId → EndpointConfig) (host : PeerId → HostAnswer) (net : Network)
    (ps : List PeerId) : Except SetupError Network :=
  ps.foldlM (fun net p => attach net p (config p) (host p)) net

/-- Where the stamps are in place, peers attach one after another if and only if each of them is
    listed once, is new, owns a slot and has vectors that fit. -/
theorem attachAll_iff (valid : l.Valid) (layout : net.layout = l) (assigned : l.Assigned net.memory)
    (config : PeerId → EndpointConfig) (host : PeerId → HostAnswer) (ps : List PeerId) :
    (∃ after, attachAll config host net ps = .ok after) ↔
      ps.Nodup ∧ ∀ p ∈ ps, ¬ IsRegistered net p ∧ l.HasSlot p.toUInt64 ∧ Fits l p := by
  induction ps generalizing net with
  | nil => simp [attachAll, pure, Except.pure]
  | cons p ps ih =>
    rw [attachAll, List.foldlM_cons, List.nodup_cons, List.forall_mem_cons]
    rcases attachable_or_rejects net l p with attachable | ⟨fault, rejects⟩
    · rw [attach_of_attachable valid layout attachable]
      have seizes := Network.seizes_seize valid net p (run l p) (config p) (host p)
      have later := ih (seizes.region.1.trans layout)
        (assigned.seize valid p (run l p) (config p) (host p))
      obtain ⟨new, fits, owner, -⟩ := attachable
      -- those behind `p` are new if they were before and are not `p`
      have others : (∀ q ∈ ps, ¬ IsRegistered (net.seize l p (run l p) (config p) (host p)) q ∧
          l.HasSlot q.toUInt64 ∧ Fits l q) ↔
          p ∉ ps ∧ ∀ q ∈ ps, ¬ IsRegistered net q ∧ l.HasSlot q.toUInt64 ∧ Fits l q := by
        simp only [isRegistered_of_seizes seizes, not_or]
        exact ⟨fun all => ⟨fun mem => (all p mem).1.1 rfl,
            fun q mem => ⟨(all q mem).1.2, (all q mem).2⟩⟩,
          fun ⟨unlisted, all⟩ q mem => ⟨⟨fun same => unlisted (same ▸ mem), (all q mem).1⟩,
            (all q mem).2⟩⟩
      refine later.trans ?_
      rw [others]
      tauto
    · rw [attach_of_rejects valid layout rejects]
      constructor
      · rintro ⟨after, made⟩
        cases made
      · rintro ⟨-, ⟨new, owner, fits⟩, -⟩
        exact absurd ⟨new, fits, owner, assigned p owner⟩ rejects.not_attachable

end Fabric

namespace Mailbox

open Network (ofMailbox)
open Fabric (IsRegistered Fits run)

variable {storage : Storage} {l : Layout} {b : Mailbox}

/-- Who can attach to a new mailbox. -/
structure Welcomes (b : Mailbox) (l : Layout) : Prop where
  /-- The listed peers can, with vectors for all events, -/
  listed : ∀ p ∈ l.peerIds, ∀ t config host, l.nEvents.toNat ≤ t.size →
    ∃ after, (ofMailbox b).attach l p t config host = .ok after
  /-- and nobody else. -/
  unlisted : ∀ p, p ∉ l.peerIds → ∀ t config host,
    (ofMailbox b).attach l p t config host = .error (.addressOutOfRange p)
  /-- In a fabric they can if their vectors fit; -/
  fabric : ∀ p config host,
    (∃ after, Fabric.attach (ofMailbox b) p config host = .ok after) ↔ p ∈ l.peerIds ∧ Fits l p
  /-- others, whose vectors fit, have no slot. -/
  outside : ∀ p, p ∉ l.peerIds → ∀ config host, Fabric.attach (ofMailbox b) p config host =
    .error (if Fits l p then .addressOutOfRange p else .vectorOverflow p l.nEvents)
  /-- All can who want to attach one after another, but not twice. -/
  together : ∀ config host ps,
    (∃ after, Fabric.attachAll config host (ofMailbox b) ps = .ok after) ↔
      ps.Nodup ∧ ∀ p ∈ ps, p ∈ l.peerIds ∧ Fits l p

/-- In a new mailbox every slot is stamped with its owner. -/
theorem assigned_of_create (created : create storage l = .ok b) : l.Assigned b.memory := by
  have valid := valid_of_create created
  rw [(eq_of_create created).2]
  exact fun p owner => peerId_format valid ((Layout.mem_peerIds valid).mpr owner)

/-- A new mailbox welcomes every peer that owns a slot, and nobody else. -/
theorem welcomes_of_create (created : create storage l = .ok b) : b.Welcomes l := by
  have valid := valid_of_create created
  have layout := (eq_of_create created).1
  have new : ∀ p, ¬ IsRegistered (ofMailbox b) p := fun p => by
    simp [IsRegistered, ofMailbox, Network.endpoint?]
  have assigned : l.Assigned (ofMailbox b).memory := assigned_of_create created
  have owner : ∀ p, p ∈ l.peerIds ↔ l.HasSlot p.toUInt64 := fun p => Layout.mem_peerIds valid
  exact
    { listed := fun p mem t config host enough =>
        have slot := (owner p).mp mem
        ⟨_, Network.attach_of_claimable valid ⟨slot, assigned p slot, enough⟩ config host⟩
      unlisted := fun p out t config host =>
        Network.attach_of_rejects valid (.stranger fun slot => out ((owner p).mpr slot)) config host
      fabric := fun p config host => by
        rw [(Fabric.attaches valid layout p config host).succeeds, owner]
        constructor
        · exact fun able => ⟨able.owner, able.fits⟩
        · rintro ⟨slot, fits⟩
          exact ⟨new p, fits, slot, assigned p slot⟩
      outside := fun p out config host => by
        have none : ¬ l.HasSlot p.toUInt64 := fun slot => out ((owner p).mpr slot)
        split
        next fits =>
          exact Fabric.attach_of_rejects valid layout (.stranger (new p) fits none) config host
        next wide =>
          exact Fabric.attach_of_rejects valid layout (.wide (new p) wide) config host
      together := fun config host ps => by
        rw [Fabric.attachAll_iff valid layout assigned]
        simp only [new, not_false_eq_true, true_and, owner] }

/-- A layout that divides a region has a mailbox, if there is memory for it. -/
theorem exists_create (valid : l.Valid) {size : Nat} (room : storage.size l.size = .ok size) :
    ∃ b, create storage l = .ok b := by
  have checked : l.validate = .ok () := valid
  simp only [create, checked, room, Except.ok.injEq, exists_eq']

end Mailbox

/-! ### All of it -/

/-- **Attaching.** With a valid layout, in every state of a mailbox: an endpoint attaches, to the
    mailbox or to a fabric, exactly when its checks pass, and then its own slot changes and no
    other; else the first failing check is the error, and nothing has been written. If there is
    memory for it, there is a new mailbox with that layout, to which every listed peer can attach,
    and nobody else. -/
theorem attaches_exactly :
    (∀ l : Layout, l.Valid →
      ∀ (net : Network) (p : PeerId) (config : EndpointConfig) (host : HostAnswer),
        (∀ t, net.Attaches l p t config host) ∧
          (net.layout = l → Fabric.Attaches net l p config host)) ∧
    ∀ l : Layout, l.Valid → ∀ (storage : Storage) size, storage.size l.size = .ok size →
      ∃ b, Mailbox.create storage l = .ok b ∧ b.Welcomes l := by
  constructor
  · intro l valid net p config host
    exact ⟨fun t => Network.attaches valid net p t config host,
      fun layout => Fabric.attaches valid layout p config host⟩
  · intro l valid storage size room
    obtain ⟨b, created⟩ := Mailbox.exists_create valid room
    exact ⟨b, created, Mailbox.welcomes_of_create created⟩

/-- The answer of a host with the name `mill`, in a buffer of 256 bytes. -/
def millHost : HostAnswer := some (Utf8.encode "mill" ++ List.replicate 252 0)

/-- Peer 4 is the coordinator of the small mailbox and can attach to it from the host `mill`, whose
    name then stands in its slot; peer 5 cannot. -/
theorem attaches_exactly_small :
    (∃ after, Fabric.attach (.ofMailbox smallMailbox) 4 {} millHost = .ok after ∧
      Network.Seizes smallLayout 4 (Fabric.run smallLayout 4) {} millHost (.ofMailbox smallMailbox)
        after) ∧
    ({} : EndpointConfig).label millHost 4 = "mill.04" ∧
    (Network.ofMailbox smallMailbox).attach smallLayout 5 (.run 0 5) {} millHost =
      .error (.addressOutOfRange 5) := by
  obtain ⟨exactly, new⟩ := attaches_exactly
  have valid : smallLayout.Valid := Mailbox.valid_of_create create_small
  obtain ⟨b, created, welcomes⟩ := new smallLayout valid (.heap fun _ => true) 1280 rfl
  obtain rfl : b = smallMailbox := Except.ok.inj (created.symm.trans create_small)
  obtain ⟨after, made⟩ := (welcomes.fabric 4 {} millHost).mpr ⟨by decide, by decide⟩
  have attaches := (exactly smallLayout valid (.ofMailbox smallMailbox) 4 {} millHost).2 rfl
  exact ⟨⟨after, made, attaches.seizes after made⟩, by decide +kernel,
    welcomes.unlisted 5 (by decide) _ _ _⟩

end SharedMailbox
