import Mathlib.Data.List.Perm.Basic
import SharedMailbox.Proofs.Steps

namespace SharedMailbox

/-!
# Who owns a slot

While a peer has a message staged, either the one ring that announces it is under way, or only the
destination refers to it; while it has none, neither is the case. So each reference that is given
up empties the slot that it refers to.

* `View.Quiet`, `View.Untouched`: nothing of a peer is about; the peer has never attached.
* `Inbox.Sound`, `View.Owned`: the invariant, for one inbox and for a view.
* `View.Untouched.step`, `View.Owned.step`: steps preserve them.
-/

/-! ### Quiet peers -/

namespace View

/-- No ring of a peer is under way and nobody refers to a message of it. -/
structure Quiet (v : View) (a : PeerId) : Prop where
  rings : ∀ w ∈ v.rings, w.origin ≠ a
  refs : ∀ p d, v.Refers p d → d.sender ≠ a

/-- A peer that has never attached: it has no inbox, nothing staged, and is quiet. -/
structure Untouched (v : View) (a : PeerId) : Prop extends v.Quiet a where
  absent : v.inbox a = none
  idle : (v.staged a).len = 0

variable {l : Layout} {r : Rules} {v u : View} {a : PeerId} {story : Story}

/-- What a peer refers to depends on the inboxes only. -/
theorem refers_congr {p : PeerId} {d : Delivery} (same : u.inbox = v.inbox) :
    u.Refers p d ↔ v.Refers p d := by
  rw [Refers, Refers, same]

/-- What is referred to after an inbox has changed and a delivery was given up. -/
theorem refers_changed {p q : PeerId} {k : Option Inbox} {o : Option Delivery} {d : Delivery}
    (h : ((v.setInbox p k).giveUp o).Refers q d) :
    (q = p ∧ ∃ j ∈ k, j.Refers d) ∨ (q ≠ p ∧ v.Refers q d) := by
  rw [refers_congr (inbox_giveUp _ o)] at h
  obtain ⟨j, there, refers⟩ := h
  by_cases same : q = p
  · subst same
    rw [inbox_setInbox_self] at there
    exact .inl ⟨rfl, j, there, refers⟩
  · rw [inbox_setInbox_of_ne v same] at there
    exact .inr ⟨same, j, there, refers⟩

/-- Whatever is referred to after a step was referred to before it or arrives in it. -/
theorem Step.refers (step : Step l r v story u) {p : PeerId} {d : Delivery} (h : u.Refers p d) :
    v.Refers p d ∨ .installed p d ∈ story := by
  -- Only an arrival adds a reference; everything else moves one from the pending place to the
  -- hand, or drops it.
  cases step with
  | occupy =>
    rcases refers_changed (o := none) h with ⟨-, j, there, h⟩ | ⟨-, h⟩
    · cases there
      simp [Inbox.Refers] at h
    · exact .inl h
  | forget =>
    rcases refers_changed (o := none) h with ⟨-, j, there, -⟩ | ⟨-, h⟩
    · cases there
    · exact .inl h
  | post | lose => exact .inl h
  | answer arrival => exact .inl ((refers_congr arrival.inbox_eq).mp h)
  | install arrival here =>
    rcases refers_changed h with ⟨rfl, j, there, h⟩ | ⟨-, h⟩
    · cases there
      rcases Inbox.refers_accept h with rfl | old
      · exact .inr (List.mem_cons_self ..)
      · exact .inl ⟨_, here, .inr old⟩
    · exact .inl ((refers_congr arrival.inbox_eq).mp h)
  | take here pending =>
    rcases refers_changed h with ⟨rfl, j, there, h⟩ | ⟨-, h⟩
    · cases there
      rw [Inbox.refers_handOut pending h]
      exact .inl ⟨_, here, .inl pending⟩
    · exact .inl h
  | release here =>
    rcases refers_changed h with ⟨rfl, j, there, h⟩ | ⟨-, h⟩
    · cases there
      exact .inl ⟨_, here, .inl (Inbox.refers_release h)⟩
    · exact .inl h

/-- A peer that has never attached stays so when another inbox changes and a delivery of that one
    is given up. -/
theorem Untouched.changed (untouched : v.Untouched a) {p : PeerId} {k : Option Inbox}
    {o : Option Delivery} (staged : u.staged a = v.staged a) (inbox : u.inbox = v.inbox)
    (rings : ∀ w ∈ u.rings, w ∈ v.rings) (other : p = a → k = none)
    (refers : ∀ j ∈ k, ∀ d, j.Refers d → d.sender ≠ a) (given : ∀ d ∈ o, v.Refers p d) :
    ((u.setInbox p k).giveUp o).Untouched a := by
  refine ⟨⟨fun w h => untouched.rings w (rings w (by simpa using h)), fun q d h => ?_⟩, ?_, ?_⟩
  · rcases refers_changed h with ⟨-, j, there, h⟩ | ⟨-, h⟩
    · exact refers j there d h
    · exact untouched.refs q d ((refers_congr inbox).mp h)
  · rw [inbox_giveUp]
    by_cases same : p = a
    · rw [other same, same, inbox_setInbox_self]
    · rw [inbox_setInbox_of_ne u (Ne.symm same), inbox]
      exact untouched.absent
  · rw [staged_giveUp_of_ne _ fun d h => untouched.refs p d (given d h), staged_setInbox, staged]
    exact untouched.idle

/-- A peer with an inbox has attached. -/
theorem Untouched.ne_of_inbox (untouched : v.Untouched a) {p : PeerId} {i : Inbox}
    (here : v.inbox p = some i) : p ≠ a := by
  rintro rfl
  rw [untouched.absent] at here
  cases here

/-- Nothing but a claim touches a peer that has never attached. -/
theorem Untouched.step (untouched : v.Untouched a) (step : Step l r v story u)
    (unclaimed : .attached a ∉ story) : u.Untouched a := by
  have ⟨⟨rings, refs⟩, absent, idle⟩ := untouched
  cases step with
  | @occupy p claim =>
    have other : p ≠ a := by
      rintro rfl
      exact unclaimed (by simp)
    refine untouched.changed (o := none) (staged_setStaged_of_ne v (Ne.symm other) _) rfl
      (fun _ h => h) (fun same => absurd same other) ?_ (by simp)
    rintro j ⟨⟩ d h
    simp [Inbox.Refers] at h
  | forget p =>
    exact untouched.changed (o := none) rfl rfl (fun _ h => h) (fun _ => rfl) (by simp) (by simp)
  | @post s target here admits =>
    -- whoever sends has an inbox
    have other : a ≠ s.origin := by
      rintro rfl
      exact here absent
    refine ⟨⟨fun w h => ?_, refs⟩, absent, ?_⟩
    · rcases List.mem_append.mp h with h | h
      · exact rings w h
      · rw [List.mem_singleton.mp h, DoorbellWord.origin_new]
        exact Ne.symm other
    · exact (congrArg Staged.len (staged_setStaged_of_ne v other _)).trans idle
  | lose place =>
    exact ⟨⟨fun w h => rings w (List.mem_of_mem_eraseIdx h), refs⟩, absent, idle⟩
  | @answer p b w arrival busy request =>
    -- what arrives is of a busy slot, and the peer's is idle
    have other : a ≠ b := by
      rintro rfl
      exact busy idle
    refine ⟨⟨fun ring h => rings ring (arrival.sublist.subset h), fun q d h => ?_⟩, ?_, ?_⟩
    · exact refs q d ((refers_congr arrival.inbox_eq).mp h)
    · rw [inbox_clear, arrival.inbox_eq]
      exact absent
    · rw [staged_clear_of_ne w other, arrival.staged_eq]
      exact idle
  | @install p b w i d arrival here busy plain fresh =>
    have other : d.sender ≠ a := by
      rw [(Inbox.fresh?_eq_some.mp fresh).2]
      rintro rfl
      exact busy idle
    refine untouched.changed (congrFun arrival.staged_eq a) arrival.inbox_eq
      (fun _ h => arrival.sublist.subset h) (fun same => absurd same (untouched.ne_of_inbox here))
      ?_ ?_
    · rintro j ⟨⟩ c h
      rcases Inbox.refers_accept h with rfl | old
      · exact other
      · exact refs p c ⟨i, here, .inr old⟩
    · exact fun c h => ⟨i, here, .inl (Inbox.stomped_eq_some.mp h).1⟩
  | @take p i d here pending =>
    refine untouched.changed rfl rfl (fun _ h => h)
      (fun same => absurd same (untouched.ne_of_inbox here)) ?_ ?_
    · rintro j ⟨⟩ c h
      rw [Inbox.refers_handOut pending h]
      exact refs p d ⟨i, here, .inl pending⟩
    · exact fun c h => ⟨i, here, .inr (Inbox.superseded_eq_some.mp h).1⟩
  | @release p i d here given =>
    refine untouched.changed rfl rfl (fun _ h => h)
      (fun same => absurd same (untouched.ne_of_inbox here)) ?_ ?_
    · rintro j ⟨⟩ c h
      exact refs p c ⟨i, here, .inl (Inbox.refers_release h)⟩
    · exact fun c h => ⟨i, here, Inbox.refers_of_released h⟩

end View

/-! ### The invariant -/

/-- A delivery at a peer is of the message that is staged: that one is for the peer, which does not
    answer it by itself. -/
structure Delivery.Current (d : Delivery) (p : PeerId) (s : Staged) : Prop where
  len : d.len = s.len
  busy : s.len ≠ 0
  dest : s.dest = p.toUInt64
  plain : ¬ Link.IsRequest s.message

/-- What the inbox of a peer refers to of a sender is what that sender has staged for the peer, and
    it is the same message that is pending and in hand. -/
structure Inbox.Sound (i : Inbox) (a : PeerId) (s : Staged) (p : PeerId) : Prop where
  refs : ∀ d, i.Refers d → d.sender = a → d.Current p s
  same : ∀ q h, i.pending = some q → i.inHand = some h → q.sender = a → h.sender = a → q = h

namespace Inbox.Sound

variable {i : Inbox} {a p : PeerId} {s : Staged} {d : Delivery}

/-- An inbox that refers to no message of the sender. -/
theorem of_foreign (foreign : ∀ d, i.Refers d → d.sender ≠ a) : i.Sound a s p where
  refs d h sender := absurd sender (foreign d h)
  same q _ h _ sender _ := absurd sender (foreign q (.inl h))

/-- An inbox stays sound when it accepts a delivery of another sender. -/
theorem accept (sound : i.Sound a s p) (other : d.sender ≠ a) : (i.accept d).Sound a s p where
  refs c h sender := by
    rcases refers_accept h with rfl | old
    · exact absurd sender other
    · exact sound.refs c (.inr old) sender
  same q _ h _ sender _ := by
    cases h
    exact absurd sender other

/-- An inbox stays sound when it hands out what is pending. -/
theorem handOut (sound : i.Sound a s p) (pending : i.pending = some d) :
    (i.handOut d).1.Sound a s p where
  refs _ h := refers_handOut pending h ▸ sound.refs d (.inl pending)
  same _ _ h h' _ _ := Option.some.inj (h.symm.trans (pending.trans h'))

/-- An inbox stays sound when what is in hand is released. -/
theorem release (sound : i.Sound a s p) : i.release.1.Sound a s p where
  refs c h := sound.refs c (.inl (refers_release h))
  same q h pending held := by
    unfold Inbox.release at pending held
    split at held
    · cases held
    next idle => exact absurd (idle.symm.trans held) (by simp)

/-- A delivery of the sender is stomped only if no other of that sender is in hand. -/
theorem foreign_of_stomped (sound : i.Sound a s p) (given : i.stomped = some d)
    (sender : d.sender = a) {c : Delivery} (held : i.inHand = some c) : c.sender ≠ a := by
  intro sender'
  obtain ⟨pending, free⟩ := stomped_eq_some.mp given
  -- the two would be the same delivery, and what is in hand is not stomped
  obtain rfl := sound.same d c pending held sender sender'
  exact free (by simp [Holds, held])

end Inbox.Sound

namespace View

variable {l : Layout} {r : Rules} {v u w : View} {a p : PeerId} {story : Story}

/-- The slot of a sender and all that is about of it. -/
structure Owned (v : View) (a : PeerId) : Prop where
  /-- There is one ring at most. -/
  single : (v.rings.filter fun w => w.origin = a).length ≤ 1
  /-- A ring announces what is staged to its destination, and nobody refers to that yet. -/
  ring : ∀ w ∈ v.rings, w.origin = a →
    (v.staged a).len ≠ 0 ∧ (v.staged a).dest = w.dest.toUInt64 ∧ ∀ p d, v.Refers p d → d.sender ≠ a
  sound : ∀ p i, v.inbox p = some i → i.Sound a (v.staged a) p

/-- A slot that nothing is about is owned. -/
theorem Quiet.owned (quiet : v.Quiet a) : v.Owned a where
  single := by
    rw [List.filter_eq_nil_iff.mpr fun w h => by simpa using quiet.rings w h]
    exact Nat.zero_le 1
  ring w h origin := absurd origin (quiet.rings w h)
  sound p i h := .of_foreign fun d refers => quiet.refs p d ⟨i, h, refers⟩

/-- While nothing is staged, nothing is about. -/
theorem Owned.quiet (owned : v.Owned a) (idle : (v.staged a).len = 0) : v.Quiet a where
  rings w h origin := (owned.ring w h origin).1 idle
  refs p d h sender := by
    obtain ⟨i, here, refers⟩ := h
    exact ((owned.sound p i here).refs d refers sender).busy idle

/-- The slot stays as it is and nothing new is about. -/
theorem Owned.of_fewer (owned : v.Owned a) (staged : u.staged a = v.staged a)
    (inbox : u.inbox = v.inbox) (rings : u.rings.Sublist v.rings) : u.Owned a where
  single := Nat.le_trans (rings.filter _).length_le owned.single
  ring w h origin := by
    obtain ⟨busy, dest, unreferred⟩ := owned.ring w (rings.subset h) origin
    rw [staged]
    exact ⟨busy, dest, fun p d h => unreferred p d ((refers_congr inbox).mp h)⟩
  sound p i h := by
    rw [staged]
    rw [inbox] at h
    exact owned.sound p i h

/-- Only one inbox refers to messages of a sender. -/
theorem Owned.eq_of_refers (owned : v.Owned a) {q : PeerId} {c d : Delivery}
    (h : v.Refers p d) (sender : d.sender = a) (h' : v.Refers q c) (sender' : c.sender = a) :
    p = q := by
  obtain ⟨i, here, refers⟩ := h
  obtain ⟨j, there, refers'⟩ := h'
  have dest := ((owned.sound p i here).refs d refers sender).dest
  have dest' := ((owned.sound q j there).refs c refers' sender').dest
  exact UInt16.toUInt64_inj.mp (dest.symm.trans dest')

/-- A reference excludes a ring. -/
theorem Owned.no_ring (owned : v.Owned a) {d : Delivery} (h : v.Refers p d)
    (sender : d.sender = a) : ∀ w ∈ v.rings, w.origin ≠ a :=
  fun w there origin => (owned.ring w there origin).2.2 p d h sender

/-- When the ring of a sender arrives, its message is staged for this endpoint, nobody refers to
    it, and no other ring is under way. -/
theorem Owned.arrived {stray : Prop} (owned : v.Owned a) (calm : ¬ stray)
    (arrival : v.Arrival stray p a u) : (v.staged a).dest = p.toUInt64 ∧ u.Quiet a := by
  cases arrival with
  | stray h => exact absurd h calm
  | @ring place w found origin dest =>
    obtain ⟨bound, at_place⟩ := List.getElem?_eq_some_iff.mp found
    have there : w ∈ v.rings := List.mem_of_getElem? found
    obtain ⟨-, target, unreferred⟩ := owned.ring w there origin
    refine ⟨by rw [target, dest], fun other h origin' => ?_, unreferred⟩
    -- the other ring stands in the queue besides this one
    have counted := ((List.getElem_cons_eraseIdx_perm bound).filter fun w => w.origin = a).length_eq
    rw [at_place, List.filter_cons_of_pos (by simpa using origin), List.length_cons] at counted
    have one := owned.single
    have positive : 0 < ((v.rings.eraseIdx place).filter fun w => w.origin = a).length :=
      List.length_pos_of_mem (List.mem_filter.mpr ⟨h, by simpa using origin'⟩)
    omega

/-- An inbox changes while rings may get lost, and a delivery to which it referred is given up. If
    that is one of the sender, nothing of the sender is about afterwards. -/
theorem Owned.changed (owned : v.Owned a) {k : Option Inbox} {o : Option Delivery}
    (staged : u.staged a = v.staged a) (inbox : u.inbox = v.inbox)
    (rings : u.rings.Sublist v.rings) (given : ∀ d ∈ o, v.Refers p d)
    (kept : (∀ d ∈ o, d.sender ≠ a) → ∀ j ∈ k, j.Sound a (v.staged a) p)
    (rung : (∃ w ∈ u.rings, w.origin = a) → ∀ j ∈ k, ∀ d, j.Refers d → d.sender ≠ a)
    (cleared : ∀ d ∈ o, d.sender = a → ∀ j ∈ k, ∀ c, j.Refers c → c.sender ≠ a) :
    ((u.setInbox p k).giveUp o).Owned a := by
  -- A sender has one reference at most, so the split is on whether that is the one given up.
  by_cases own : ∃ d ∈ o, d.sender = a
  · -- this was the only endpoint that referred to the sender, and it does so no longer
    obtain ⟨d, gave, sender⟩ := own
    have was := given d gave
    refine Quiet.owned ⟨fun w h => ?_, fun q c h => ?_⟩
    · exact owned.no_ring was sender w (rings.subset (by simpa using h))
    · rcases refers_changed h with ⟨-, j, there, refers⟩ | ⟨other, refers⟩
      · exact cleared d gave sender j there c refers
      · rw [refers_congr inbox] at refers
        exact fun sender' => other (owned.eq_of_refers refers sender' was sender)
  · -- the slot of the sender stays as it is
    have others : ∀ d ∈ o, d.sender ≠ a := fun d h sender => own ⟨d, h, sender⟩
    have unchanged : ((u.setInbox p k).giveUp o).staged a = v.staged a := by
      rw [staged_giveUp_of_ne _ others, staged_setInbox, staged]
    refine ⟨?_, fun w h origin => ?_, fun q i h => ?_⟩
    · rw [rings_giveUp, rings_setInbox]
      exact Nat.le_trans (rings.filter _).length_le owned.single
    · rw [rings_giveUp, rings_setInbox] at h
      obtain ⟨busy, dest, unreferred⟩ := owned.ring w (rings.subset h) origin
      rw [unchanged]
      refine ⟨busy, dest, fun q c refers => ?_⟩
      rcases refers_changed refers with ⟨-, j, there, refers⟩ | ⟨-, refers⟩
      · exact rung ⟨w, h, origin⟩ j there c refers
      · exact unreferred q c ((refers_congr inbox).mp refers)
    · rw [unchanged]
      rw [inbox_giveUp] at h
      by_cases same : q = p
      · subst same
        rw [inbox_setInbox_self] at h
        exact kept others i h
      · rw [inbox_setInbox_of_ne _ same, inbox] at h
        exact owned.sound q i h

/-- While a ring of the sender is under way, no inbox refers to it. -/
theorem Owned.foreign_of_ring (owned : v.Owned a) {i : Inbox} (here : v.inbox p = some i)
    {rings : List DoorbellWord} (fewer : rings.Sublist v.rings) (rung : ∃ w ∈ rings, w.origin = a) :
    ∀ d, i.Refers d → d.sender ≠ a := by
  obtain ⟨w, h, origin⟩ := rung
  exact fun d refers => (owned.ring w (fewer.subset h) origin).2.2 p d ⟨i, here, refers⟩

/-- A peer claims its slot: the sender does so only while nothing of it is about. -/
theorem Owned.occupy (owned : v.Owned a) (quiet : p = a → v.Quiet a) (capacity : Nat) :
    (v.occupy p capacity).Owned a := by
  have empty : ∀ d, ¬ ({} : Inbox).Refers d := by simp [Inbox.Refers]
  -- the other peers refer to the sender as before, and the new inbox to nobody
  by_cases same : p = a
  · obtain ⟨rings, refs⟩ := quiet same
    refine Quiet.owned ⟨rings, fun q d h => ?_⟩
    rcases refers_changed (o := none) h with ⟨-, j, there, h⟩ | ⟨-, h⟩
    · cases there
      exact absurd h (empty d)
    · exact refs q d h
  · refine owned.changed (o := none) (staged_setStaged_of_ne v (Ne.symm same) _) rfl (.refl _)
      (by simp) ?_ ?_ (by simp)
    · rintro - j ⟨⟩
      exact .of_foreign fun d h => absurd h (empty d)
    · rintro - j ⟨⟩ d h
      exact absurd h (empty d)

/-- The sender stages a message: nothing of it was about, and its ring is all that is now. -/
theorem Owned.post_self (valid : l.Valid) {s : Sent} (owned : v.Owned s.origin) {target : UInt64}
    (admits : v.Admits l s target) : (v.post s.origin target s.message).Owned s.origin := by
  obtain ⟨rings, refs⟩ := owned.quiet admits.idle
  have put : (v.post s.origin target s.message).staged s.origin =
      (v.staged s.origin).put target s.message := staged_setStaged_self v _ _
  have short := Nat.lt_trans admits.short l.maxPayload_lt
  refine ⟨?_, fun w h origin => ?_, fun q i h => ?_⟩
  · -- before the new ring there was none of the sender
    rw [post, List.filter_append, List.filter_eq_nil_iff.mpr fun w h => by simpa using rings w h]
    exact List.length_filter_le _ _
  · rcases List.mem_append.mp h with h | h
    · exact absurd origin (rings w h)
    · obtain rfl := List.mem_singleton.mp h
      rw [put, DoorbellWord.dest_new,
        (Destination.hasSlot_of_resolve admits.resolved).toUInt16_toUInt64 valid]
      exact ⟨Staged.len_put_ne_zero short admits.nonempty, rfl, refs⟩
  · exact .of_foreign fun d refers => refs q d ⟨i, h, refers⟩

/-- Another peer stages a message. -/
theorem Owned.post_of_ne (owned : v.Owned a) (other : p ≠ a) (target : UInt64)
    (message : List UInt8) : (v.post p target message).Owned a := by
  have unchanged : (v.post p target message).staged a = v.staged a :=
    staged_setStaged_of_ne v (Ne.symm other) _
  -- a ring of the sender is not the new one
  have old : ∀ w ∈ (v.post p target message).rings, w.origin = a → w ∈ v.rings := by
    intro w h origin
    rcases List.mem_append.mp h with h | h
    · exact h
    · rw [List.mem_singleton.mp h, DoorbellWord.origin_new] at origin
      exact absurd origin other
  refine ⟨?_, fun w h origin => ?_, fun q i h => ?_⟩
  · rw [post, List.filter_append, List.length_append]
    simpa [other] using owned.single
  · rw [unchanged]
    exact owned.ring w (old w h origin) origin
  · rw [unchanged]
    exact owned.sound q i h

/-- The message of the sender becomes the pending delivery: its ring has arrived, and the delivery
    is all that is about of it. -/
theorem Owned.install_self {stray : Prop} (owned : v.Owned a) (calm : ¬ stray)
    (arrival : v.Arrival stray p a u) {i : Inbox} (here : v.inbox p = some i)
    (busy : (v.staged a).len ≠ 0) (plain : ¬ Link.IsRequest (v.staged a).message) (n : UInt64) :
    (u.install p i ⟨a, (v.staged a).len, n⟩).Owned a := by
  obtain ⟨dest, rings, refs⟩ := owned.arrived calm arrival
  -- the ring was the only thing about of the sender, so that no reference is to it
  have foreign : ∀ c, i.Refers c → c.sender ≠ a :=
    fun c h => refs p c ⟨i, arrival.inbox_eq ▸ here, h⟩
  have given : ∀ c ∈ i.stomped, v.Refers p c :=
    fun c h => ⟨i, here, .inl (Inbox.stomped_eq_some.mp h).1⟩
  refine owned.changed (congrFun arrival.staged_eq a) arrival.inbox_eq arrival.sublist given ?_ ?_
    ?_
  · rintro - j ⟨⟩
    refine ⟨fun c h sender => ?_, fun q h _ held _ sender => ?_⟩
    · rcases Inbox.refers_accept h with rfl | old
      · exact ⟨rfl, busy, dest, plain⟩
      · exact absurd sender (foreign c (.inr old))
    · exact absurd sender (foreign h (.inr held))
  · rintro ⟨ring, h, origin⟩
    exact absurd origin (rings ring h)
  · intro c h sender
    exact absurd sender (foreign c (.inl (Inbox.stomped_eq_some.mp h).1))

/-- A message of another peer becomes the pending delivery. What is stomped of the sender was all
    that was about of it. -/
theorem Owned.install_of_ne {stray : Prop} (owned : v.Owned a) {b : PeerId}
    (arrival : v.Arrival stray p b u) {i : Inbox} (here : v.inbox p = some i) {d : Delivery}
    (other : d.sender ≠ a) : (u.install p i d).Owned a := by
  have sound := owned.sound p i here
  have given : ∀ c ∈ i.stomped, v.Refers p c :=
    fun c h => ⟨i, here, .inl (Inbox.stomped_eq_some.mp h).1⟩
  -- the new delivery is of another sender, so that only what is stomped matters
  refine owned.changed (congrFun arrival.staged_eq a) arrival.inbox_eq arrival.sublist given ?_ ?_
    ?_
  · rintro - j ⟨⟩
    exact sound.accept other
  · rintro rung j ⟨⟩ c h
    rcases Inbox.refers_accept h with rfl | old
    · exact other
    · exact owned.foreign_of_ring here arrival.sublist rung c (.inr old)
  · rintro q h sender j ⟨⟩ c h'
    rcases Inbox.refers_accept h' with rfl | old
    · exact other
    · exact sound.foreign_of_stomped h sender old

/-- The consumer of an endpoint takes a delivery in hand. -/
theorem Owned.handOut (owned : v.Owned a) {i : Inbox} (here : v.inbox p = some i) {d : Delivery}
    (pending : i.pending = some d) : (v.handOut p i d).Owned a := by
  refine owned.changed rfl rfl (.refl _) ?_ ?_ ?_ ?_
  · exact fun c h => ⟨i, here, .inr (Inbox.superseded_eq_some.mp h).1⟩
  · rintro - j ⟨⟩
    exact (owned.sound p i here).handOut pending
  · rintro rung j ⟨⟩ c h
    rw [Inbox.refers_handOut pending h]
    exact owned.foreign_of_ring here (.refl _) rung d (.inl pending)
  · rintro c h sender j ⟨⟩ c' h'
    rw [Inbox.refers_handOut pending h', ← sender]
    exact (Inbox.superseded_eq_some.mp h).2.symm

/-- The consumer of an endpoint gives up a delivery. -/
theorem Owned.release (owned : v.Owned a) {i : Inbox} (here : v.inbox p = some i) :
    (v.release p i).Owned a := by
  refine owned.changed rfl rfl (.refl _) ?_ ?_ ?_ ?_
  · exact fun c h => ⟨i, here, Inbox.refers_of_released h⟩
  · rintro - j ⟨⟩
    exact (owned.sound p i here).release
  · rintro rung j ⟨⟩ c h
    exact owned.foreign_of_ring here (.refl _) rung c (.inl (Inbox.refers_release h))
  · rintro c h sender j ⟨⟩ c' h'
    rw [← sender]
    exact Inbox.ne_of_refers_release h h'

/-- Steps preserve the invariant, as long as no stray ring arrives and the sender claims its slot
    only while nothing of it is about. -/
theorem Owned.step (valid : l.Valid) (calm : ¬ r.stray) (quiet : ∀ v, r.claim v a → v.Quiet a)
    (owned : v.Owned a) (step : Step l r v story u) : u.Owned a := by
  cases step with
  | occupy claim => exact owned.occupy (fun same => quiet v (same ▸ claim)) _
  | forget p =>
    exact owned.changed (o := none) rfl rfl (.refl _) (by simp) (by simp) (by simp) (by simp)
  -- what is sent, answered or installed may be of the sender itself, or of another one
  | @post s target here admits =>
    by_cases same : s.origin = a
    · subst same
      exact owned.post_self valid admits
    · exact owned.post_of_ne same target s.message
  | lose place => exact owned.of_fewer rfl rfl (List.eraseIdx_sublist _ _)
  | @answer p b w arrival busy request =>
    by_cases same : a = b
    · subst same
      obtain ⟨-, rings, refs⟩ := owned.arrived calm arrival
      exact Quiet.owned ⟨rings, refs⟩
    · refine owned.of_fewer ?_ arrival.inbox_eq arrival.sublist
      rw [staged_clear_of_ne w same, arrival.staged_eq]
  | @install p b w i d arrival here busy plain fresh =>
    obtain rfl := (Inbox.fresh?_eq_some.mp fresh).2
    by_cases same : b = a
    · subst same
      exact owned.install_self calm arrival here busy plain _
    · exact owned.install_of_ne arrival here same
  -- a consumer moves its references on, whose ever they are
  | take here pending => exact owned.handOut here pending
  | release here => exact owned.release here

end View

end SharedMailbox
