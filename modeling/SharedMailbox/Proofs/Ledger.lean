import SharedMailbox.Proofs.Steps

namespace SharedMailbox

/-!
# What a busy slot holds

A slot that is busy holds the last message that its owner has sent, whatever else has happened.

* `View.SlotChange`, `View.Step.slotChange`: what a step makes of a slot.
* `View.Ledger`, `View.Ledger.step`: the last send of a peer is what its busy slot holds.
-/

namespace View

variable {l : Layout} {r : Rules} {v u : View} {story : Story} {a : PeerId}

/-- What a step makes of a slot: it leaves the slot alone or empties it, and the owner sends
    nothing, or the owner stages what it sends. -/
inductive SlotChange (l : Layout) (a : PeerId) (v : View) : Story → Staged → Prop
  | kept {story : Story} (silent : ∀ s, .sent s ∈ story → s.origin ≠ a) :
      SlotChange l a v story (v.staged a)
  | emptied {story : Story} {left : Staged} (idle : left.len = 0)
      (silent : ∀ s, .sent s ∈ story → s.origin ≠ a) : SlotChange l a v story left
  | put {s : Sent} {target : UInt64} (origin : s.origin = a) (admits : v.Admits l s target) :
      SlotChange l a v [.sent s] ((v.staged a).put target s.message)

/-- Clearing a slot is one of these. -/
theorem SlotChange.of_clear {b : PeerId} {seen : UInt64} (staged : u.staged = v.staged)
    (silent : ∀ s, .sent s ∈ story → s.origin ≠ a) :
    v.SlotChange l a story ((u.clear b seen).staged a) := by
  by_cases same : a = b
  · subst same
    rw [staged_clear_self, staged]
    rcases (v.staged a).clear_eq_or seen with unchanged | ⟨-, idle⟩
    · rw [unchanged]
      exact .kept silent
    · exact .emptied idle silent
  · rw [staged_clear_of_ne u same, staged]
    exact .kept silent

/-- So is giving up a delivery. -/
theorem SlotChange.of_giveUp {o : Option Delivery} (staged : u.staged = v.staged)
    (silent : ∀ s, .sent s ∈ story → s.origin ≠ a) :
    v.SlotChange l a story ((u.giveUp o).staged a) := by
  cases o with
  | none =>
    rw [giveUp, staged]
    exact .kept silent
  | some d => exact .of_clear staged silent

/-- Each step changes a slot in one of these ways, and the story tells which. -/
theorem Step.slotChange (step : Step l r v story u) (a : PeerId) :
    v.SlotChange l a story (u.staged a) := by
  cases step with
  | @occupy p claim =>
    by_cases same : a = p
    · -- the owner wipes its slot
      subst same
      refine .emptied ?_ (by simp)
      rw [View.occupy, staged_setInbox, staged_setStaged_self]
      rfl
    · have kept : (v.occupy p l.maxPayload).staged a = v.staged a := staged_setStaged_of_ne v same _
      rw [kept]
      exact .kept (by simp)
  | forget p => exact .kept (by simp)
  | @post s target here admits =>
    by_cases same : s.origin = a
    · subst same
      have put : (v.post s.origin target s.message).staged s.origin =
          (v.staged s.origin).put target s.message := staged_setStaged_self v _ _
      rw [put]
      exact .put rfl admits
    · have kept : (v.post s.origin target s.message).staged a = v.staged a :=
        staged_setStaged_of_ne v (Ne.symm same) _
      rw [kept]
      refine .kept fun s' h => ?_
      cases List.mem_singleton.mp h
      exact same
  | lose place => exact .kept (by simp)
  | answer arrival busy request => exact .of_clear arrival.staged_eq (by simp)
  | install arrival =>
    exact .of_giveUp (by simpa using arrival.staged_eq) (by simp [Inbox.onArrival])
  | take => exact .of_giveUp rfl (by simp)
  | release => exact .of_giveUp rfl (by simp)

end View

/-- What is staged is a message that was sent. -/
structure Sent.StagedAs (s : Sent) (l : Layout) (staged : Staged) : Prop where
  resolved : s.dest.resolve l = .ok staged.dest
  len : staged.len.toNat = s.message.length
  message : staged.message = s.message

namespace View

variable {l : Layout} {r : Rules} {v u : View} {before story : Story} {a : PeerId}

/-- While the slot of a peer is busy, it holds the last message that the peer has sent. -/
def Ledger (l : Layout) (a : PeerId) (story : Story) (v : View) : Prop :=
  (v.staged a).len ≠ 0 → ∃ s, story.latest? a = some s ∧ s.StagedAs l (v.staged a)

/-- A step keeps the ledger of a peer. -/
theorem Ledger.step (ledger : Ledger l a before v) (step : Step l r v story u) :
    Ledger l a (before ++ story) u := by
  have change := step.slotChange a
  unfold Ledger
  generalize u.staged a = left at change ⊢
  intro busy
  cases change with
  | kept silent =>
    obtain ⟨s, latest, staged⟩ := ledger busy
    exact ⟨s, (before.latest?_append_of_not_sent silent).trans latest, staged⟩
  | emptied idle => exact absurd idle busy
  | @put s target origin admits =>
    -- what is staged now is what is sent now
    have short := Nat.lt_trans admits.short l.maxPayload_lt
    refine ⟨s, ?_, admits.resolved, Staged.toNat_len_put short, Staged.message_put short⟩
    rw [Story.latest?_append_sent, if_pos origin]

end View

end SharedMailbox
