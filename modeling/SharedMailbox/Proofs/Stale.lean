import SharedMailbox.Proofs.Ledger
import SharedMailbox.Proofs.Orderly

namespace SharedMailbox

/-!
# Stale deliveries

A delivery that is given up tells by its length alone what is to be marked consumed. A peer that
attaches anew may have sent another message by then: that one is taken for it if it is as long.

* `View.Recorded`: what inboxes refer to was installed, with the length of the last message of its
  sender.
* `View.Silent`: since it was installed, its sender has sent nothing.
* `Network.Settles`, `Network.settles_of_run`: what is marked consumed when a delivery is given up,
  and that it is the message of the delivery if its sender attaches only while nothing of it is
  about.
-/

namespace View

variable {l : Layout} {r : Rules} {v u : View} {a : PeerId} {before story : Story}

/-- A story records a view: what is staged was sent, what inboxes refer to was installed, and what
    was installed has the length of the last message of its sender. -/
structure Recorded (l : Layout) (story : Story) (v : View) : Prop where
  ledger : ∀ a, Ledger l a story v
  installed : ∀ p d, v.Refers p d → .installed p d ∈ story
  measured : story.Arrivals fun before _ d =>
    ∃ s, before.latest? d.sender = some s ∧ d.len.toNat = s.message.length

/-- A step of a view is recorded when its story is. -/
theorem Recorded.step (recorded : v.Recorded l before) (step : Step l r v story u) :
    u.Recorded l (before ++ story) where
  ledger a := (recorded.ledger a).step step
  installed p d h := by
    rcases step.refers h with old | new
    · exact List.mem_append_left _ (recorded.installed p d old)
    · exact List.mem_append_right _ new
  measured := by
    cases step with
    -- what is installed has the length of the last message of its sender
    | @install p b w i d arrival here busy plain fresh =>
      obtain rfl := (Inbox.fresh?_eq_some.mp fresh).2
      obtain ⟨s, latest, staged⟩ := recorded.ledger b busy
      exact recorded.measured.arrival i ⟨s, latest, staged.len⟩
    | occupy | forget | post | lose | answer | take | release =>
      exact recorded.measured.append (by simp)

/-- Since a delivery of a peer was installed to which somebody refers, the peer has sent nothing. -/
def Silent (a : PeerId) (story : Story) (v : View) : Prop :=
  ∀ p d, v.Refers p d → d.sender = a → ∃ k : Nat, story[k]? = some (Event.installed p d) ∧
    ∀ (i : Nat) t, k < i → story[i]? = some (Event.sent t) → t.origin ≠ a

/-- A peer whose slot is owned sends nothing while somebody refers to it. -/
theorem Silent.step (owned : v.Owned a) (silent : Silent a before v) (step : Step l r v story u) :
    Silent a (before ++ story) u := by
  intro p d h sender
  have source := step.refers h
  -- the peer could send only with an idle slot, and then nobody refers to it
  have unsent : ∀ t, .sent t ∈ story → t.origin ≠ a := by
    have change := step.slotChange a
    generalize u.staged a = left at change
    cases change with
    | kept unsent | emptied _ unsent => exact unsent
    | @put s target origin admits =>
      have quiet := owned.quiet (origin ▸ admits.idle)
      rcases source with old | new
      · exact absurd sender (quiet.refs p d old)
      · cases List.mem_singleton.mp new
  have later : ∀ (i : Nat) t, before.length ≤ i → (before ++ story)[i]? = some (Event.sent t) →
      t.origin ≠ a := by
    intro i t bound told
    rw [List.getElem?_append_right bound] at told
    exact unsent t (List.mem_of_getElem? told)
  -- an older reference keeps its place in the story, a new one stands among what this step adds
  rcases source with old | new
  · obtain ⟨k, there, silent⟩ := silent p d old sender
    obtain ⟨bound, -⟩ := List.getElem?_eq_some_iff.mp there
    refine ⟨k, by rw [List.getElem?_append_left bound, there], fun i t after told => ?_⟩
    by_cases early : i < before.length
    · rw [List.getElem?_append_left early] at told
      exact silent i t after told
    · exact later i t (Nat.le_of_not_lt early) told
  · obtain ⟨k, there⟩ := List.mem_iff_getElem?.mp new
    refine ⟨before.length + k, ?_, fun i t after told => later i t (by omega) told⟩
    rw [List.getElem?_append_right (Nat.le_add_right ..), Nat.add_sub_cancel_left, there]

end View

/-- Clearing changes the announced length iff there is one and it is the one that was seen. -/
theorem Staged.len_clear_ne_iff {s : Staged} {seen : UInt64} :
    (s.clear seen).len ≠ s.len ↔ s.len ≠ 0 ∧ s.len = seen := by
  by_cases same : s.len = seen
  · simp [Staged.clear, same, eq_comm]
  · simp [Staged.clear, same]

namespace Network

variable {storage : Storage} {l : Layout} {b : Mailbox} {actions : List Action}

/-- A peer attaches only while no ring of it is under way and nobody refers to it. -/
def AttachesQuietly (net : Network) (actions : List Action) (a : PeerId) : Prop :=
  ∀ before action after, actions = before ++ action :: after →
    .attached a ∈ (net.run .queue before).events action → (net.run .queue before).view.Quiet a

/-- What comes of it when a peer gives up a delivery: that is of the send of `m` at `j`, and the
    last send of its sender is that of `t` at `i`. -/
structure Settles (l : Layout) (story : Story) (net after : Network) (p : PeerId) (d : Delivery)
    (j i : Nat) (m t : Sent) : Prop where
  /-- When the delivery was installed at the peer the last time, `m` was sent last. -/
  carried : ∃ k, story.Carries j k m p d ∧
    ∀ later, k < later → story[later]? ≠ some (.installed p d)
  last : story.LastSent d.sender i t
  /-- If anything is staged, it is `t`. -/
  staged : (net.staged d.sender).len ≠ 0 → t.StagedAs l (net.staged d.sender)
  /-- It is marked consumed iff it is as long as `m`. -/
  consumed : (after.staged d.sender).len ≠ (net.staged d.sender).len ↔
    (net.staged d.sender).len ≠ 0 ∧ t.message.length = m.message.length

/-- Every run is recorded. -/
theorem recorded_of_run (created : Mailbox.create storage l = .ok b) (actions : List Action) :
    WellFormed l True ((ofMailbox b).run .queue actions) ∧
      ((ofMailbox b).run .queue actions).view.Recorded l ((ofMailbox b).story actions) := by
  have untouched := untouched_of_create created
  obtain ⟨wf, path⟩ := path_of_run created actions
  have start : (ofMailbox b).view.Recorded l [] :=
    ⟨fun a busy => absurd (untouched a).idle busy,
      fun p d h => absurd rfl ((untouched d.sender).refs p d h), Story.arrivals_nil⟩
  exact ⟨wf, path.invariant [] (I := fun story v => v.Recorded l story)
    (fun step recorded => recorded.step step) start⟩

/-- If a peer attaches quietly and no stray rings arrive, its slot is owned, and it has sent nothing
    since a delivery was installed that somebody refers to. -/
theorem owned_of_quietly (created : Mailbox.create storage l = .ok b)
    (orderly : ∀ action ∈ actions, action.Orderly) {a : PeerId}
    (quietly : (ofMailbox b).AttachesQuietly actions a) :
    ((ofMailbox b).run .queue actions).view.Owned a ∧
      View.Silent a ((ofMailbox b).story actions) ((ofMailbox b).run .queue actions).view := by
  have untouched := untouched_of_create created
  -- the claims of the one peer are quiet, and those of other peers do not matter
  have abides : ∀ before action after, actions = before ++ action :: after →
      ((ofMailbox b).run .queue before).Abides ⟨False, fun v p => p = a → v.Quiet p⟩ action := by
    rintro before action after rfl
    refine ⟨.inr (orderly action (by simp)), ?_⟩
    rintro p claimed rfl
    exact quietly before action after rfl claimed
  obtain ⟨wf, path⟩ := WellFormed.run (r := ⟨False, fun v p => p = a → v.Quiet p⟩)
    (wellFormed_of_create created) abides
  refine path.invariant [] (I := fun story v => v.Owned a ∧ View.Silent a story v) ?_
    ⟨(untouched a).toQuiet.owned, fun p d h sender => absurd sender ((untouched a).refs p d h)⟩
  rintro before story v u step ⟨owned, silent⟩
  have quiet : ∀ v : View, (a = a → v.Quiet a) → v.Quiet a := fun v claim => claim rfl
  exact ⟨owned.step wf.valid id quiet step, silent.step owned step⟩

/-- **Stale deliveries.** After every run from a new mailbox, whoever attaches in it as often as may
    be: when a delivery is given up, whatever its sender has sent last is marked consumed if it is
    staged and as long as the message that was delivered, and stays as it is otherwise. If the
    sender attaches only while nothing of it is about, it has sent nothing since that message. -/
theorem settles_of_run (created : Mailbox.create storage l = .ok b) {action : Action}
    {event : Event} {p : PeerId} {d : Delivery}
    (told : event ∈ ((ofMailbox b).run .queue actions).events action)
    (gave : event.givenUp? = some (p, d)) :
    ∃ j i m t, Settles l ((ofMailbox b).story actions) ((ofMailbox b).run .queue actions)
        (((ofMailbox b).run .queue actions).perform .queue action).2 p d j i m t ∧
      ((∀ action ∈ actions, action.Orderly) → (ofMailbox b).AttachesQuietly actions d.sender →
        i = j) := by
  obtain ⟨wf, recorded⟩ := recorded_of_run created actions
  obtain ⟨refers, cleared⟩ := wf.givesUp told gave
  have silent := fun (orderly : ∀ action ∈ actions, action.Orderly) quietly =>
    (owned_of_quietly (a := d.sender) created orderly quietly).2 p d refers rfl
  generalize (ofMailbox b).story actions = story at *
  -- the reference that is given up is that of the last installation of the delivery
  obtain ⟨k, _, installed, rfl, last⟩ := Story.exists_last
    (P := (· = .installed p d)) ⟨_, recorded.installed p d refers, rfl⟩
  obtain ⟨m, latest, len⟩ := Story.arrivals_iff.mp recorded.measured k p d installed
  obtain ⟨j, carried⟩ := Story.exists_of_latest? latest
  have carries : story.Carries j k m p d := ⟨installed, carried⟩
  obtain ⟨i, t, sent⟩ := Story.exists_lastSent (List.mem_of_getElem? carries.sent)
  rw [carried.origin] at sent
  have staged : ∀ busy : (((ofMailbox b).run .queue actions).staged d.sender).len ≠ 0,
      t.StagedAs l (((ofMailbox b).run .queue actions).staged d.sender) := by
    intro busy
    obtain ⟨s, latest, staged⟩ := recorded.ledger d.sender busy
    obtain rfl := Option.some.inj (latest.symm.trans sent.latest?)
    exact staged
  refine ⟨j, i, m, t, ⟨⟨k, carries, fun i after told => last i _ after told rfl⟩, sent, staged, ?_⟩,
    fun orderly quietly => ?_⟩
  · -- the lengths of both messages are compared, for those are what the two words stand for
    simp only [staged_view] at cleared
    rw [cleared, Staged.len_clear_ne_iff]
    refine and_congr_right fun busy => ?_
    rw [← (staged busy).len, ← len, UInt64.toNat_inj]
  · obtain ⟨first, there, unsent⟩ := silent orderly quietly
    -- the first installation is not after the last one, and nothing was sent after that
    have order : first ≤ k := Nat.le_of_not_lt fun after => last first _ after there rfl
    rcases Nat.lt_trichotomy i j with early | same | late
    · exact absurd carried.origin (sent.last j m early carries.sent)
    · exact same
    · rcases Nat.lt_trichotomy i k with before | rfl | after
      · exact absurd sent.origin (carries.last i t late before sent.sent)
      · cases installed.symm.trans sent.sent
      · exact absurd sent.origin (unsent i t (Nat.lt_of_le_of_lt order after) sent.sent)

/-- Peer 1 attaches anew and sends to peer 3 while its first message is pending at peer 2. -/
def reattaching : List Action :=
  [join 1, join 2, hail 1 2, .deliver 0, join 1, .send 1 .spin (.peer 3) [7]]

/-- Peer 2 gives that up. -/
theorem settles_of_run_small : ∃ j i m t, Settles smallLayout
    ((ofMailbox smallMailbox).story reattaching) ((ofMailbox smallMailbox).run .queue reattaching)
    (((ofMailbox smallMailbox).run .queue reattaching).perform .queue (.release 2)).2 2 ⟨1, 1, 1⟩
      j i m t ∧
      ((∀ action ∈ reattaching, action.Orderly) →
        (ofMailbox smallMailbox).AttachesQuietly reattaching 1 → i = j) :=
  settles_of_run (b := smallMailbox) (l := smallLayout) create_small
    (show Event.released 2 ⟨1, 1, 1⟩ ∈ _ by decide +kernel) rfl

/-- The message for peer 3 is marked consumed then, for it is as long. -/
theorem stale_consumed_small :
    let net := (ofMailbox smallMailbox).run .queue reattaching
    let after := (net.perform .queue (.release 2)).2
    net.events (.release 2) = [.released 2 ⟨1, 1, 1⟩] ∧
      (net.staged 1).dest = 3 ∧ (net.staged 1).message = [7] ∧ (after.staged 1).message = [] := by
  decide +kernel

end Network

end SharedMailbox
