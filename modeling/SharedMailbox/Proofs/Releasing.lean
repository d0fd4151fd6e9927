import SharedMailbox.Proofs.Orderly

namespace SharedMailbox

/-!
# Releasing again

A release gives up the delivery in hand, and a pending one of the same sender with it. A pending one
of another sender outlasts it. The next release finds nothing in hand then, and gives that one up
although nobody has read it.

* `Inbox.Outlasts`: which delivery that is.
* `Network.release_of_empty`: a peer that refers to nothing releases nothing.
* `Network.ReleasesAgain`, `Network.releasesAgain_of_run`: what a second release does.
-/

/-! ### Inboxes -/

namespace Inbox

variable {i : Inbox} {d : Delivery}

/-- A delivery outlasts a release if it is pending while one of another sender is in hand. -/
def Outlasts (i : Inbox) (d : Delivery) : Prop :=
  i.pending = some d ∧ ∃ held, i.inHand = some held ∧ d.sender ≠ held.sender

/-- After a release nothing is in hand. -/
theorem inHand_release (i : Inbox) : i.release.1.inHand = none := by
  unfold release
  split
  · rfl
  next idle => exact idle

/-- After a release that is pending which outlasts it. -/
theorem pending_release_iff : i.release.1.pending = some d ↔ i.Outlasts d := by
  rcases hand : i.inHand with _ | held
  · simp [release, hand, Outlasts]
  · simp [release, hand, Outlasts, Option.filter_eq_some_iff]

/-- After a release the inbox refers to what outlasts it and to nothing else. -/
theorem refers_release_iff : i.release.1.Refers d ↔ i.Outlasts d := by
  rw [Refers, inHand_release, pending_release_iff]
  simp

/-- With nothing in hand, what is pending is given up. -/
theorem release_of_idle_hand (idle : i.inHand = none) :
    i.release = ({ i with pending := none }, i.pending) := by
  simp [release, idle]

end Inbox

/-! ### Networks -/

namespace Network

variable {net : Network} {l : Layout} {stray : Prop} {p : PeerId} {e : Endpoint}

/-- A change that changes nothing in the record of an endpoint. -/
theorem update_eq_self {f : Endpoint → Endpoint}
    (same : ∀ e, net.endpoint? p = some e → f e = e) : net.update p f = net := by
  have kept : net.endpoints.modify p f = net.endpoints := by
    -- records are looked up peer by peer
    apply Std.ExtTreeMap.ext_getElem?
    intro q
    rw [Std.ExtTreeMap.getElem?_modify]
    split
    next here =>
      obtain rfl := Std.LawfulEqCmp.compare_eq_iff_eq.mp here
      rcases he : net.endpoints[p]? with _ | e
      · rfl
      · rw [Option.map_some, same e he]
    next => rfl
  show ({ net with endpoints := net.endpoints.modify p f } : Network) = net
  rw [kept]

/-- A peer that refers to nothing releases nothing. -/
theorem release_of_empty (he : net.endpoint? p = some e) (peer : e.peer = p)
    (pending : e.inbox.pending = none) (idle : e.inbox.inHand = none) :
    net.release e = (false, net) := by
  have empty : e.inbox.release = (e.inbox, none) := by
    rw [Inbox.release_of_idle_hand idle, pending, ← pending]
  have kept : (net.update e.peer fun e' => { e' with inbox := e.inbox }) = net := by
    apply update_eq_self
    intro e' he'
    rw [peer, he] at he'
    cases he'
    rfl
  rw [release, empty]
  show (false, net.update e.peer fun e' => { e' with inbox := e.inbox }) = _
  rw [kept]

/-- The endpoint of a peer releases its inbox. -/
theorem perform_release (he : net.endpoint? p = some e) :
    net.perform .queue (.release p) = (.answered (net.release e).1, (net.release e).2) := by
  simp [perform, actAs, he]

/-- The inbox of a peer after a release. -/
theorem WellFormed.inbox?_release (wf : WellFormed l stray net) (he : net.endpoint? p = some e) :
    (net.perform .queue (.release p)).2.inbox? p = some e.inbox.release.1 := by
  rw [perform_release he, ← inbox_view, (wf.release he).2.2]
  simp [View.release]

/-- What a release does at a peer that has released already, its inbox being `i` before that. -/
structure ReleasesAgain (net : Network) (p : PeerId) (i : Inbox) : Prop where
  /-- The peer refers to what outlasted the first release and to nothing else. -/
  refers : ∀ d, net.Refers p d ↔ i.Outlasts d
  /-- Nothing happens if and only if nothing outlasted it. -/
  harmless : net.perform .queue (.release p) = (.answered false, net) ↔ ∀ d, ¬ i.Outlasts d
  /-- Otherwise the newer delivery is given up, and its message is marked consumed. -/
  lost : ∀ d, i.Outlasts d →
    (net.perform .queue (.release p)).1 = .answered true ∧
    (∀ c, ¬ (net.perform .queue (.release p)).2.Refers p c) ∧
    (net.perform .queue (.release p)).2.staged d.sender = (net.staged d.sender).clear d.len

/-- An inbox that was released and has not changed since is released again. -/
theorem WellFormed.releasesAgain (wf : WellFormed l stray net) {i : Inbox}
    (here : net.inbox? p = some i.release.1) : net.ReleasesAgain p i := by
  obtain ⟨e, he, inbox⟩ := exists_of_inbox? here
  -- A release empties the hand, so that the second one takes what is pending, if anything is.
  have idle : e.inbox.inHand = none := by rw [inbox, i.inHand_release]
  have refers : ∀ d, net.Refers p d ↔ i.Outlasts d := by
    intro d
    rw [← Inbox.refers_release_iff, ← inbox]
    constructor
    · rintro ⟨e', he', refers⟩
      obtain rfl := Option.some.inj (he.symm.trans he')
      exact refers
    · exact fun refers => ⟨e, he, refers⟩
  have lost : ∀ d, i.Outlasts d →
      (net.perform .queue (.release p)).1 = .answered true ∧
      (∀ c, ¬ (net.perform .queue (.release p)).2.Refers p c) ∧
      (net.perform .queue (.release p)).2.staged d.sender = (net.staged d.sender).clear d.len := by
    intro d outlasts
    have pending : e.inbox.pending = some d := by rw [inbox, Inbox.pending_release_iff.mpr outlasts]
    have release := Inbox.release_of_idle_hand idle
    obtain ⟨-, answer, shown⟩ := wf.release he
    rw [perform_release he]
    refine ⟨?_, fun c refers => ?_, ?_⟩
    · rw [answer, release, pending]
      rfl
    · -- both references are gone
      obtain ⟨i', there, refers⟩ := refers_view.mpr refers
      rw [shown, View.release, View.inbox_giveUp, View.inbox_setInbox_self, release] at there
      obtain rfl := Option.some.inj there
      rcases refers with refers | refers
      · cases refers
      · rw [idle] at refers
        cases refers
    · rw [← staged_view, shown, View.release, release, pending, View.staged_giveUp_self]
      rfl
  refine ⟨refers, ⟨fun same d outlasts => ?_, fun clean => ?_⟩, lost⟩
  · -- a release that gives something up says so
    have answer := (lost d outlasts).1
    rw [same] at answer
    cases answer
  · have pending : e.inbox.pending = none := by
      apply Option.eq_none_iff_forall_ne_some.mpr
      intro d pending
      rw [inbox] at pending
      exact clean d (Inbox.pending_release_iff.mp pending)
    rw [perform_release he, release_of_empty he (wf.fits p e he).peer pending idle]

variable {storage : Storage} {b : Mailbox}

/-- **Releasing again.** After every run from a new mailbox, a peer releases twice, and whatever is
    done between changes nothing in its inbox. Then the second release does nothing if and only if
    no delivery of another sender was pending while one was in hand: it gives up such a delivery,
    whose message is marked consumed although the consumer has not read it. -/
theorem releasesAgain_of_run (created : Mailbox.create storage l = .ok b)
    (history between : List Action) {i : Inbox}
    (here : ((ofMailbox b).run .queue history).inbox? p = some i)
    (calm : ((ofMailbox b).run .queue (history ++ [.release p] ++ between)).inbox? p =
      ((ofMailbox b).run .queue (history ++ [.release p])).inbox? p) :
    ((ofMailbox b).run .queue (history ++ [.release p] ++ between)).ReleasesAgain p i := by
  obtain ⟨e, he, rfl⟩ := exists_of_inbox? here
  have once := (wellFormed_of_run created history).inbox?_release he
  apply (wellFormed_of_run created _).releasesAgain
  rw [calm, run_append]
  exact once

/-- Peer 3 has a message of peer 1 in hand when one of peer 2 arrives. -/
def interrupted : List Action :=
  [join 1, join 2, join 3, hail 1 3, .deliver 0, .await 3 .none, hail 2 3, .deliver 0]

/-- It releases, peer 1 sends to it again, and it releases once more. -/
theorem releasesAgain_of_run_small :
    ((ofMailbox smallMailbox).run .queue (interrupted ++ [.release 3] ++ [hail 1 3])).ReleasesAgain
      3 ⟨some ⟨2, 1, 2⟩, some ⟨1, 1, 1⟩, 2⟩ :=
  releasesAgain_of_run (l := smallLayout) create_small
    interrupted [hail 1 3] (by decide +kernel) (by decide +kernel)

/-- The second release in a row gives up the message of peer 2, which nobody has awaited: it is
    pending, and the slot of peer 2 is busy, before it and not after it. -/
theorem not_harmless_small :
    let once := (ofMailbox smallMailbox).run .queue (interrupted ++ [.release 3])
    let twice := (once.perform .queue (.release 3)).2
    once.events (.release 3) = [.released 3 ⟨2, 1, 2⟩] ∧
      once.inbox? 3 = some ⟨some ⟨2, 1, 2⟩, none, 2⟩ ∧ twice.inbox? 3 = some ⟨none, none, 2⟩ ∧
      (once.staged 2).message = [2] ∧ (twice.staged 2).len = 0 := by
  decide +kernel

end Network

end SharedMailbox
