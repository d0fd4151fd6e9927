import SharedMailbox.Proofs.Held

namespace SharedMailbox

/-!
# Delivery

A message that is sent arrives at most once, at the peer that it was addressed to, in the order in
which its sender sent; and who has it in hand reads what was sent.

* `Story.Faithful`, `View.Account`: every delivery that was installed is the last message of its
  sender, which had not arrived before.
* `Story.installs`, `View.Numbered`: the deliveries of a peer are numbered as they are installed.
* `Incoming.Shows`, `Network.delivers_of_run`: what is delivered in a run is what was sent.
-/

/-! ### Which send a delivery is of -/

/-- Every delivery that was installed was of the last message that its sender had sent, which had
    not arrived before, at the peer that it was addressed to. -/
def Story.Faithful (l : Layout) (story : Story) : Prop :=
  story.Arrivals fun before p d => ∃ s,
    undelivered? before d.sender = some s ∧ latest? before d.sender = some s ∧
      s.dest.resolve l = .ok p.toUInt64 ∧ d.len.toNat = s.message.length

/-- Such a delivery is of a send to the peer that it was installed at. -/
theorem Story.Faithful.exists_carries {l : Layout} {story : Story} (faithful : story.Faithful l)
    {k : Nat} {p : PeerId} {d : Delivery} (h : story[k]? = some (.installed p d)) :
    ∃ j s, story.Carries j k s p d ∧ s.dest.resolve l = .ok p.toUInt64 ∧
      d.len.toNat = s.message.length := by
  obtain ⟨s, -, latest, resolved, len⟩ := arrivals_iff.mp faithful k p d h
  obtain ⟨j, carried⟩ := exists_of_latest? latest
  exact ⟨j, s, ⟨h, carried⟩, resolved, len⟩

/-- No send is that of two deliveries. -/
theorem Story.Faithful.eq_of_carries {l : Layout} {story : Story} (faithful : story.Faithful l)
    {j k m : Nat} {s t : Sent} {p q : PeerId} {c d : Delivery} (h : story.Carries j k s p d)
    (h' : story.Carries j m t q c) : k = m := by
  -- after the first of the two nothing of the sender is undelivered any more
  have excluded : ∀ {j k m : Nat} {s t : Sent} {p q : PeerId} {c d : Delivery},
      story.Carries j k s p d → story.Carries j m t q c → ¬ k < m := by
    intro j k m s t p q c d h h' lt
    obtain ⟨bound, there⟩ := List.getElem?_eq_some_iff.mp h.installed
    have same : d.sender = c.sender := by
      have sent := h.sent.symm.trans h'.sent
      cases sent
      exact h.carried.origin.symm.trans h'.carried.origin
    obtain ⟨due, undelivered, -⟩ := arrivals_iff.mp faithful m q c h'.installed
    have split : story.take m = story.take (k + 1) ++ (story.take m).drop (k + 1) := by
      conv_lhs => rw [← List.take_append_drop (k + 1) (story.take m)]
      rw [List.take_take, Nat.min_eq_left lt]
    have delivered : Story.undelivered? (story.take (k + 1)) c.sender = none := by
      rw [List.take_succ_eq_append_getElem bound, undelivered?_append, there]
      simp [Event.undelivered, same]
    rw [split, undelivered?_append, delivered, foldl_undelivered_eq_none] at undelivered
    · cases undelivered
    · intro t told
      obtain ⟨i, told⟩ := List.mem_iff_getElem?.mp told
      rw [List.getElem?_drop, List.getElem?_take] at told
      split_ifs at told with early
      exact h'.last _ t (Nat.lt_trans h.before (by omega)) early told
  exact Nat.le_antisymm (Nat.le_of_not_lt (excluded h' h)) (Nat.le_of_not_lt (excluded h h'))

namespace View

variable {l : Layout} {r : Rules} {v u w : View} {before story : Story}

/-! ### What arrives -/

/-- The account that a story gives of a view: every slot is owned and holds what was sent last, a
    ring under way is that of a message which has not arrived, arrivals were faithful, and nothing
    was given up by an interrupt while another delivery of its sender was in hand. -/
structure Account (l : Layout) (story : Story) (v : View) : Prop where
  owned : ∀ a, v.Owned a
  ledger : ∀ a, Ledger l a story v
  due : ∀ w ∈ v.rings, story.undelivered? w.origin = story.latest? w.origin
  faithful : story.Faithful l
  still : ∀ event ∈ story, ∀ a, ¬ event.Displaces a

/-- Nothing is sent and nothing arrives. -/
theorem Account.due_of_silent (account : v.Account l before)
    (rings : ∀ w ∈ u.rings, w ∈ v.rings) (silent : ∀ s, .sent s ∉ story)
    (nothing : ∀ p d, .installed p d ∉ story) :
    ∀ w ∈ u.rings,
      (before ++ story).undelivered? w.origin = (before ++ story).latest? w.origin := by
  intro w h
  rw [before.undelivered?_append_of_silent (fun s h => absurd h (silent s))
    fun p d h => absurd h (nothing p d),
    before.latest?_append_of_not_sent fun s h => absurd h (silent s)]
  exact account.due w (rings w h)

/-- No interrupt gives up a delivery while another one of its sender is in hand. -/
theorem Owned.not_displaces {a : PeerId} (owned : v.Owned a) (step : Step l r v story u)
    {event : Event} (told : event ∈ story) : ¬ event.Displaces a := by
  intro displaces
  -- Only an installation could displace what is in hand: of an owned sender at most one delivery
  -- is referred to, so that what it stomps is of another one.
  cases step with
  | @install p b w i d arrival here =>
    rcases List.mem_cons.mp told with rfl | told
    · exact displaces
    · obtain ⟨q, given, rfl⟩ := Option.map_eq_some_iff.mp (Option.mem_toList.mp told)
      rcases held : i.inHand with _ | h <;> rw [held] at displaces
      · exact displaces
      · exact (owned.sound p i here).foreign_of_stomped given displaces.1 held displaces.2
  | occupy | post | take | release =>
    obtain rfl := List.mem_singleton.mp told
    exact displaces
  | forget | lose | answer => cases told

/-- A step keeps the account: what it adds to the story is what it changes. -/
theorem Account.step (valid : l.Valid) (calm : ¬ r.stray)
    (quiet : ∀ v a, r.claim v a → v.Quiet a) (account : v.Account l before)
    (step : Step l r v story u) : u.Account l (before ++ story) := by
  have owned : ∀ a, u.Owned a :=
    fun a => (account.owned a).step valid calm (fun v => quiet v a) step
  have ledger : ∀ a, Ledger l a (before ++ story) u := fun a => (account.ledger a).step step
  have still : ∀ event ∈ before ++ story, ∀ a, ¬ event.Displaces a := by
    intro event told a
    rcases List.mem_append.mp told with told | told
    · exact account.still event told a
    · exact (account.owned a).not_displaces step told
  -- A step that neither sends nor installs takes rings away at most; only a message that is sent
  -- and a delivery that is installed change what is due.
  cases step with
  | occupy | forget | take | release =>
    refine ⟨owned, ledger, account.due_of_silent ?_ (by simp) (by simp),
      account.faithful.append (by simp), still⟩
    exact fun w h => by simpa [occupy, handOut, View.release] using h
  | lose place =>
    refine ⟨owned, ledger, account.due_of_silent ?_ (by simp) (by simp),
      account.faithful.append (by simp), still⟩
    exact fun w h => List.mem_of_mem_eraseIdx h
  | answer arrival =>
    refine ⟨owned, ledger, account.due_of_silent ?_ (by simp) (by simp),
      account.faithful.append (by simp), still⟩
    exact fun w h => arrival.sublist.subset h
  | @post s target here admits =>
    refine ⟨owned, ledger, fun w h => ?_, account.faithful.append (by simp), still⟩
    by_cases same : s.origin = w.origin
    · -- what the peer sends now is both its last message and one that has not arrived
      rw [Story.undelivered?_append, Story.latest?_append_sent, if_pos same]
      simp [Event.undelivered, same]
    · -- the ring of another peer was under way before
      have old : w ∈ v.rings := by
        rcases List.mem_append.mp h with h | h
        · exact h
        · rw [List.mem_singleton.mp h, DoorbellWord.origin_new] at same
          exact absurd rfl same
      have silent : ∀ s', .sent s' ∈ [Event.sent s] → s'.origin ≠ w.origin := by
        intro s' h'
        cases List.mem_singleton.mp h'
        exact same
      rw [before.undelivered?_append_of_silent silent (by simp),
        before.latest?_append_of_not_sent silent]
      exact account.due w old
  | @install p b w i d arrival here busy plain fresh =>
    obtain rfl := (Inbox.fresh?_eq_some.mp fresh).2
    obtain ⟨dest, rings, -⟩ := (account.owned b).arrived calm arrival
    refine ⟨owned, ledger, fun ring h => ?_, account.faithful.arrival i ?_, still⟩
    · have old : ring ∈ w.rings := by simpa [View.install] using h
      have nothing : ∀ q c, .installed q c ∈ i.onArrival p ⟨b, (v.staged b).len, i.generation + 1⟩ →
          c.sender ≠ ring.origin := by
        intro q c h
        rw [(Inbox.installed_of_mem_onArrival h).2]
        exact (rings ring old).symm
      rw [before.undelivered?_append_of_silent (fun s h => absurd h Inbox.not_sent_of_onArrival)
        nothing, before.latest?_append_of_not_sent fun s h => absurd h Inbox.not_sent_of_onArrival]
      exact account.due ring (arrival.sublist.subset old)
    · -- the ring that arrives is the one of the message that is staged
      obtain ⟨s, latest, staged⟩ := account.ledger b busy
      obtain ⟨ring, there, origin⟩ := arrival.exists_ring calm
      have due := account.due ring there
      rw [origin] at due
      exact ⟨s, due.trans latest, latest, dest ▸ staged.resolved, staged.len⟩

end View

/-! ### The order of arrivals -/

/-- How many deliveries have been installed at a peer. -/
def Story.installs (story : Story) (p : PeerId) : Nat :=
  story.countP fun event => event.installed?.map Prod.fst = some p

namespace Story

variable {story after : Story} {p q : PeerId} {c d : Delivery} {j k : Nat}

/-- The deliveries of a story that goes on are those of both parts. -/
theorem installs_append (story after : Story) (p : PeerId) :
    (story ++ after).installs p = story.installs p + after.installs p :=
  List.countP_append

/-- A story in which nothing is installed at a peer. -/
theorem installs_eq_zero (nothing : ∀ d, .installed p d ∉ story) : story.installs p = 0 := by
  rw [installs, List.countP_eq_zero]
  intro event told there
  obtain ⟨⟨q, d⟩, installed, same⟩ := Option.map_eq_some_iff.mp (of_decide_eq_true there)
  obtain rfl : event = .installed q d := by
    cases event <;> cases installed
    rfl
  cases same
  exact nothing d told

/-- With an arrival one more delivery is installed, at the peer where it arrives. -/
theorem installs_onArrival (i : Inbox) (p q : PeerId) (d : Delivery) :
    (i.onArrival p d).installs q = if p = q then 1 else 0 := by
  have rest : installs (i.stomped.map fun c => Event.stomped p c i.inHand).toList q = 0 := by
    refine installs_eq_zero fun c there => ?_
    obtain ⟨_, -, same⟩ := Option.map_eq_some_iff.mp (Option.mem_toList.mp there)
    cases same
  rw [Inbox.onArrival, installs, List.countP_cons]
  rw [installs] at rest
  by_cases same : p = q <;> simp [Event.installed?, same]

/-- More deliveries are installed up to the later one of two. -/
theorem installs_take_lt (lt : j < k) (there : story[j]? = some (.installed p c)) :
    installs (story.take j) p < installs (story.take k) p := by
  obtain ⟨bound, here⟩ := List.getElem?_eq_some_iff.mp there
  have one : installs (story.take (j + 1)) p = installs (story.take j) p + 1 := by
    rw [List.take_succ_eq_append_getElem bound, here, installs_append]
    simp [installs, Event.installed?]
  have early : installs (story.take (j + 1)) p ≤ installs (story.take k) p := by
    have split : story.take (j + 1) = (story.take k).take (j + 1) := by
      rw [List.take_take, Nat.min_eq_left lt]
    rw [split]
    exact (List.take_sublist _ _).countP_le
  omega

/-- Up to a delivery fewer are installed than in all. -/
theorem installs_take_lt_installs (there : story[k]? = some (.installed p d)) :
    installs (story.take k) p < story.installs p := by
  obtain ⟨bound, -⟩ := List.getElem?_eq_some_iff.mp there
  simpa using installs_take_lt bound there

end Story

namespace View

variable {l : Layout} {r : Rules} {v u w : View} {before story : Story}

/-- The deliveries of every peer are numbered as they are installed, modulo the size of a word, and
    the inbox has the number of the last one. -/
structure Numbered (story : Story) (v : View) : Prop where
  unattached : ∀ p, .attached p ∉ story → v.inbox p = none ∧ story.installs p = 0
  last : ∀ p i, v.inbox p = some i → i.generation = UInt64.ofNat (story.installs p)
  numbered : story.Arrivals fun before p d =>
    d.generation = UInt64.ofNat (before.installs p + 1)

/-- Nothing arrives, and the inboxes are gone or count as before. -/
theorem Numbered.append (numbered : Numbered before v)
    (other : ∀ p d, .installed p d ∉ story)
    (inbox : ∀ p i, u.inbox p = some i →
      ∃ j, v.inbox p = some j ∧ j.generation = i.generation) :
    Numbered (before ++ story) u where
  unattached p never := by
    rw [List.mem_append, not_or] at never
    obtain ⟨absent, none⟩ := numbered.unattached p never.1
    refine ⟨?_, by rw [Story.installs_append, none, Story.installs_eq_zero (other p)]⟩
    rcases there : u.inbox p with _ | i
    · rfl
    · obtain ⟨j, here, -⟩ := inbox p i there
      rw [absent] at here
      cases here
  last p i there := by
    obtain ⟨j, here, same⟩ := inbox p i there
    rw [Story.installs_append, Story.installs_eq_zero (other p), ← same]
    exact numbered.last p j here
  numbered := numbered.numbered.append other

/-- An inbox that changes but counts as before. -/
theorem generation_of_setInbox {p q : PeerId} {i j : Inbox} {o : Option Delivery}
    (here : v.inbox q = some j) (same : i.generation = j.generation) :
    ∀ k, ((v.setInbox q (some i)).giveUp o).inbox p = some k →
      ∃ k', v.inbox p = some k' ∧ k'.generation = k.generation := by
  intro k there
  rw [inbox_giveUp] at there
  by_cases own : p = q
  · subst own
    rw [inbox_setInbox_self] at there
    cases there
    exact ⟨j, here, same.symm⟩
  · rw [inbox_setInbox_of_ne v own] at there
    exact ⟨k, there, rfl⟩

/-- A peer that has not attached before starts to count. -/
theorem Numbered.occupy {q : PeerId} (numbered : Numbered before v) (new : .attached q ∉ before)
    (capacity : Nat) : Numbered (before ++ [.attached q]) (v.occupy q capacity) where
  unattached p never := by
    rw [List.mem_append, List.mem_singleton, Event.attached.injEq, not_or] at never
    obtain ⟨absent, none⟩ := numbered.unattached p never.1
    refine ⟨by rwa [View.occupy, inbox_setInbox_of_ne _ never.2], ?_⟩
    rw [Story.installs_append, none, Story.installs_eq_zero (by simp)]
  last p i there := by
    have none : Story.installs [Event.attached q] p = 0 := Story.installs_eq_zero (by simp)
    rw [Story.installs_append, none]
    by_cases same : p = q
    · subst same
      rw [View.occupy, inbox_setInbox_self] at there
      cases there
      rw [(numbered.unattached p new).2]
      rfl
    · rw [View.occupy, inbox_setInbox_of_ne _ same] at there
      exact numbered.last p i there
  numbered := numbered.numbered.append (by simp)

/-- A delivery that is installed has the next number. -/
theorem Numbered.install {p b : PeerId} {i : Inbox} {d : Delivery} {len : UInt64}
    (numbered : Numbered before v) (inboxes : w.inbox = v.inbox) (here : v.inbox p = some i)
    (fresh : i.fresh? b len = some d) :
    Numbered (before ++ i.onArrival p d) (w.install p i d) := by
  -- the inbox counts on as the story does
  have next : d.generation = UInt64.ofNat (before.installs p + 1) := by
    rw [(Inbox.fresh?_eq_some.mp fresh).2, UInt64.ofNat_add, ← numbered.last p i here]
    rfl
  refine ⟨fun q never => ?_, fun q k there => ?_, numbered.numbered.arrival i next⟩
  · rw [List.mem_append, not_or] at never
    obtain ⟨absent, none⟩ := numbered.unattached q never.1
    have other : p ≠ q := by
      rintro rfl
      rw [absent] at here
      cases here
    refine ⟨?_, by rw [Story.installs_append, none, Story.installs_onArrival, if_neg other]⟩
    rwa [View.install, inbox_giveUp, inbox_setInbox_of_ne _ (Ne.symm other), inboxes]
  · rw [Story.installs_append, Story.installs_onArrival]
    by_cases same : p = q
    · subst same
      rw [View.install, inbox_giveUp, inbox_setInbox_self] at there
      cases there
      rw [if_pos rfl, ← next]
      rfl
    · rw [View.install, inbox_giveUp, inbox_setInbox_of_ne _ (Ne.symm same), inboxes] at there
      rw [if_neg same]
      exact numbered.last q k there

/-- Every step goes on with the numbers, if no peer attaches twice. -/
theorem Numbered.step (once : Story.Once (before ++ story)) (numbered : Numbered before v)
    (step : Step l r v story u) : Numbered (before ++ story) u := by
  -- Only an installation counts on, and only an attachment starts anew; a peer that attaches for
  -- the first time has had nothing installed.
  cases step with
  | occupy claim => exact numbered.occupy (once.not_mem (List.mem_singleton_self _)) _
  | forget q =>
    refine numbered.append (by simp) fun p i there => ?_
    by_cases same : p = q
    · rw [same, inbox_setInbox_self] at there
      cases there
    · rw [inbox_setInbox_of_ne v same] at there
      exact ⟨i, there, rfl⟩
  | post | lose => exact numbered.append (by simp) fun p i there => ⟨i, there, rfl⟩
  | answer arrival =>
    refine numbered.append (by simp) fun p i there => ⟨i, ?_, rfl⟩
    rwa [inbox_clear, arrival.inbox_eq] at there
  | take here pending =>
    exact numbered.append (by simp) fun p => generation_of_setInbox here rfl
  | release here given =>
    refine numbered.append (by simp) fun p => generation_of_setInbox here ?_
    unfold Inbox.release
    split <;> rfl
  | install arrival here busy plain fresh => exact numbered.install arrival.inbox_eq here fresh

end View

/-! ### Runs -/

namespace Network

variable {storage : Storage} {l : Layout} {b : Mailbox} {actions : List Action}

/-- After a run without stray rings in which no peer attaches twice, its story gives an account of
    the view. -/
theorem account_of_run (created : Mailbox.create storage l = .ok b)
    (orderly : ∀ action ∈ actions, action.Orderly) (once : ((ofMailbox b).story actions).Once) :
    ((ofMailbox b).run .queue actions).view.Account l ((ofMailbox b).story actions) := by
  obtain ⟨wf, path⟩ := path_of_once False created
    (fun action h => .inr (orderly action h)) once
  have untouched := untouched_of_create created
  have start : (ofMailbox b).view.Account l [] :=
    ⟨fun a => (untouched a).toQuiet.owned, fun a busy => absurd (untouched a).idle busy,
      by simp [ofMailbox], Story.arrivals_nil, by simp⟩
  exact path.invariant [] (I := fun story v => v.Account l story)
    (fun step account => account.step wf.valid id (fun _ _ => View.Untouched.toQuiet) step) start

/-- An account is steady. -/
theorem steady_of_account {story : Story} {v : View} (account : v.Account l story) (a : PeerId) :
    story.Steady l a where
  addressed := account.faithful.mono fun before p d => by
    rintro ⟨s, -, latest, resolved, -⟩ rfl
    rw [latest, Option.map_some, resolved]
  still event told := account.still event told a

/-- After such a run the deliveries of every peer are numbered as they were installed. -/
theorem numbered_of_run (created : Mailbox.create storage l = .ok b)
    (orderly : ∀ action ∈ actions, action.Orderly) (once : ((ofMailbox b).story actions).Once) :
    View.Numbered ((ofMailbox b).story actions) ((ofMailbox b).run .queue actions).view := by
  obtain ⟨-, path⟩ := path_of_once False created
    (fun action h => .inr (orderly action h)) once
  have absent := fun p => (untouched_of_create created p).absent
  have start : View.Numbered [] (ofMailbox b).view :=
    { unattached := fun p _ => ⟨absent p, rfl⟩
      last := fun p i there => absurd there (by rw [absent p]; exact nofun)
      numbered := Story.arrivals_nil }
  -- what is left out of a story without a second attachment has none either
  have invariant := path.invariant []
    (I := fun story v => story.Once → View.Numbered story v) ?_ (fun _ => start)
  · exact invariant once
  · intro before story v u step numbered once
    exact (numbered once.of_append).step once step

end Network

/-! ### What is read -/

/-- A buffer that is as long as the payload is overwritten by it. -/
theorem Slot.copyOver_of_payload {s : Slot} {m : Memory} {message buffer : List UInt8}
    (payload : s.payload m message.length = message) (room : message.length ≤ buffer.length) :
    s.copyOver m (buffer.take message.length) = message := by
  have full : message.length ≤ s.capacity := by
    have bounded := congrArg List.length payload
    rw [Slot.payload_eq_take, List.length_take] at bounded
    have area : (s.staged m).area.length = s.capacity := by simp [Slot.staged]
    omega
  rw [copyOver, List.length_take, Nat.min_eq_left room, payload,
    List.drop_eq_nil_of_le (by rw [List.length_take]; omega), List.append_nil]

/-- A delivery in hand shows a message: its length and its bytes, in place and copied. -/
structure Incoming.Shows (i : Incoming) (m : Memory) (message : List UInt8) : Prop where
  len : i.len = message.length
  payload : i.payload m = message
  copied : ∀ buffer : List UInt8, message.length ≤ buffer.length →
    i.copyOver m buffer = (.ok message.length, message ++ buffer.drop message.length)

/-- A delivery with the staged length shows what is staged. -/
theorem Incoming.shows_of_stagedAs {l : Layout} {slot : Slot} {m : Memory} {s : Sent}
    (staged : s.StagedAs l (slot.staged m)) {sender : PeerId} {len : UInt64}
    (same : len = (slot.staged m).len) : Shows ⟨sender, slot, len.toNat⟩ m s.message := by
  have full : len.toNat = s.message.length := same ▸ staged.len
  have payload := slot.payload_len_staged m
  rw [staged.len, staged.message] at payload
  refine ⟨full, ?_, fun buffer room => ?_⟩
  · rw [Incoming.payload, full, payload]
  · rw [Incoming.copyOver, full, if_neg (Nat.not_lt.mpr room),
      Slot.copyOver_of_payload payload room]

namespace Network

variable {storage : Storage} {l : Layout} {b : Mailbox} {actions : List Action}

/-- The deliveries of a run are what was sent. -/
structure Delivers (l : Layout) (net : Network) (actions : List Action) : Prop where
  /-- A delivery that a wait has returned shows the last message of its sender, which was addressed
      to the peer that waited, as long as the consumer does not let go of it. -/
  shown : ∀ before p patience after, actions = (before ++ [.await p patience]) ++ after →
    ∀ incoming,
      ((net.run .queue before).perform .queue (.await p patience)).1 = .received (.ok incoming) →
      (∀ event ∈ (net.run .queue (before ++ [.await p patience])).story after,
        ¬ event.LetsGo p incoming.sender) →
      ∃ s, (net.story actions).latest? incoming.sender = some s ∧
        s.dest.resolve l = .ok p.toUInt64 ∧
        incoming.Shows (net.run .queue actions).memory s.message
  /-- Every delivery is of a send, at the peer that it was addressed to. -/
  addressed : ∀ (k : Nat) p d, (net.story actions)[k]? = some (.installed p d) → ∃ j s,
    (net.story actions).Carries j k s p d ∧ s.dest.resolve l = .ok p.toUInt64 ∧
      d.len.toNat = s.message.length
  /-- No message is delivered twice. -/
  single : ∀ j k m s t p q c d, (net.story actions).Carries j k s p d →
    (net.story actions).Carries j m t q c → k = m
  /-- The messages of a sender arrive at a peer in the order in which they were sent. -/
  ordered : ∀ j j' k k' s s' p d d', (net.story actions).Carries j k s p d →
    (net.story actions).Carries j' k' s' p d' → d.sender = d'.sender → j < j' → k < k'
  /-- Every delivery has the number of those that were installed at its peer up to it, modulo the
      size of a word. -/
  numbered : ∀ (k : Nat) p d, (net.story actions)[k]? = some (.installed p d) →
    d.generation = UInt64.ofNat (Story.installs ((net.story actions).take k) p + 1)
  /-- So the numbers of a peer rise as long as they do not wrap around. -/
  rising : ∀ p, (net.story actions).installs p < UInt64.size → ∀ (j k : Nat) c d, j < k →
    (net.story actions)[j]? = some (.installed p c) →
    (net.story actions)[k]? = some (.installed p d) → c.generation < d.generation

/-- **Delivery.** In every run from a new mailbox in which no peer attaches twice, no vector table
    has repeats and no ring is raised that nobody sent, what is delivered is what was sent. -/
theorem delivers_of_run (created : Mailbox.create storage l = .ok b)
    (orderly : ∀ action ∈ actions, action.Orderly) (once : ((ofMailbox b).story actions).Once) :
    Delivers l (ofMailbox b) actions := by
  have account := account_of_run created orderly once
  have numbers := Story.arrivals_iff.mp (numbered_of_run created orderly once).numbered
  refine ⟨?_, fun _ _ _ => account.faithful.exists_carries,
    fun _ _ _ _ _ _ _ _ _ => account.faithful.eq_of_carries, ?_, numbers, ?_⟩
  · rintro before p patience after rfl incoming received holds
    obtain ⟨d, left, rfl, held⟩ :=
      held_of_await created once received holds (steady_of_account account _)
    obtain ⟨s, latest, staged⟩ := account.ledger d.sender (held.staged ▸ held.current.busy)
    obtain ⟨wf, -⟩ := path_of_once False created
      (fun action h => .inr (orderly action h)) once
    -- the slot still holds what it held when the delivery was taken in hand
    have there : (l.slotAt d.sender).staged
        ((ofMailbox b).run .queue ((before ++ [.await p patience]) ++ after)).memory = left := by
      rw [← held.staged, staged_view, Network.staged, wf.layout]
    rw [held.staged] at staged
    refine ⟨s, latest, held.current.dest ▸ staged.resolved, ?_⟩
    exact Incoming.shows_of_stagedAs (there ▸ staged) (by rw [held.current.len, there])
  · intro j j' k k' s s' p d d' h h' same lt
    -- the later send lies after the earlier delivery, of which the earlier send is the last
    by_contra late
    exact h.last j' s' lt (Nat.lt_of_lt_of_le h'.before (Nat.le_of_not_lt late)) h'.sent
      (h'.carried.origin.trans same.symm)
  · intro p few j k c d lt first second
    have more := Story.installs_take_lt lt first
    have last := Story.installs_take_lt_installs second
    rw [UInt64.lt_iff_toNat_lt, numbers j p c first, numbers k p d second,
      UInt64.toNat_ofNat_of_lt' (by omega), UInt64.toNat_ofNat_of_lt' (by omega)]
    omega

/-- Peer 2 reads a message of peer 1, which sends another one, and then that of peer 3. -/
theorem delivers_of_run_small : Delivers smallLayout (ofMailbox smallMailbox)
    [join 1, join 2, join 3, hail 1 2, .deliver 0, .await 2 .none, hail 3 2, .deliver 0, .release 2,
      hail 1 2, .await 2 .none] :=
  delivers_of_run (b := smallMailbox) (l := smallLayout) create_small
    (by decide) (by decide +kernel)

end Network

end SharedMailbox
