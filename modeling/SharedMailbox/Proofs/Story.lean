import Mathlib.Data.Nat.Find
import SharedMailbox.Proofs.Receiving

namespace SharedMailbox

/-!
# Stories

The story of a run: what happened to messages and deliveries, in order.

* `Event`, `Network.events`, `Network.story`: what happened in one action, and in a run.
* `Story.latest?`, `Story.undelivered?`: the last message that a peer has sent, and that only as
  long as it has not arrived.
* `Story.LastSent`, `Story.Carries`: where it was sent; which send a delivery is of.
* `Story.Arrivals`: what held whenever a delivery was installed.
* `Story.Once`, `Action.Orderly`: no peer attaches twice; no action brings in a stray ring or a
  table with repeats.
-/

/-! ### Events -/

/-- What can happen to messages and deliveries. -/
inductive Event where
  /-- A peer claims its slot. -/
  | attached (peer : PeerId)
  /-- A message is staged and announced. -/
  | sent (s : Sent)
  /-- A message becomes the pending delivery of a peer. -/
  | installed (peer : PeerId) (d : Delivery)
  /-- A pending delivery is displaced and given up while the consumer has `held` in hand. -/
  | stomped (peer : PeerId) (d : Delivery) (held : Option Delivery)
  /-- A delivery is taken in hand, and one of another sender is given up for it. -/
  | taken (peer : PeerId) (d : Delivery) (superseded : Option Delivery)
  /-- The consumer gives up a delivery. -/
  | released (peer : PeerId) (d : Delivery)
  deriving DecidableEq

namespace Event

/-- Who attached. -/
def attached? : Event → Option PeerId
  | attached p => some p
  | _ => none

/-- What was sent. -/
def sent? : Event → Option Sent
  | sent s => some s
  | _ => none

/-- What was installed, and where. -/
def installed? : Event → Option (PeerId × Delivery)
  | installed p d => some (p, d)
  | _ => none

/-- The last message of a peer that has not arrived, after one more event. -/
def undelivered (a : PeerId) (due : Option Sent) : Event → Option Sent
  | sent s => if s.origin = a then some s else due
  | installed _ d => if d.sender = a then none else due
  | _ => due

/-- The consumer of a peer lets go of what it has in hand of a sender: it is done, or takes a
    delivery of another sender. -/
def LetsGo (p a : PeerId) : Event → Prop
  | released q _ => q = p
  | taken q d _ => q = p ∧ d.sender ≠ a
  | _ => False

instance (p a : PeerId) : (event : Event) → Decidable (event.LetsGo p a)
  | .released _ _ => inferInstanceAs (Decidable (_ = _))
  | .taken .. => inferInstanceAs (Decidable (_ ∧ _))
  | .attached _ | .sent _ | .installed .. | .stomped .. => inferInstanceAs (Decidable False)

/-- Which delivery a peer gave up. -/
def givenUp? : Event → Option (PeerId × Delivery)
  | stomped p d _ => some (p, d)
  | taken p _ (some d) => some (p, d)
  | released p d => some (p, d)
  | _ => none

end Event

/-- What happened, oldest first. -/
abbrev Story := List Event

namespace Story

/-- The last message that a peer has sent. -/
def latest? (story : Story) (a : PeerId) : Option Sent :=
  ((story.filterMap Event.sent?).filter fun s => s.origin = a).getLast?

/-- The last message that a peer has sent, unless a message of the peer has arrived since. -/
def undelivered? (story : Story) (a : PeerId) : Option Sent :=
  story.foldl (Event.undelivered a) none

/-- No peer attaches twice. -/
def Once (story : Story) : Prop := (story.filterMap Event.attached?).Nodup

instance (story : Story) : Decidable story.Once :=
  inferInstanceAs (Decidable (story.filterMap Event.attached?).Nodup)

/-- Who has just sent a message has sent it last. -/
theorem latest?_append_sent (story : Story) (s : Sent) (a : PeerId) :
    latest? (story ++ [.sent s]) a = if s.origin = a then some s else latest? story a := by
  by_cases h : s.origin = a <;> simp [latest?, Event.sent?, List.filterMap_append, h]

/-- What happened after the last send of a peer does not change which it was. -/
theorem latest?_append_of_not_sent (story : Story) {after : Story} {a : PeerId}
    (h : ∀ s, .sent s ∈ after → s.origin ≠ a) : latest? (story ++ after) a = latest? story a := by
  have none : (after.filterMap Event.sent?).filter (fun s => s.origin = a) = [] := by
    rw [List.filter_eq_nil_iff]
    intro s hs
    obtain ⟨e, he, sent⟩ := List.mem_filterMap.mp hs
    cases e <;> cases sent
    simpa using h s he
  simp [latest?, List.filterMap_append, none]

/-- Among the events with a property there is a last one. -/
theorem exists_last {story : Story} {P : Event → Prop} (h : ∃ event ∈ story, P event) :
    ∃ k event, story[k]? = some event ∧ P event ∧
      ∀ (i : Nat) later, k < i → story[i]? = some later → ¬ P later := by
  classical
  obtain ⟨event, told, holds⟩ := h
  obtain ⟨i, bound, rfl⟩ := List.mem_iff_getElem.mp told
  obtain ⟨last, there, holds⟩ := Nat.findGreatest_spec
    (P := fun k => ∃ event, story[k]? = some event ∧ P event) (Nat.le_of_lt bound)
    ⟨_, List.getElem?_eq_getElem bound, holds⟩
  refine ⟨_, last, there, holds, fun j later after told satisfies => ?_⟩
  have within : j ≤ story.length := Nat.le_of_lt (List.getElem?_eq_some_iff.mp told).1
  exact Nat.findGreatest_is_greatest after within ⟨later, told, satisfies⟩

/-- The last send of a peer is the one at `j` of a story. -/
structure LastSent (story : Story) (a : PeerId) (j : Nat) (s : Sent) : Prop where
  sent : story[j]? = some (.sent s)
  origin : s.origin = a
  last : ∀ (i : Nat) t, j < i → story[i]? = some (Event.sent t) → t.origin ≠ a

/-- Who has sent a message has a last one. -/
theorem exists_lastSent {story : Story} {s : Sent} (h : .sent s ∈ story) :
    ∃ j t, story.LastSent s.origin j t := by
  obtain ⟨j, event, there, ⟨t, rfl, origin⟩, last⟩ :=
    exists_last (P := fun event => ∃ t, event = .sent t ∧ t.origin = s.origin) ⟨_, h, s, rfl, rfl⟩
  exact ⟨j, t, there, origin, fun i t' after told same => last i _ after told ⟨t', rfl, same⟩⟩

/-- The last send of a peer is its latest message. -/
theorem LastSent.latest? {story : Story} {a : PeerId} {j : Nat} {s : Sent}
    (h : story.LastSent a j s) : story.latest? a = some s := by
  obtain ⟨bound, there⟩ := List.getElem?_eq_some_iff.mp h.sent
  -- the story up to the send, and what happened after it, in which the peer is silent
  have split : story = (story.take j ++ [.sent s]) ++ story.drop (j + 1) := by
    conv_lhs => rw [← List.take_append_drop j story, List.drop_eq_getElem_cons bound, there]
    simp
  have silent : ∀ t, .sent t ∈ story.drop (j + 1) → t.origin ≠ a := by
    intro t told
    obtain ⟨i, told⟩ := List.mem_iff_getElem?.mp told
    rw [List.getElem?_drop] at told
    exact h.last _ t (by omega) told
  rw [split, latest?_append_of_not_sent _ silent, latest?_append_sent, if_pos h.origin]

/-- The latest message of a peer is that of its last send. -/
theorem exists_of_latest? {story : Story} {a : PeerId} {s : Sent} (h : story.latest? a = some s) :
    ∃ j, story.LastSent a j s := by
  have told := List.mem_of_getLast? h
  rw [List.mem_filter] at told
  obtain ⟨event, there, sent⟩ := List.mem_filterMap.mp told.1
  obtain rfl : event = .sent s := by
    cases event <;> cases sent
    rfl
  obtain rfl : s.origin = a := by simpa using told.2
  obtain ⟨j, t, last⟩ := exists_lastSent there
  obtain rfl := Option.some.inj (h.symm.trans last.latest?)
  exact ⟨j, last⟩

/-- The delivery at `k` of a story is of the send at `j`, which was the last one of its sender. -/
structure Carries (story : Story) (j k : Nat) (s : Sent) (p : PeerId) (d : Delivery) : Prop where
  installed : story[k]? = some (.installed p d)
  carried : LastSent (story.take k) d.sender j s

namespace Carries

variable {story : Story} {j k : Nat} {s : Sent} {p : PeerId} {d : Delivery}

/-- A message was sent before it arrives. -/
theorem before (h : story.Carries j k s p d) : j < k := by
  obtain ⟨bound, -⟩ := List.getElem?_eq_some_iff.mp h.carried.sent
  exact Nat.lt_of_lt_of_le bound (List.length_take_le k story)

/-- The send is part of the whole story. -/
theorem sent (h : story.Carries j k s p d) : story[j]? = some (.sent s) := by
  have sent := h.carried.sent
  rwa [List.getElem?_take_of_lt h.before] at sent

/-- The sender sends nothing more before the message arrives. -/
theorem last (h : story.Carries j k s p d) (i : Nat) (t : Sent) (after : j < i) (early : i < k)
    (told : story[i]? = some (.sent t)) : t.origin ≠ d.sender := by
  refine h.carried.last i t after ?_
  rw [List.getElem?_take_of_lt early, told]

end Carries

/-- What is undelivered at the end of a story is what its last part leaves. -/
theorem undelivered?_append (story after : Story) (a : PeerId) :
    undelivered? (story ++ after) a = after.foldl (Event.undelivered a) (undelivered? story a) :=
  List.foldl_append

/-- A peer that sends nothing has no more undelivered messages than before. -/
theorem foldl_undelivered_eq_none {after : Story} {a : PeerId}
    (silent : ∀ s, .sent s ∈ after → s.origin ≠ a) :
    after.foldl (Event.undelivered a) none = none := by
  induction after with
  | nil => rfl
  | cons event rest ih =>
    have stays : Event.undelivered a none event = none := by
      cases event with
      | sent s => simp [Event.undelivered, silent s]
      | installed p d => simp [Event.undelivered]
      | _ => rfl
    rw [List.foldl_cons, stays]
    exact ih fun s h => silent s (List.mem_cons_of_mem _ h)

/-- Nor is one delivered while nothing of the peer arrives. -/
theorem undelivered?_append_of_silent (story : Story) {after : Story} {a : PeerId}
    (silent : ∀ s, .sent s ∈ after → s.origin ≠ a)
    (nothing : ∀ p d, .installed p d ∈ after → d.sender ≠ a) :
    undelivered? (story ++ after) a = undelivered? story a := by
  rw [undelivered?_append]
  generalize undelivered? story a = due
  -- none of the events changes what is due, and neither do all of them in a row
  induction after with
  | nil => rfl
  | cons event rest ih =>
    have stays : Event.undelivered a due event = due := by
      cases event with
      | sent s => simp [Event.undelivered, silent s]
      | installed p d => simp [Event.undelivered, nothing p d]
      | _ => rfl
    rw [List.foldl_cons, stays]
    exact ih (fun s h => silent s (List.mem_cons_of_mem _ h))
      fun p d h => nothing p d (List.mem_cons_of_mem _ h)

/-- Nobody attaches twice in the beginning of a story in which nobody does. -/
theorem Once.of_append {story after : Story} (h : Once (story ++ after)) : Once story := by
  rw [Once, List.filterMap_append] at h
  exact (List.nodup_append.mp h).1

/-- Who attaches now has not attached before. -/
theorem Once.not_mem {story after : Story} (h : Once (story ++ after)) {p : PeerId}
    (now : .attached p ∈ after) : .attached p ∉ story := by
  intro before
  rw [Once, List.filterMap_append] at h
  exact (List.nodup_append.mp h).2.2 p (List.mem_filterMap.mpr ⟨_, before, rfl⟩) p
    (List.mem_filterMap.mpr ⟨_, now, rfl⟩) rfl

end Story

/-! ### What a send comes to -/

/-- What a send with a result comes to. -/
def Sent.events (s : Sent) : Except MessageError Nat → Story
  | .ok _ => [.sent s]
  | .error _ => []

/-! ### What an inbox goes through -/

namespace Inbox

/-- A delivery arrives. -/
def onArrival (i : Inbox) (p : PeerId) (d : Delivery) : Story :=
  .installed p d :: (i.stomped.map fun q => .stomped p q i.inHand).toList

/-- The consumer takes the pending delivery in hand. -/
def onTaking (i : Inbox) (p : PeerId) : Story :=
  (i.pending.map fun d => .taken p d (i.handOut d).2).toList

/-- The consumer is done. -/
def onRelease (i : Inbox) (p : PeerId) : Story := (i.release.2.map (.released p)).toList

/-- The consumer reads the pending delivery as a frame, and is done unless its buffer is too
    short. -/
def onReading (i : Inbox) (p : PeerId) (result : Except MessageError Nat) : Story :=
  match i.pending, result with
  | some d, .ok _ => i.onTaking p ++ (i.handOut d).1.onRelease p
  | _, _ => i.onTaking p

end Inbox

/-- The only delivery that an arrival installs is its own. -/
theorem Inbox.installed_of_mem_onArrival {i : Inbox} {p q : PeerId} {c d : Delivery}
    (h : .installed q c ∈ i.onArrival p d) : q = p ∧ c = d := by
  rcases List.mem_cons.mp h with same | h
  · cases same
    exact ⟨rfl, rfl⟩
  · obtain ⟨_, -, same⟩ := Option.map_eq_some_iff.mp (Option.mem_toList.mp h)
    cases same

/-- An arrival sends nothing. -/
theorem Inbox.not_sent_of_onArrival {i : Inbox} {p : PeerId} {d : Delivery} {s : Sent} :
    .sent s ∉ i.onArrival p d := by
  simp [onArrival]

/-! ### Arrivals -/

namespace Story

variable {Q : Story → PeerId → Delivery → Prop} {story after : Story} {p : PeerId} {d : Delivery}
  {k : Nat}

/-- Where a delivery was installed in a story that goes on with something else. -/
theorem installed_of_append (other : .installed p d ∉ after)
    (h : (story ++ after)[k]? = some (.installed p d)) :
    story[k]? = some (.installed p d) ∧ k < story.length := by
  by_cases early : k < story.length
  · rw [List.getElem?_append_left early] at h
    exact ⟨h, early⟩
  · rw [List.getElem?_append_right (Nat.le_of_not_lt early)] at h
    exact absurd (List.mem_of_getElem? h) other

/-- Where a delivery was installed in a story that goes on with an arrival. -/
theorem installed_of_arrival {i : Inbox} {q : PeerId} {c : Delivery}
    (h : (story ++ i.onArrival p d)[k]? = some (.installed q c)) :
    (story[k]? = some (.installed q c) ∧ k < story.length) ∨
      (k = story.length ∧ q = p ∧ c = d) := by
  rw [Inbox.onArrival, List.append_cons] at h
  have other : Event.installed q c ∉
      (i.stomped.map fun q => Event.stomped p q i.inHand).toList := by
    intro h
    obtain ⟨_, -, same⟩ := Option.map_eq_some_iff.mp (Option.mem_toList.mp h)
    cases same
  -- it stands in the story before, or it is the arrival itself; what is stomped comes behind both
  obtain ⟨h, bound⟩ := installed_of_append other h
  by_cases early : k < story.length
  · rw [List.getElem?_append_left early] at h
    exact .inl ⟨h, early⟩
  · rw [List.length_append, List.length_singleton] at bound
    obtain rfl : k = story.length := by omega
    rw [List.getElem?_append_right (Nat.le_refl _), Nat.sub_self] at h
    cases h
    exact .inr ⟨rfl, rfl, rfl⟩

/-- Whenever a delivery was installed, this held of the story up to then. -/
def Arrivals (Q : Story → PeerId → Delivery → Prop) (story : Story) : Prop :=
  ∀ k (h : k < story.length), ∀ x ∈ (story[k]).installed?, Q (story.take k) x.1 x.2

instance [∀ story p d, Decidable (Q story p d)] : Decidable (story.Arrivals Q) :=
  inferInstanceAs (Decidable (∀ k (h : k < story.length), ∀ x ∈ (story[k]).installed?, _))

/-- The same by the places of a story. -/
theorem arrivals_iff : story.Arrivals Q ↔
    ∀ (k : Nat) p d, story[k]? = some (Event.installed p d) → Q (story.take k) p d := by
  refine ⟨fun h k p d there => ?_, fun h k bound x there => ?_⟩
  · obtain ⟨bound, there⟩ := List.getElem?_eq_some_iff.mp there
    exact h k bound (p, d) (by rw [there]; rfl)
  · rcases event : story[k] with _ | _ | ⟨p, d⟩ | _ | _ | _ <;> rw [event] at there <;> cases there
    exact h k p d (List.getElem?_eq_some_iff.mpr ⟨bound, event⟩)

/-- At the start nothing has arrived. -/
theorem arrivals_nil : Arrivals Q [] := by simp [arrivals_iff]

/-- What holds of all arrivals may be weakened. -/
theorem Arrivals.mono {Q' : Story → PeerId → Delivery → Prop} (h : story.Arrivals Q)
    (weaker : ∀ before p d, Q before p d → Q' before p d) : story.Arrivals Q' :=
  fun k bound x there => weaker _ _ _ (h k bound x there)

/-- What holds of all arrivals holds of those in the beginning. -/
theorem Arrivals.of_append (h : Arrivals Q (story ++ after)) : story.Arrivals Q := by
  rw [arrivals_iff] at h ⊢
  intro k p d there
  obtain ⟨bound, -⟩ := List.getElem?_eq_some_iff.mp there
  have early := h k p d (by rw [List.getElem?_append_left bound, there])
  rwa [List.take_append_of_le_length (Nat.le_of_lt bound)] at early

/-- What holds of all arrivals holds of the one at this place. -/
theorem Arrivals.next (h : Arrivals Q (story ++ .installed p d :: after)) : Q story p d := by
  have now := arrivals_iff.mp h story.length p d (by simp)
  rwa [List.take_left] at now

/-- A story that goes on with something else than an arrival. -/
theorem Arrivals.append (h : story.Arrivals Q) (other : ∀ p d, .installed p d ∉ after) :
    Arrivals Q (story ++ after) := by
  rw [arrivals_iff] at h ⊢
  intro k p d there
  obtain ⟨there, early⟩ := installed_of_append (other p d) there
  rw [List.take_append_of_le_length (Nat.le_of_lt early)]
  exact h k p d there

/-- A story that goes on with an arrival. -/
theorem Arrivals.arrival (h : story.Arrivals Q) (i : Inbox) (now : Q story p d) :
    Arrivals Q (story ++ i.onArrival p d) := by
  rw [arrivals_iff] at h ⊢
  intro k q c there
  rcases installed_of_arrival there with ⟨there, early⟩ | ⟨rfl, rfl, rfl⟩
  · rw [List.take_append_of_le_length (Nat.le_of_lt early)]
    exact h k q c there
  · rwa [List.take_left]

end Story

/-! ### Stories of runs -/

/-- What an interrupt brings about. -/
def Receipt.events (i : Inbox) (p : PeerId) : Receipt → Story
  | .answered a answer result => Sent.events ⟨p, .peer a, answer⟩ result
  | .left _ (some d) => i.onArrival p d
  | _ => []

/-- What an interrupt brings about, if it was for the endpoint. -/
def Handling.events (i : Inbox) (p : PeerId) : Handling → Story
  | .foreign => []
  | .handled receipt => receipt.events i p

/-- What a ring brings about at its destination. -/
def RingResult.events (i : Inbox) (p : PeerId) : RingResult → Story
  | .reached handling => handling.events i p
  | _ => []

/-- No action brings in a ring that nobody sent, or a vector table with repeats. -/
def Action.Orderly : Action → Prop
  | .attach _ vectors _ _ => vectors.NoRepeats
  | .raise _ => False
  | .interrupt _ _ => False
  | _ => True

instance : (a : Action) → Decidable a.Orderly
  | .attach _ vectors _ _ => inferInstanceAs (Decidable vectors.NoRepeats)
  | .raise _ => inferInstanceAs (Decidable False)
  | .interrupt _ _ => inferInstanceAs (Decidable False)
  | .detach _ | .forget _ | .send .. | .requestDump _ | .write .. | .deliver _ | .await ..
  | .release _ | .read .. | .setClass .. => inferInstanceAs (Decidable True)

namespace Network

/-- What happens to the inbox of a peer, if it has one. -/
def onInbox (net : Network) (p : PeerId) (f : Inbox → Story) : Story :=
  match net.inbox? p with
  | some i => f i
  | none => []

/-- What happens in an action with an outcome. -/
def tell (net : Network) (action : Action) (outcome : Outcome) : Story :=
  match action, outcome with
  | .attach p _ _ _, .attached none => [.attached p]
  | .send p _ dest message, .sent result => Sent.events ⟨p, dest, message⟩ result
  | .requestDump p, .sent result =>
    Sent.events ⟨p, .coordinator net.layout, Link.switchDump⟩ result
  | .write p request, .sent result =>
    match Request.parse net.layout request with
    | .ok (dest, body) => Sent.events ⟨p, dest, body⟩ result
    | .error _ => []
  | .deliver _, .delivered w result => net.onInbox w.dest (result.events · w.dest)
  | .raise w, .raised result => net.onInbox w.dest (result.events · w.dest)
  | .interrupt p _, .interrupted handling => net.onInbox p (handling.events · p)
  | .await p _, .received _ => net.onInbox p (·.onTaking p)
  | .release p, .answered _ => net.onInbox p (·.onRelease p)
  | .read p _, .framed result _ => net.onInbox p (·.onReading p result)
  | _, _ => []

/-- What happens in an action. -/
def events (net : Network) (action : Action) : Story :=
  net.tell action (net.perform .queue action).1

/-- What happens in a run. -/
def story (net : Network) : List Action → Story
  | [] => []
  | action :: rest => net.events action ++ (net.perform .queue action).2.story rest

variable {net : Network} {p : PeerId}

/-- Of an inbox about which nothing is told, nothing is told. -/
theorem onInbox_nil (net : Network) (p : PeerId) : net.onInbox p (fun _ => []) = [] := by
  unfold onInbox
  split <;> rfl

/-- What is told of an inbox that is there is told of it. -/
theorem onInbox_eq {i : Inbox} (h : net.inbox? p = some i) (f : Inbox → Story) :
    net.onInbox p f = f i := by
  simp [onInbox, h]

/-- Without actions a network stays. -/
@[simp] theorem run_nil (ring : Bell) (net : Network) : net.run ring [] = net := rfl

/-- A run does its first action and then the others. -/
@[simp] theorem run_cons (ring : Bell) (net : Network) (action : Action) (rest : List Action) :
    net.run ring (action :: rest) = (net.perform ring action).2.run ring rest := rfl

/-- A run in two parts is the second from where the first leads. -/
theorem run_append (ring : Bell) (net : Network) (first second : List Action) :
    net.run ring (first ++ second) = (net.run ring first).run ring second := by
  simp [run]

/-- The story of a run in two parts is that of the first, and then that of the second. -/
theorem story_append (net : Network) (first second : List Action) :
    net.story (first ++ second) = net.story first ++ (net.run .queue first).story second := by
  induction first generalizing net with
  | nil => rfl
  | cons action rest ih => simp [story, ih]

end Network

end SharedMailbox
