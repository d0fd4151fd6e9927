import SharedMailbox.Proofs.Reading
import SharedMailbox.Proofs.Requests

namespace SharedMailbox

/-!
# Interrupts at different peers commute

The ring of a message that is left for the consumer touches little: the record of its destination,
the slot of its origin, and the slot of whoever has a delivery pending there, which may be stomped.
Rings for different peers touch different slots, since one endpoint at most refers to a sender, and
none to one whose ring is still under way. So they may arrive in either order.

* `Memory.Local`: a write that keeps to some bytes, and is told by them; `Memory.Local.comm`: writes
  that keep to different bytes commute.
* `Network.Reaches`: the peers whose slots a ring may touch; `Network.ComesTo`: what it comes to;
  `Network.WellFormed.exists_comesTo`: it comes to something that only its destination and what its
  origin has staged decide.
* `Network.Reaches.apart`: rings for different peers reach different slots.
* `Network.Commutes`, `Network.commutes_of_run`: the order does not matter after any orderly run.
-/

/-! ### Writes that keep to some bytes -/

namespace Memory

variable {S T : Nat → Prop} {f g : Memory → Memory}

/-- A write changes bytes of a set only, and what it makes of them depends on these alone. -/
structure Local (S : Nat → Prop) (f : Memory → Memory) : Prop where
  outside : ∀ m c, ¬ S c → (f m).byte c = m.byte c
  inside : ∀ m n, (∀ c, S c → m.byte c = n.byte c) → ∀ c, S c → (f m).byte c = (f n).byte c

/-- To write nothing is local anywhere. -/
theorem Local.id (S : Nat → Prop) : Local S fun m => m where
  outside _ _ _ := rfl
  inside _ _ same := same

/-- One local write after another is local. -/
theorem Local.comp (hg : Local S g) (hf : Local S f) : Local S fun m => g (f m) where
  outside m c away := (hg.outside _ c away).trans (hf.outside m c away)
  inside m n same := hg.inside _ _ (hf.inside m n same)

/-- What is local in some places is local in more of them. -/
theorem Local.mono (hf : Local S f) (sub : ∀ c, S c → T c) : Local T f where
  outside m c away := hf.outside m c fun there => away (sub c there)
  inside m n same c there := by
    by_cases own : S c
    · exact hf.inside m n (fun d h => same d (sub d h)) c own
    · rw [hf.outside m c own, hf.outside n c own, same c there]

/-- What the write makes of its bytes is the same after another write that misses them. -/
theorem Local.byte_eq (hf : Local S f) (hg : Local T g) (apart : ∀ c, S c → ¬ T c) (m : Memory)
    {c : Nat} (there : S c) : (f (g m)).byte c = (f m).byte c :=
  hf.inside _ _ (fun d h => hg.outside m d (apart d h)) c there

/-- Writes that keep to different bytes commute. -/
theorem Local.comm (hf : Local S f) (hg : Local T g) (apart : ∀ c, S c → ¬ T c) (m : Memory) :
    f (g m) = g (f m) := by
  have apart' : ∀ c, T c → ¬ S c := fun c there own => apart c own there
  ext c
  by_cases inF : S c
  · rw [hf.byte_eq hg apart m inF, hg.outside _ c (apart c inF)]
  by_cases inG : T c
  · rw [hg.byte_eq hf apart' m inG, hf.outside _ c inF]
  · rw [hf.outside _ c inF, hg.outside _ c inG, hg.outside _ c inG, hf.outside _ c inF]

/-- Storing a word is local in its eight bytes. -/
theorem local_storeWord (a : Nat) (w : UInt64) :
    Local (fun c => a ≤ c ∧ c < a + 8) fun m => m.storeWord a w where
  outside m c away := sameOutside_storeWord m a w c (by omega)
  inside m n same c there := by
    rw [storeWord, storeWord, byte_store, byte_store, same c there]

end Memory

namespace Slot

/-- A byte of a slot. -/
def Covers (s : Slot) (c : Nat) : Prop := s.base ≤ c ∧ c < s.limit

variable (s : Slot)

/-- A stamp is local in its slot. -/
theorem local_stamp (cid sid : UInt64) : Memory.Local s.Covers (s.stamp cid sid) := by
  have header := s.header_le_limit
  have subnet := (Memory.local_storeWord (s.base + 88) sid).mono (T := s.Covers)
    fun c there => ⟨by omega, by omega⟩
  have component := (Memory.local_storeWord (s.base + 96) cid).mono (T := s.Covers)
    fun c there => ⟨by omega, by omega⟩
  exact component.comp subnet

/-- Giving up a length is local in its slot. -/
theorem local_clear (seen : UInt64) : Memory.Local s.Covers (s.clear seen) where
  outside m c away := by
    have header := s.header_le_limit
    refine s.sameOutside_clear m seen c ?_
    by_contra there
    exact away ⟨by omega, by omega⟩
  inside m n same := by
    have header := s.header_le_limit
    -- whether it is cleared is told by a word of the slot
    have length : s.busy m = s.busy n :=
      congrArg (fun bytes => BusyCell.mk (Word.decode bytes))
        (Memory.bytes_congr fun c low high => same c ⟨by omega, by omega⟩)
    unfold clear
    rw [length]
    split
    next cell _ =>
      exact ((Memory.local_storeWord (s.base + 64) cell.len).mono (T := s.Covers)
        fun c there => ⟨by omega, by omega⟩).inside m n same
    next => exact same

end Slot

/-- A byte belongs to one slot at most. -/
theorem Layout.eq_of_covers {l : Layout} (valid : l.Valid) {a b : PeerId} {c : Nat}
    (there : (l.slotAt a).Covers c) (also : (l.slotAt b).Covers c) : a = b := by
  by_contra other
  have apart := Layout.slotAt_apart valid other
  unfold Slot.Covers at there also
  omega

namespace Network

variable {net : Network} {l : Layout} {stray : Prop} {p a : PeerId} {e : Endpoint}
  {v w : DoorbellWord}

/-! ### What a ring comes to -/

/-- Changes to the records of different endpoints commute. -/
theorem update_comm {q : PeerId} (ne : p ≠ q) (f g : Endpoint → Endpoint) :
    (net.update p f).update q g = (net.update q g).update p f := by
  have same : (net.endpoints.modify p f).modify q g = (net.endpoints.modify q g).modify p f := by
    apply Std.ExtTreeMap.ext_getElem?
    intro r
    simp only [Std.ExtTreeMap.getElem?_modify, Std.LawfulEqCmp.compare_eq_iff_eq]
    by_cases first : p = r
    · subst first
      simp [Ne.symm ne]
    · simp [first, ne]
  unfold update
  rw [same]

/-- The slot of a peer may be touched by a ring: the peer is its origin, or the destination refers
    to a message of the peer. -/
def Reaches (net : Network) (w : DoorbellWord) (a : PeerId) : Prop :=
  a = w.origin ∨ ∃ d, net.Refers w.dest d ∧ d.sender = a

/-- What a ring comes to in every network where the endpoint at its destination, and what its origin
    has staged, are as in this one. -/
structure ComesTo (l : Layout) (net : Network) (w : DoorbellWord) (result : RingResult)
    (write : Memory → Memory) (record : Endpoint → Endpoint) : Prop where
  within : Memory.Local (fun c => ∃ a, net.Reaches w a ∧ (l.slotAt a).Covers c) write
  raise : ∀ other : Network, other.endpoint? w.dest = net.endpoint? w.dest →
    (l.slotAt w.origin).staged other.memory = (l.slotAt w.origin).staged net.memory →
    other.raise .queue [] w = (result, (other.remember write).update w.dest record)

/-- What leaving a message for the consumer comes to: a delivery that is stomped is given up. -/
theorem exists_install (valid : l.Valid) (fits : e.Fits l stray p) (a : PeerId) (len : UInt64) :
    ∃ write record,
      Memory.Local (fun c => ∃ d, e.inbox.Refers d ∧ (l.slotAt d.sender).Covers c) write ∧
      ∀ other : Network, other.install e a len = (other.remember write).update p record := by
  obtain rfl := fits.peer
  unfold install
  -- What the inbox was decides what is done, so that it is the same in any other network.
  rcases fresh : e.inbox.fresh? a len with _ | d
  · rw [Inbox.install_of_stale fresh]
    exact ⟨_, _, .id _, fun other => rfl⟩
  · rw [Inbox.install_of_fresh? fresh]
    rcases pending : e.inbox.pending with _ | q
    · exact ⟨_, _, .id _, fun other => rfl⟩
    · by_cases held : (e.inbox.accept d).Holds q
      · simp only [held, if_true, update_update]
        exact ⟨_, _, .id _, fun other => rfl⟩
      · have slot : e.slotOf? q.sender = some (l.slotAt q.sender) := by
          rw [Endpoint.slotOf?, fits.layout]
          exact Layout.slot?_of_hasSlot valid (fits.refers q (.inl pending))
        simp only [held, if_false, update_update, clearSender, slot]
        refine ⟨_, _, ((l.slotAt q.sender).local_clear q.len).mono fun c there => ?_,
          fun other => rfl⟩
        exact ⟨q, .inl pending, there⟩

/-- What a dispatch comes to, if what the sender has staged is no link request. -/
theorem exists_dispatch (valid : l.Valid) (fits : e.Fits l stray p) (a : PeerId) {s : Staged}
    (plain : ¬ Link.IsRequest s.message) :
    ∃ receipt write record,
      Memory.Local (fun c => (l.slotAt a).Covers c ∨
        ∃ d, e.inbox.Refers d ∧ (l.slotAt d.sender).Covers c) write ∧
      ∀ other : Network, (l.slotAt a).staged other.memory = s →
        other.dispatch .queue [] e a (l.slotAt a) =
          (receipt, (other.remember write).update p record) := by
  -- the stamp and what is given up are within the slots that are named
  have stamps := ((l.slotAt a).local_stamp (firstCid a) subnetWord).mono
    (T := fun c => (l.slotAt a).Covers c ∨
      ∃ d, e.inbox.Refers d ∧ (l.slotAt d.sender).Covers c) fun c => .inl
  by_cases idle : s.len = 0
  · refine ⟨.spurious, _, .count fun c => { c with spuriousInterrupts := c.spuriousInterrupts + 1 },
      stamps, fun other staged => ?_⟩
    rw [dispatch_of_idle _ _ (staged ▸ idle), fits.peer]
    rfl
  · obtain ⟨write, record, within, install⟩ := exists_install valid fits a s.len
    refine ⟨.left a (e.inbox.fresh? a s.len), _, record, (within.mono fun c => .inr).comp stamps,
      fun other staged => ?_⟩
    rw [dispatch_of_plain _ _ (staged ▸ idle) (staged ▸ plain), staged, install]
    rfl

/-- A ring that nobody hears comes to nothing. -/
theorem ComesTo.nothing {result : RingResult}
    (unheard : ∀ other : Network, other.endpoint? w.dest = net.endpoint? w.dest →
      other.raise .queue [] w = (result, other)) :
    net.ComesTo l w result (fun m => m) fun e => e where
  within := .id _
  raise other same _ := by
    rw [unheard other same]
    exact congrArg (Prod.mk result) (update_eq_self fun _ _ => rfl).symm

/-- The ring of a message that is no link request comes to something, wherever it goes. -/
theorem WellFormed.exists_comesTo (wf : WellFormed l False net)
    (plain : ¬ Link.IsRequest ((l.slotAt w.origin).staged net.memory).message) :
    ∃ result write record, net.ComesTo l w result write record := by
  rcases he : net.endpoint? w.dest with _ | e
  · exact ⟨.unattached, _, _, .nothing fun other same => by rw [Network.raise, same, he]⟩
  rcases listens : e.listening with _ | _
  · exact ⟨.unattached, _, _, .nothing fun other same => by
      simp [Network.raise, same, he, listens]⟩
  rcases raised : e.vectors.vectorFor w.origin with _ | vector
  · exact ⟨.noVector, _, _, .nothing fun other same => by
      simp [Network.raise, same, he, listens, raised]⟩
  -- the vector is raised, and tells the origin
  have fits := wf.fits w.dest e he
  have behind : e.vectors.peerFor vector = some w.origin :=
    VectorTable.peerFor_of_vectorFor (fits.vectors.resolve_left fun h => h) raised
  rcases found : l.slot? w.origin.toUInt64 with _ | slot
  · have lost : e.slotOf? w.origin = none := by rw [Endpoint.slotOf?, fits.layout, found]
    refine ⟨.reached (.handled .slotless), _,
      .count fun c => { c with droppedInterrupts := c.droppedInterrupts + 1 }, .id _,
      fun other same _ => ?_⟩
    simp only [Network.raise, same, he, listens, raised, if_true, Network.interrupt, behind, lost,
      fits.peer]
    rfl
  · obtain rfl := Layout.slot?_eq_some wf.valid found
    have slot : e.slotOf? w.origin = some (l.slotAt w.origin) := by
      rw [Endpoint.slotOf?, fits.layout, found]
    obtain ⟨receipt, write, record, within, dispatch⟩ :=
      exists_dispatch wf.valid fits w.origin plain
    refine ⟨.reached (.handled receipt), write, record, within.mono fun c there => ?_,
      fun other same staged => ?_⟩
    · rcases there with there | ⟨d, refers, there⟩
      · exact ⟨w.origin, .inl rfl, there⟩
      · exact ⟨d.sender, .inr ⟨d, ⟨e, he, refers⟩, rfl⟩, there⟩
    · simp only [Network.raise, same, he, listens, raised, if_true, Network.interrupt, behind, slot,
        dispatch other staged]

/-! ### Rings for different peers -/

/-- The ring at a place in the queue reaches its destination. -/
theorem perform_deliver {place : Nat} (found : net.rings[place]? = some w) :
    net.perform .queue (.deliver place) =
      (.delivered w ((net.dequeue place).raise .queue [] w).1,
        ((net.dequeue place).raise .queue [] w).2) := by
  simp only [perform, deliver?_of_ring found]

/-- Rings under way for different peers reach the slots of different peers. -/
theorem Reaches.apart (owned : ∀ a, net.view.Owned a) (first : v ∈ net.rings)
    (second : w ∈ net.rings) (other : v.dest ≠ w.dest) (reaches : net.Reaches v a) :
    ¬ net.Reaches w a := by
  -- A slot is reached by its own ring or by a reference; two rings that do are the same one, two
  -- references are at one peer, and a ring and a reference exclude each other.
  rintro (rfl | ⟨c, refers', sender'⟩)
  · rcases reaches with origin | ⟨d, refers, sender⟩
    · -- the message of an origin is for one peer
      obtain ⟨-, dest, -⟩ := (owned w.origin).ring w second rfl
      obtain ⟨-, dest', -⟩ := (owned w.origin).ring v first origin.symm
      exact other (UInt16.toUInt64_inj.mp (dest'.symm.trans dest))
    · exact (owned w.origin).no_ring (refers_view.mpr refers) sender w second rfl
  · rcases reaches with rfl | ⟨d, refers, sender⟩
    · exact (owned v.origin).no_ring (refers_view.mpr refers') sender' v first rfl
    · exact other ((owned a).eq_of_refers (refers_view.mpr refers) sender
        (refers_view.mpr refers') sender')

/-- What a ring writes leaves alone what another ring reads, if that reaches other peers. -/
theorem ComesTo.staged_eq (valid : l.Valid) {result : RingResult} {write : Memory → Memory}
    {record : Endpoint → Endpoint} (comes : net.ComesTo l v result write record)
    (apart : ¬ net.Reaches v a) (m : Memory) :
    (l.slotAt a).staged (write m) = (l.slotAt a).staged m := by
  refine Slot.staged_of_bytes fun c low high => comes.within.outside m c ?_
  rintro ⟨b, reaches, there⟩
  obtain rfl := Layout.eq_of_covers valid there ⟨low, high⟩
  exact apart reaches

/-- Two places of a list are erased in either order, the later one under its new number. -/
theorem eraseIdx_eraseIdx_of_lt {α : Type} {xs : List α} {i j : Nat} (lt : i < j) :
    (xs.eraseIdx i).eraseIdx (j - 1) = (xs.eraseIdx j).eraseIdx i := by
  apply List.ext_getElem?
  intro k
  simp only [List.getElem?_eraseIdx]
  split_ifs <;> first | rfl | omega

/-- The rings at two places of the queue, of which the first is before the second, reach their
    destinations in either order with the same results, and lead to the same network. -/
structure Commutes (net : Network) (i j : Nat) (v w : DoorbellWord) : Prop where
  network : net.run .queue [.deliver i, .deliver (j - 1)] = net.run .queue [.deliver j, .deliver i]
  first : ∃ result, (net.perform .queue (.deliver i)).1 = .delivered v result ∧
    ((net.perform .queue (.deliver j)).2.perform .queue (.deliver i)).1 = .delivered v result
  second : ∃ result, (net.perform .queue (.deliver j)).1 = .delivered w result ∧
    ((net.perform .queue (.deliver i)).2.perform .queue (.deliver (j - 1))).1 =
      .delivered w result

/-- Two rings come to the same in both orders if the slots that one of them may touch are none of
    the other's, and their destinations differ. -/
theorem ComesTo.commutes (valid : l.Valid) {i j : Nat} {r s : RingResult} {f g : Memory → Memory}
    {h k : Endpoint → Endpoint} (here : net.ComesTo l v r f h) (there : net.ComesTo l w s g k)
    (apart : ∀ a, net.Reaches v a → ¬ net.Reaches w a) (other : v.dest ≠ w.dest) (lt : i < j)
    (first : net.rings[i]? = some v) (second : net.rings[j]? = some w) :
    net.Commutes i j v w := by
  -- each ring alone
  have before : net.perform .queue (.deliver i) =
      (.delivered v r, ((net.dequeue i).remember f).update v.dest h) := by
    rw [perform_deliver first, here.raise (net.dequeue i) rfl rfl]
  have behind : net.perform .queue (.deliver j) =
      (.delivered w s, ((net.dequeue j).remember g).update w.dest k) := by
    rw [perform_deliver second, there.raise (net.dequeue j) rfl rfl]
  -- each ring after the other
  have later : (((net.dequeue i).remember f).update v.dest h).perform .queue (.deliver (j - 1)) =
      (.delivered w s, (((((net.dequeue i).remember f).update v.dest h).dequeue
        (j - 1)).remember g).update w.dest k) := by
    have found : (((net.dequeue i).remember f).update v.dest h).rings[j - 1]? = some w := by
      rw [rings_update, rings_remember, dequeue, List.getElem?_eraseIdx, if_neg (by omega),
        Nat.sub_add_cancel (by omega), second]
    rw [perform_deliver found, there.raise]
    · exact endpoint?_update_of_ne other
    · exact here.staged_eq valid (fun reaches => apart _ reaches (.inl rfl)) net.memory
  have sooner : (((net.dequeue j).remember g).update w.dest k).perform .queue (.deliver i) =
      (.delivered v r, (((((net.dequeue j).remember g).update w.dest k).dequeue
        i).remember f).update v.dest h) := by
    have found : (((net.dequeue j).remember g).update w.dest k).rings[i]? = some v := by
      rw [rings_update, rings_remember, dequeue, List.getElem?_eraseIdx, if_pos lt, first]
    rw [perform_deliver found, here.raise]
    · exact endpoint?_update_of_ne (Ne.symm other)
    · exact there.staged_eq valid (fun reaches => apart _ (.inl rfl) reaches) net.memory
  refine ⟨?_, ⟨r, ?_, ?_⟩, ⟨s, ?_, ?_⟩⟩
  · rw [run_cons, run_cons, run_cons, run_cons, before, behind, later, sooner]
    have queue : (net.dequeue i).dequeue (j - 1) = (net.dequeue j).dequeue i := by
      rw [dequeue, dequeue, dequeue, dequeue, eraseIdx_eraseIdx_of_lt lt]
    have bytes : g (f net.memory) = f (g net.memory) := by
      refine (there.within.comm here.within ?_ net.memory)
      rintro c ⟨a, reaches, own⟩ ⟨b, reaches', also⟩
      obtain rfl := Layout.eq_of_covers valid own also
      exact apart a reaches' reaches
    calc (((((net.dequeue i).remember f).update v.dest h).dequeue (j - 1)).remember g).update
          w.dest k
        = ((((net.dequeue i).dequeue (j - 1)).remember fun _ => g (f net.memory)).update
            v.dest h).update w.dest k := rfl
      _ = ((((net.dequeue j).dequeue i).remember fun _ => f (g net.memory)).update
            v.dest h).update w.dest k := by rw [queue, bytes]
      _ = ((((net.dequeue j).dequeue i).remember fun _ => f (g net.memory)).update
            w.dest k).update v.dest h := update_comm other _ _
  · rw [before]
  · rw [behind, sooner]
  · rw [behind]
  · rw [before, later]

/-! ### Runs -/

/-- **Different destinations.** After every run from a new mailbox in which nobody attaches twice,
    no vector table has repeats and no ring is raised that nobody sent: two rings under way for
    different peers, none of them that of a link request, may arrive in either order, whatever is
    pending or in hand at these peers. Both ways each comes to the same, and so does the network:
    all bytes of the memory, the inboxes, identities and counters, and the rings still under way. -/
theorem commutes_of_run {storage : Storage} {b : Mailbox} {actions : List Action}
    (created : Mailbox.create storage l = .ok b) (orderly : ∀ action ∈ actions, action.Orderly)
    (once : ((ofMailbox b).story actions).Once) {i j : Nat} (lt : i < j)
    (first : ((ofMailbox b).run .queue actions).rings[i]? = some v)
    (second : ((ofMailbox b).run .queue actions).rings[j]? = some w) (other : v.dest ≠ w.dest)
    (plain : ¬ Link.IsRequest (((ofMailbox b).run .queue actions).staged v.origin).message)
    (plain' : ¬ Link.IsRequest (((ofMailbox b).run .queue actions).staged w.origin).message) :
    ((ofMailbox b).run .queue actions).Commutes i j v w := by
  obtain ⟨wf, -⟩ := path_of_once False created (fun action told => .inr (orderly action told)) once
  have owned := (account_of_run created orderly once).owned
  rw [Network.staged, wf.layout] at plain plain'
  obtain ⟨r, f, h, here⟩ := wf.exists_comesTo plain
  obtain ⟨s, g, k, there⟩ := wf.exists_comesTo plain'
  exact here.commutes wf.valid there (fun a => Reaches.apart owned (List.mem_of_getElem? first)
    (List.mem_of_getElem? second) other) other lt first second

/-- Peers 1 and 3 have a message pending, of peers 2 and 4, when they send to each other. -/
def crossing : List Action :=
  [join 1, join 2, join 3, join 4, hail 2 1, .deliver 0, hail 4 3, .deliver 0, hail 3 1, hail 1 3]

/-- Each ring stomps what is pending at its destination, and frees the slot of another peer. -/
theorem commutes_of_run_small :
    ((ofMailbox smallMailbox).run .queue crossing).Commutes 0 1 (.new 3 1) (.new 1 3) :=
  commutes_of_run create_small (by decide) (by decide +kernel) (by decide) (by decide +kernel)
    (by decide +kernel) (by decide) (by decide +kernel) (by decide +kernel)

end Network

end SharedMailbox
