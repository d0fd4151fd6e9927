import SharedMailbox.Destination
import SharedMailbox.Doorbell
import SharedMailbox.Proofs.Region

namespace SharedMailbox

/-!
# Routing

From a selector to a peer id, and from a vector back to the peer whose ring raised it.

* `VectorTable.NoRepeats`: no two origins share a vector; then a vector tells its origin
  (`VectorTable.peerFor_of_vectorFor`).
* `Destination.hasSlot_of_resolve`: a destination resolves to a peer that owns a slot;
  `resolve_peer`, `resolve_firstCid`: every such peer is the destination of two selectors.
* `Destination.Asks`, `Destination.Reaches`, `Destination.Strays`: what a selector asks for, the
  peer that it reaches, and why it reaches none; `resolve_eq_ok_iff`, `resolve_eq_error_iff`:
  resolving says which.
* `outcome_iff_of_or`: a condition, or else a reason against it, as it shows in an outcome.
-/

/-! ### Outcomes -/

/-- Where a condition or some reason against it holds, and each of them decides the outcome, the
    outcome tells which one holds. -/
theorem outcome_iff_of_or {α ε : Type*} {x : Except ε α} {a : α} {able : Prop} {unable : ε → Prop}
    (either : able ∨ ∃ fault, unable fault) (succeeds : able → x = .ok a)
    (fails : ∀ fault, unable fault → x = .error fault) :
    (∀ b, x = .ok b ↔ able ∧ b = a) ∧ ∀ fault, x = .error fault ↔ unable fault := by
  constructor
  · intro b
    constructor
    · intro made
      rcases either with holds | ⟨reason, holds⟩
      · rw [succeeds holds, Except.ok.injEq] at made
        exact ⟨holds, made.symm⟩
      · rw [fails reason holds] at made
        cases made
    · rintro ⟨holds, rfl⟩
      exact succeeds holds
  · intro fault
    constructor
    · intro failed
      rcases either with holds | ⟨reason, holds⟩
      · rw [succeeds holds] at failed
        cases failed
      · rw [fails reason holds, Except.error.injEq] at failed
        exact failed ▸ holds
    · exact fails fault

/-! ### Vectors -/

namespace VectorTable

/-- No vector stands at two places of the table. A run has none twice if it does not wrap around. -/
def NoRepeats : VectorTable → Prop
  | run first count => first.toNat + count ≤ UInt32.size
  | list vectors => vectors.Nodup

instance : (t : VectorTable) → Decidable t.NoRepeats
  | run _ _ => inferInstanceAs (Decidable (_ ≤ _))
  | list vectors => inferInstanceAs (Decidable vectors.Nodup)

/-- There is a vector for every number below the size of the table. -/
theorem exists_get?_of_lt {t : VectorTable} {i : Nat} (h : i < t.size) :
    ∃ v, t.get? i = some v := by
  cases t with
  | run first count =>
    simp only [get?]
    exact ⟨_, if_pos h⟩
  | list vectors => exact ⟨_, List.getElem?_eq_getElem h⟩

/-- In a table without repeats a vector is found where it stands. -/
theorem indexOf?_of_get? {t : VectorTable} (distinct : t.NoRepeats) {i : Nat} {v : UInt32}
    (h : t.get? i = some v) : t.indexOf? v = some i := by
  cases t with
  | run first count =>
    simp only [get?, Option.ite_none_right_eq_some, Option.some.injEq] at h
    obtain ⟨lt, rfl⟩ := h
    have fits : first.toNat + count ≤ 4294967296 := distinct
    -- the run does not wrap around before this place
    have value : (UInt32.ofNat (first.toNat + i)).toNat = first.toNat + i := by
      rw [UInt32.toNat_ofNat', Nat.mod_eq_of_lt (by omega)]
    have above : first ≤ UInt32.ofNat (first.toNat + i) := UInt32.le_iff_toNat_le.mpr (by omega)
    simp only [indexOf?, value, Nat.add_sub_cancel_left]
    rw [if_pos ⟨above, lt⟩]
  | list vectors =>
    simp only [get?] at h
    obtain ⟨bound, rfl⟩ := List.getElem?_eq_some_iff.mp h
    simp only [indexOf?, List.findIdx?_eq_some_iff_getElem]
    -- no earlier place of the list has the same vector
    refine ⟨bound, by simp, fun j before => ?_⟩
    have ne := List.pairwise_iff_getElem.mp distinct j i (by omega) bound before
    simpa using ne

/-- In a table without repeats the peer behind a vector is the one for which it is raised. -/
theorem peerFor_of_vectorFor {t : VectorTable} (distinct : t.NoRepeats) {o : PeerId} {v : UInt32}
    (h : t.vectorFor o = some v) : t.peerFor v = some o := by
  have small : o.toNat < 65536 := o.toNat_lt
  rw [peerFor, indexOf?_of_get? distinct h]
  simp [small]

end VectorTable

/-! ### Destinations -/

namespace Destination

variable {l : Layout} {d : Destination} {t : UInt64}

/-- An id that passes the check owns a slot. -/
theorem hasSlot_of_check {id : Int} (h : check l id = .ok t) : l.HasSlot t := by
  unfold check at h
  split at h
  next => simp at h
  next ok =>
    simp only [not_or, Decidable.not_not] at ok
    cases h
    exact ok.2.2

/-- What a destination resolves to owns a slot. -/
theorem hasSlot_of_resolve (h : d.resolve l = .ok t) : l.HasSlot t := by
  unfold resolve at h
  split at h
  next => exact hasSlot_of_check h
  next =>
    split at h
    next => exact hasSlot_of_check h
    next =>
      split at h
      next => exact hasSlot_of_check h
      next => simp at h

/-- The number of a peer that owns a slot passes the check. -/
theorem check_of_hasSlot (valid : l.Valid) {p : PeerId} (owner : l.HasSlot p.toUInt64) :
    check l p.toNat = .ok p.toUInt64 := by
  have low := owner.pos valid
  have high := owner.le_maxPeer
  obtain ⟨-, -, -, above, -⟩ := (Layout.valid_iff l).mp valid
  -- a valid layout has its coordinator above all clients, so that its id is the highest
  have last : l.maxPeer = l.coordinator := if_neg (by
    rw [UInt64.lt_iff_toNat_lt] at above
    rw [UInt64.le_iff_toNat_le]
    omega)
  have number : UInt64.ofNat (p.toNat : Int).toNat = p.toUInt64 := by
    apply UInt64.toNat_inj.mp
    simp
  rw [last, UInt64.le_iff_toNat_le] at high
  simp only [UInt16.toNat_toUInt64] at low high
  rw [check, if_neg, number]
  rw [not_or, not_or, number, Decidable.not_not]
  exact ⟨by omega, by omega, owner⟩

/-- A peer that owns a slot is reached by its number, and by its first component id. -/
theorem resolve_number (valid : l.Valid) {p : PeerId} (owner : l.HasSlot p.toUInt64) {cid : Int32}
    (number : cid.toInt = p.toNat) : resolve (.component cid peerIdSid) l = .ok p.toUInt64 := by
  rw [resolve, if_pos rfl, number]
  exact check_of_hasSlot valid owner

/-- A peer that owns a slot is reached by its id. -/
theorem resolve_peer (valid : l.Valid) {p : PeerId} (owner : l.HasSlot p.toUInt64) :
    resolve (.peer p) l = .ok p.toUInt64 :=
  check_of_hasSlot valid owner

/-- The coordinator is reached as such. -/
theorem resolve_coordinator (valid : l.Valid) :
    (coordinator l).resolve l = .ok l.coordinator := by
  have owner : l.HasSlot l.coordinator := .inr rfl
  have same := owner.toUInt16_toUInt64 valid
  have number : l.coordinator.toUInt32.toInt32.toInt = l.coordinator.toUInt16.toNat := by
    have small := l.coordinator.toUInt16.toNat_lt
    have value : l.coordinator.toUInt16.toNat = l.coordinator.toNat := by
      rw [← UInt16.toNat_toUInt64, same]
    have word : l.coordinator.toUInt32.toBitVec.toNat = l.coordinator.toNat := by
      rw [UInt32.toNat_toBitVec, UInt64.toNat_toUInt32, Nat.mod_eq_of_lt (by omega)]
    rw [Int32.toInt, UInt32.toBitVec_toInt32, BitVec.toInt_eq_toNat_of_lt (by omega), word, value]
  rw [coordinator, resolve_number valid (same.symm ▸ owner) number, same]

/-- A peer that owns a slot is reached by its first component id on the default subnet. -/
theorem resolve_firstCid (valid : l.Valid) {p : PeerId} (owner : l.HasSlot p.toUInt64) {cid : Int32}
    (first : cid.toInt = p.toNat * cidsPerPeer) :
    resolve (.component cid defaultSid) l = .ok p.toUInt64 := by
  have number : (p.toNat * cidsPerPeer : Int).tdiv cidsPerPeer = p.toNat :=
    Int.mul_tdiv_cancel _ (by decide)
  rw [resolve, if_neg (by decide), if_pos rfl, first, number]
  exact check_of_hasSlot valid owner

/-! ### What a destination asks for -/

/-- The number of the peer that a destination asks for. A component id of the one subnet asks for
    the peer that owns its run of ids. -/
inductive Asks : Destination → Int → Prop
  | peer (id : PeerId) : Asks (.peer id) id.toNat
  | number (cid : Int32) : Asks (.component cid peerIdSid) cid.toInt
  | address (cid : Int32) : Asks (.component cid defaultSid) (cid.toInt.tdiv cidsPerPeer)

/-- A destination asks for a peer, which owns a slot. -/
structure Reaches (l : Layout) (d : Destination) (q : PeerId) : Prop where
  asks : d.Asks q.toNat
  owner : l.HasSlot q.toUInt64

/-- Why a destination reaches no peer: its subnet is none that is known, or it asks for a number
    that is not the one of a peer with a slot. -/
inductive Strays (l : Layout) : Destination → MessageError → Prop
  | subnet {cid sid : Int32} (notNumber : sid ≠ peerIdSid) (notAddress : sid ≠ defaultSid) :
      Strays l (.component cid sid) (.unreachableDestination sid)
  | nobody {d : Destination} {id : Int} (asks : d.Asks id)
      (none : ∀ q : PeerId, id = q.toNat → ¬ l.HasSlot q.toUInt64) :
      Strays l d (.addressOutOfRange id)

/-- The check passes the numbers of the peers that own a slot. -/
theorem check_eq_ok_iff (valid : l.Valid) {id : Int} :
    check l id = .ok t ↔ ∃ q : PeerId, id = q.toNat ∧ l.HasSlot q.toUInt64 ∧ t = q.toUInt64 := by
  constructor
  · intro checked
    have owner := hasSlot_of_check checked
    obtain ⟨low, high, rfl⟩ :
        1 ≤ id ∧ id.toNat ≤ l.coordinator.toNat ∧ t = UInt64.ofNat id.toNat := by
      unfold check at checked
      split at checked
      next => cases checked
      next ok =>
        cases checked
        exact ⟨by omega, by omega, rfl⟩
    -- the id is below the coordinator's, so that it is the number of its word
    have small := l.coordinator.toNat_lt
    have back := owner.toUInt16_toUInt64 valid
    refine ⟨(UInt64.ofNat id.toNat).toUInt16, ?_, by rwa [back], back.symm⟩
    rw [← UInt16.toNat_toUInt64, back, UInt64.toNat_ofNat', Nat.mod_eq_of_lt (by omega)]
    omega
  · rintro ⟨q, rfl, owner, rfl⟩
    exact check_of_hasSlot valid owner

/-- The check fails iff the number is not the id of a peer that owns a slot, and names it. -/
theorem check_eq_error_iff (valid : l.Valid) {id : Int} {fault : MessageError} :
    check l id = .error fault ↔
      fault = .addressOutOfRange id ∧ ∀ q : PeerId, id = q.toNat → ¬ l.HasSlot q.toUInt64 := by
  have passed : check l id = .ok (UInt64.ofNat id.toNat) ↔ ∃ q : PeerId, id = q.toNat ∧
      l.HasSlot q.toUInt64 ∧ UInt64.ofNat id.toNat = q.toUInt64 := check_eq_ok_iff valid
  unfold check at passed ⊢
  -- the check either passes or fails with this error, so it is the negation of passing
  split_ifs at passed ⊢ with refused
  · simp only [false_iff, not_exists, not_and] at passed
    constructor
    · rintro ⟨⟩
      refine ⟨rfl, fun q number owner => passed q number owner ?_⟩
      rw [number, Int.toNat_natCast]
      simp
    · rintro ⟨rfl, -⟩
      rfl
  · obtain ⟨q, number, owner, -⟩ := passed.mp rfl
    simp only [false_iff, not_and, not_forall, Decidable.not_not]
    exact fun _ => ⟨q, number, owner⟩

/-- A destination that asks for a peer is resolved by the check of its number. -/
theorem resolve_of_asks {id : Int} (asks : d.Asks id) : d.resolve l = check l id := by
  cases asks with
  | peer id => rfl
  | number cid => rw [resolve, if_pos rfl]
  | address cid => rw [resolve, if_neg (by decide), if_pos rfl]

/-- A destination asks for a peer unless its subnet is unknown. -/
theorem asks_or_unknown (d : Destination) : (∃ id, d.Asks id) ∨
    ∃ cid sid, d = .component cid sid ∧ sid ≠ peerIdSid ∧ sid ≠ defaultSid := by
  cases d with
  | peer id => exact .inl ⟨_, .peer id⟩
  | component cid sid =>
    by_cases number : sid = peerIdSid
    · subst number
      exact .inl ⟨_, .number cid⟩
    · by_cases address : sid = defaultSid
      · subst address
        exact .inl ⟨_, .address cid⟩
      · exact .inr ⟨cid, sid, rfl, number, address⟩

/-- On every other subnet nobody is reached. -/
theorem resolve_of_unknown {cid sid : Int32} (notNumber : sid ≠ peerIdSid)
    (notAddress : sid ≠ defaultSid) :
    resolve (.component cid sid) l = .error (.unreachableDestination sid) := by
  rw [resolve, if_neg notNumber, if_neg notAddress]

/-- A destination resolves to the peer that it reaches. -/
theorem resolve_eq_ok_iff (valid : l.Valid) :
    d.resolve l = .ok t ↔ ∃ q : PeerId, d.Reaches l q ∧ t = q.toUInt64 := by
  constructor
  · intro resolved
    rcases asks_or_unknown d with ⟨id, asks⟩ | ⟨cid, sid, rfl, notNumber, notAddress⟩
    · rw [resolve_of_asks asks, check_eq_ok_iff valid] at resolved
      obtain ⟨q, rfl, owner, rfl⟩ := resolved
      exact ⟨q, ⟨asks, owner⟩, rfl⟩
    · rw [resolve_of_unknown notNumber notAddress] at resolved
      cases resolved
  · rintro ⟨q, reaches, rfl⟩
    rw [resolve_of_asks reaches.asks]
    exact check_of_hasSlot valid reaches.owner

/-- A destination that does not resolve strays, with the error that says why. -/
theorem resolve_eq_error_iff (valid : l.Valid) {fault : MessageError} :
    d.resolve l = .error fault ↔ d.Strays l fault := by
  constructor
  · intro refused
    rcases asks_or_unknown d with ⟨id, asks⟩ | ⟨cid, sid, rfl, notNumber, notAddress⟩
    · rw [resolve_of_asks asks, check_eq_error_iff valid] at refused
      obtain ⟨rfl, none⟩ := refused
      exact .nobody asks none
    · rw [resolve_of_unknown notNumber notAddress] at refused
      cases refused
      exact .subnet notNumber notAddress
  · intro strays
    cases strays with
    | subnet notNumber notAddress => exact resolve_of_unknown notNumber notAddress
    | nobody asks none =>
      rw [resolve_of_asks asks]
      exact (check_eq_error_iff valid).mpr ⟨rfl, none⟩

end Destination

end SharedMailbox
