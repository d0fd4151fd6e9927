import SharedMailbox.Proofs.Dialogue

namespace SharedMailbox.Demo

/-!
# Demonstrations succeed

A demonstration of any size runs to its end and prints what it should: the network is at rest after
each of its steps, so that the next one finds what it needs.

* `transcript`: the lines of a demonstration.
* `Attached`, `Introduced`, `Present`: what holds while peers attach, while clients are introduced,
  and from then on. Each phase is an induction over the peers or the clients.
* `runWith_succeeds`: the result.
-/

open Numeral (decimal)
open Network

/-! ### Lines -/

/-- The lines of a demonstration with `n` clients: each is introduced, and then in each round each
    passes a message on. -/
def transcript (n rounds : Nat) : List String :=
  (List.range' 1 n).flatMap introduction ++
    (List.range rounds).flatMap fun round => (List.range' 1 n).map (relay n round)

/-- Three lines for each client, and one for each client in each round. -/
theorem length_transcript (n rounds : Nat) :
    (transcript n rounds).length = 3 * n + n * rounds := by
  have three : ∀ c, (introduction c).length = 3 := fun _ => rfl
  simp only [transcript, List.length_append, List.length_flatMap, three, List.length_map,
    List.length_range', List.map_const', List.length_range, List.sum_replicate_nat]
  ring

/-! ### Clients -/

variable {n : Nat} {q : PeerId}

/-- The ids of the clients are the numbers from one on. -/
theorem toNat_clientIds (few : n < 65536) : (clientIds n).map UInt16.toNat = List.range' 1 n := by
  rw [clientIds, List.map_map, List.range'_eq_map_range]
  refine List.map_congr_left fun i hi => ?_
  have below := List.mem_range.mp hi
  show (UInt16.ofNat (i + 1)).toNat = 1 + i
  rw [UInt16.toNat_ofNat', Nat.mod_eq_of_lt (by omega), Nat.add_comm]

/-- The clients are the peers with these numbers. -/
theorem mem_clientIds (few : n < 65536) : q ∈ clientIds n ↔ 1 ≤ q.toNat ∧ q.toNat ≤ n := by
  have same : q ∈ clientIds n ↔ q.toNat ∈ (clientIds n).map UInt16.toNat := by
    rw [List.mem_map_of_injective fun _ _ => UInt16.toNat_inj.mp]
  rw [same, toNat_clientIds few, List.mem_range'_1]
  omega

/-- No client is there twice. -/
theorem nodup_clientIds (few : n < 65536) : (clientIds n).Nodup := by
  refine List.Nodup.of_map UInt16.toNat ?_
  rw [toNat_clientIds few]
  exact List.nodup_range'

/-! ### The mailbox -/

/-- The parameters that a demonstration may have. -/
structure Sized (o : Options) : Prop where
  clients : 1 ≤ o.clients.toNat ∧ o.clients.toNat ≤ 65533
  slotSize : 256 ≤ o.slotSize.toNat
  bounded : o.slotSize.toNat * (o.clients.toNat + 2) < 2 ^ 56
  rounds : o.rounds < UInt32.size

/-- The layout of the mailbox of a demonstration. -/
def Options.layout (o : Options) : Layout := MailboxConfig.layout ⟨o.slotSize, o.clients⟩

/-- The coordinator of a demonstration. -/
def Options.coordinator (o : Options) : PeerId := o.layout.coordinator.toUInt16

namespace Sized

variable {o : Options}

/-- The numbers of the layout do not wrap around. -/
theorem numbers (sized : Sized o) : o.layout.coordinator.toNat = o.clients.toNat + 1 ∧
    o.layout.nEvents.toNat = o.clients.toNat + 2 ∧ o.layout.nClients < o.layout.coordinator := by
  obtain ⟨-, few⟩ := sized.clients
  -- there are few enough clients for the sums not to wrap
  have coordinator : o.layout.coordinator.toNat = o.clients.toNat + 1 := by
    show (o.clients + 1).toNat = _
    rw [UInt64.toNat_add]
    exact Nat.mod_eq_of_lt (by simp; omega)
  have events : o.layout.nEvents.toNat = o.clients.toNat + 2 := by
    show (o.clients + 2).toNat = _
    rw [UInt64.toNat_add]
    exact Nat.mod_eq_of_lt (by simp; omega)
  refine ⟨coordinator, events, ?_⟩
  rw [UInt64.lt_iff_toNat_lt, coordinator]
  exact Nat.lt_succ_self _

/-- The highest peer is the coordinator. -/
theorem maxPeer_eq (sized : Sized o) : o.layout.maxPeer.toNat = o.clients.toNat + 1 := by
  obtain ⟨coordinator, -, above⟩ := sized.numbers
  rw [Layout.maxPeer, if_neg (UInt64.not_le.mpr above), coordinator]

/-- The region has a slot for each peer, and slot 0. -/
theorem size?_eq (sized : Sized o) :
    o.layout.size? = some (o.slotSize.toNat * (o.clients.toNat + 2)) := by
  obtain ⟨-, few⟩ := sized.clients
  have bounded := sized.bounded
  have product : (o.clients.toNat + 1 + 1) * o.layout.stride.toNat =
      o.slotSize.toNat * (o.clients.toNat + 2) := Nat.mul_comm _ _
  have word : UInt64.size = 2 ^ 64 := rfl
  rw [Layout.size?, sized.maxPeer_eq]
  simp only [product]
  exact if_pos ⟨by omega, by omega⟩

/-- The layout of a demonstration is valid. -/
theorem valid (sized : Sized o) : o.layout.Valid := by
  obtain ⟨coordinator, events, above⟩ := sized.numbers
  obtain ⟨some, few⟩ := sized.clients
  have slotSize := sized.slotSize
  have maxPeer := sized.maxPeer_eq
  -- the checks of a layout in their order: header, slots, clients, coordinator, ids, events, size
  refine (Layout.valid_iff _).mpr ⟨rfl, ?_, ?_, above, ?_, ?_, ?_⟩
  · show (128 : UInt64).toNat + 1 < o.slotSize.toNat
    have : (128 : UInt64).toNat = 128 := rfl
    omega
  · show o.clients ≠ 0
    rintro none
    rw [none] at some
    exact absurd some (by decide)
  · rw [UInt64.le_iff_toNat_le, maxPeer]
    have : (65535 : UInt64).toNat = 65535 := rfl
    omega
  · rw [UInt64.lt_iff_toNat_lt, maxPeer, events]
    omega
  · rw [sized.size?_eq]
    exact Option.some_ne_none _

/-- Every slot has room for the texts of a demonstration. -/
theorem spacious (sized : Sized o) : 128 ≤ o.layout.maxPayload := by
  have stride := sized.valid.stride_eq
  have slotSize : 256 ≤ o.layout.stride.toNat := sized.slotSize
  omega

/-- The vectors of everybody fit. -/
theorem fits (sized : Sized o) (owner : o.layout.HasSlot q.toUInt64) : Fabric.Fits o.layout q := by
  obtain ⟨-, events, -⟩ := sized.numbers
  obtain ⟨-, few⟩ := sized.clients
  have low := UInt64.le_iff_toNat_le.mp owner.le_maxPeer
  rw [sized.maxPeer_eq, UInt16.toNat_toUInt64] at low
  have word : UInt32.size = 2 ^ 32 := rfl
  have product : q.toNat * (o.clients.toNat + 2) ≤ 65534 * 65535 :=
    Nat.mul_le_mul (by omega) (by omega)
  rw [Fabric.Fits, Fabric.baseVector, events]
  omega

/-- The coordinator comes after the clients. -/
theorem toNat_coordinator (sized : Sized o) : o.coordinator.toNat = o.clients.toNat + 1 := by
  obtain ⟨coordinator, -, -⟩ := sized.numbers
  obtain ⟨-, few⟩ := sized.clients
  rw [Options.coordinator, UInt64.toNat_toUInt16, coordinator]
  omega

/-- The coordinator and the clients own a slot. -/
theorem hasSlot_iff (sized : Sized o) : o.layout.HasSlot q.toUInt64 ↔
    q = o.coordinator ∨ q ∈ clientIds o.clients.toNat := by
  obtain ⟨coordinator, -, -⟩ := sized.numbers
  obtain ⟨-, few⟩ := sized.clients
  have clients : o.layout.nClients.toNat = o.clients.toNat := rfl
  rw [Layout.hasSlot_iff, mem_clientIds (by omega), ← UInt16.toNat_inj, sized.toNat_coordinator,
    coordinator, clients, UInt16.toNat_toUInt64]
  exact or_comm

/-- The coordinator is no client. -/
theorem coordinator_not_mem (sized : Sized o) : o.coordinator ∉ clientIds o.clients.toNat := by
  obtain ⟨-, few⟩ := sized.clients
  rw [mem_clientIds (by omega), sized.toNat_coordinator]
  omega

end Sized

/-! ### Phases -/

variable {o : Options} {net : Network}

/-- The endpoint of a peer that has just attached. -/
def newcomer (o : Options) (q : PeerId) : Endpoint :=
  newEndpoint o.layout q (Fabric.run o.layout q) setup

/-- These peers have attached, and nothing else has been done. -/
structure Attached (o : Options) (members : List PeerId) (net : Network) : Prop where
  opening : Fabric.Opening o.layout net
  records : ∀ q, net.bare? q = if q ∈ members then some (newcomer o q) else none

/-- One more peer attaches. -/
theorem Attached.attach (sized : Sized o) (host : HostAnswer) {members : List PeerId}
    (attached : Attached o members net) (new : q ∉ members)
    (owner : o.layout.HasSlot q.toUInt64) : ∃ after, Attached o (members ++ [q]) after ∧
      Script.Runs (Script.attach host setup q) net () after [] := by
  have absent : net.endpoint? q = none := by
    have record := attached.records q
    rw [if_neg new] at record
    exact Option.map_eq_none_iff.mp record
  obtain ⟨after, made, opening, records⟩ :=
    attached.opening.attach owner (sized.fits owner) absent setup host
  refine ⟨after, ⟨opening, fun p => ?_⟩, Script.runs_attach made⟩
  rw [records]
  by_cases same : p = q
  · subst same
    rw [Function.update_self, if_pos (by simp)]
    rfl
  · rw [Function.update_of_ne same, attached.records p]
    simp [same]

/-- Everybody has attached, and the clients apart from these have not been introduced. -/
structure Introduced (o : Options) (done : List PeerId) (net : Network) : Prop where
  rest : AtRest o.layout net
  members : ∀ q : PeerId, o.layout.HasSlot q.toUInt64 → ∃ r, net.bare? q = some r ∧
    (q ∉ done → r.identity = { className := defaultClass })

/-- Once everybody has attached, nobody has been introduced. -/
theorem Attached.introduced (sized : Sized o)
    (attached : Attached o (o.coordinator :: clientIds o.clients.toNat) net) :
    Introduced o [] net := by
  refine ⟨attached.opening.rest, fun q owner => ⟨newcomer o q, ?_, fun _ => rfl⟩⟩
  rw [attached.records, if_pos]
  rw [List.mem_cons]
  exact sized.hasSlot_iff.mp owner

/-- One more client is introduced. -/
theorem Introduced.negotiate (sized : Sized o) {done : List PeerId}
    (introduced : Introduced o done net) (new : q ∉ done) (client : q ∈ clientIds o.clients.toNat) :
    ∃ after, Introduced o (done ++ [q]) after ∧
      Script.Runs (Script.negotiate o.coordinator q) net () after (introduction q.toNat) := by
  obtain ⟨r, asker, -⟩ := introduced.members _ (sized.hasSlot_iff.mpr (.inl rfl))
  obtain ⟨r', answerer, identity⟩ := introduced.members q (sized.hasSlot_iff.mpr (.inr client))
  have other : o.coordinator ≠ q := by
    rintro rfl
    exact sized.coordinator_not_mem client
  obtain ⟨after, runs, rest, records⟩ := Script.exists_runs_negotiate introduced.rest
    sized.spacious other asker answerer (identity new)
  refine ⟨after, ⟨rest, fun p owner => ?_⟩, runs⟩
  rw [records]
  -- the new client has an identity now, and all others have the record that they had
  by_cases same : p = q
  · subst same
    exact ⟨_, Function.update_self .., fun absent => absurd (by simp) absent⟩
  · obtain ⟨t, record, fresh⟩ := introduced.members p owner
    refine ⟨t, (Function.update_of_ne same ..).trans record, fun absent => fresh fun there => ?_⟩
    exact absent (List.mem_append_left _ there)

/-- Everybody has attached, and nothing is under way. -/
structure Present (o : Options) (net : Network) : Prop where
  rest : AtRest o.layout net
  members : ∀ q : PeerId, o.layout.HasSlot q.toUInt64 → (net.bare? q).isSome

/-- All get a class, and what this leaves pending is drained. -/
theorem Introduced.bindClass (sized : Sized o) {done : List PeerId}
    (introduced : Introduced o done net) (rounds : Nat) : ∃ n after, Present o after ∧
      Script.Runs (Script.drain o.coordinator (rounds + 1)) (Fabric.bindClass o.className net).2 n
        after [] := by
  obtain ⟨r, record, -⟩ := introduced.members _ (sized.hasSlot_iff.mpr (.inl rfl))
  have word : o.layout.coordinator = o.coordinator.toUInt64 :=
    (Layout.HasSlot.toUInt16_toUInt64 sized.valid (.inr rfl)).symm
  obtain ⟨n, after, drained, rest, members⟩ :=
    Script.exists_runs_bindClass introduced.rest word record o.className rounds
  refine ⟨n, after, ⟨rest, fun q owner => ?_⟩, drained⟩
  obtain ⟨t, there, -⟩ := introduced.members q owner
  rw [members, there, Option.isSome_some]

/-- A client passes on to the client after it, and the last one to the first. -/
theorem toNat_next (sized : Sized o) (q : PeerId) :
    (next o q).toNat = q.toNat % o.clients.toNat + 1 := by
  obtain ⟨some, few⟩ := sized.clients
  have below := Nat.mod_lt q.toNat some
  rw [next, UInt16.toNat_ofNat', Nat.mod_eq_of_lt (by omega)]

/-- What is printed of a message names its receiver, and is the frame that was read. -/
theorem relay_eq (sized : Sized o) (round : Nat) (q : PeerId) :
    relay o.clients.toNat round q.toNat = "peer " ++ decimal (next o q).toNat ++ " <- "
      ++ Script.frameText round q := by
  have cid : (firstCid q).toNat = 100 * q.toNat := by
    rw [toNat_firstCid, Nat.mul_comm]
    rfl
  have middle : "," ++ (decimal subnetWord.toNat ++ (":" ++ "round ")) = ",27:round " := by
    decide +kernel
  rw [relay, ← middle, ← cid, ← toNat_next sized, Script.frameText, addressText, Script.note]
  simp only [String.append_assoc]

/-- A client passes a message on, and everybody is still present. -/
theorem Present.pass (sized : Sized o) (present : Present o net)
    (client : q ∈ clientIds o.clients.toNat) {round : Nat} (now : round < o.rounds) :
    ∃ after, Present o after ∧ Script.Runs (Script.pass round q (next o q)) net () after
      [relay o.clients.toNat round q.toNat] := by
  obtain ⟨some, few⟩ := sized.clients
  have reader : next o q ∈ clientIds o.clients.toNat := by
    have below := Nat.mod_lt q.toNat some
    rw [mem_clientIds (by omega), toNat_next sized]
    omega
  obtain ⟨r, writer⟩ := Option.isSome_iff_exists.mp
    (present.members q (sized.hasSlot_iff.mpr (.inr client)))
  obtain ⟨r', reader⟩ := Option.isSome_iff_exists.mp
    (present.members _ (sized.hasSlot_iff.mpr (.inr reader)))
  obtain ⟨after, runs, rest, records⟩ := Script.exists_runs_pass present.rest sized.spacious
    writer reader (Nat.lt_trans now sized.rounds)
  rw [relay_eq sized]
  exact ⟨after, ⟨rest, fun p owner => by rw [records]; exact present.members p owner⟩, runs⟩

/-! ### Demonstrations -/

variable {b : Mailbox} {storage : Storage}

/-- In a list without repeats an entry is not among those before it. -/
theorem not_mem_of_split {todo done rest : List PeerId} (distinct : todo.Nodup)
    (split : todo = done ++ q :: rest) : q ∉ done ∧ q ∈ todo := by
  subst split
  have apart := List.nodup_middle.mp distinct
  exact ⟨fun there => (List.nodup_cons.mp apart).1 (List.mem_append_left _ there), by simp⟩

/-- The coordinator and the clients attach one after another. -/
theorem exists_runs_attach (sized : Sized o) (created : Mailbox.create storage o.layout = .ok b)
    (host : HostAnswer) :
    ∃ mid after, Script.Runs (Script.attach host setup o.coordinator) (ofMailbox b) () mid [] ∧
      Script.Runs ((clientIds o.clients.toNat).forM fun peer => Script.attach host setup peer) mid
        () after [] ∧
      Introduced o [] after := by
  obtain ⟨-, few⟩ := sized.clients
  have start : Attached o [] (ofMailbox b) :=
    ⟨Fabric.opening_of_create created, fun q => by simp [bare?, endpoint?, ofMailbox]⟩
  obtain ⟨mid, first, ran⟩ := start.attach sized host (List.not_mem_nil (a := o.coordinator))
    (sized.hasSlot_iff.mpr (.inl rfl))
  -- the loop over the clients, with those that have attached as its invariant
  obtain ⟨after, all, runs⟩ := Script.runs_forM (fun done => Attached o (o.coordinator :: done))
    (fun peer => Script.attach host setup peer) (fun _ => []) (clientIds o.clients.toNat) (by
      intro done q rest net split attached
      obtain ⟨new, client⟩ := not_mem_of_split (nodup_clientIds (by omega)) split
      refine attached.attach sized host ?_ (sized.hasSlot_iff.mpr (.inr client))
      rintro (- | ⟨-, there⟩)
      · exact sized.coordinator_not_mem client
      · exact new there) first
  have silent : (clientIds o.clients.toNat).flatMap (fun _ => ([] : List String)) = [] :=
    List.flatMap_eq_nil_iff.mpr fun _ _ => rfl
  rw [silent] at runs
  exact ⟨mid, after, ran, runs, all.introduced sized⟩

/-- The clients are introduced one after another. -/
theorem Introduced.exists_runs (sized : Sized o) (introduced : Introduced o [] net) :
    ∃ after, Introduced o (clientIds o.clients.toNat) after ∧
      Script.Runs ((clientIds o.clients.toNat).forM (Script.negotiate o.coordinator)) net () after
        ((List.range' 1 o.clients.toNat).flatMap introduction) := by
  obtain ⟨-, few⟩ := sized.clients
  rw [← toNat_clientIds (by omega), List.flatMap_map]
  refine Script.runs_forM (Introduced o) _ _ _ ?_ introduced
  intro done q rest net split introduced
  obtain ⟨new, client⟩ := not_mem_of_split (nodup_clientIds (by omega)) split
  exact introduced.negotiate sized new client

/-- Round after round the clients pass messages on. -/
theorem Present.exists_runs (sized : Sized o) (present : Present o net) :
    ∃ after, Present o after ∧
      Script.Runs ((List.range o.rounds).forM fun round => (clientIds o.clients.toNat).forM
          fun q => Script.pass round q (next o q)) net () after
        ((List.range o.rounds).flatMap fun round =>
          (List.range' 1 o.clients.toNat).map (relay o.clients.toNat round)) := by
  obtain ⟨-, few⟩ := sized.clients
  refine Script.runs_forM (fun _ => Present o) _ _ _ ?_ present
  intro _ round _ net split present
  have now : round < o.rounds := List.mem_range.mp (by rw [split]; simp)
  rw [← toNat_clientIds (by omega), List.map_map, List.map_eq_flatMap]
  refine Script.runs_forM (fun _ => Present o) _ _ _ ?_ present
  intro _ q _ net split present
  exact present.pass sized (by rw [split]; simp) now

/-- The whole script runs to its end. -/
theorem exists_runs_demonstration (sized : Sized o)
    (created : Mailbox.create storage o.layout = .ok b) (host : HostAnswer) :
    ∃ after, Present o after ∧ Script.Runs (demonstration host o) (ofMailbox b) () after
      (transcript o.clients.toNat o.rounds) := by
  obtain ⟨net₁, net₂, attached, attached', introduced⟩ := exists_runs_attach sized created host
  obtain ⟨net₃, introduced', negotiated⟩ := introduced.exists_runs sized
  obtain ⟨n, net₄, present, drained⟩ :=
    introduced'.bindClass sized (clientIds o.clients.toNat).length
  obtain ⟨net₅, present', passed⟩ := present.exists_runs sized
  refine ⟨net₅, present', ?_⟩
  have bound := Script.runs_modify net₃ fun net => (Fabric.bindClass o.className net).2
  have layout : (ofMailbox b).layout = o.layout := (Mailbox.eq_of_create created).1
  unfold demonstration
  refine Script.runs_get fun lines => ?_
  simp only [layout]
  exact attached.bind (attached'.bind (negotiated.bind (bound.bind (drained.bind passed))))

/-- **Demonstrations succeed.** For every number of clients from 1 to 65533, every size of the slots
    from 256 on such that all of them have less than 2^56 bytes, every number of rounds and every
    class, on every host: if the storage that is asked for is to be had, a demonstration runs to its
    end. It introduces the clients in order, and then in each round each of them in order passes a
    message on to the next one, which is itself if there is no other. -/
theorem runWith_succeeds (sized : Sized o) (host : Host) {size : Nat}
    (provided : (host.storage o.file).size (o.slotSize.toNat * (o.clients.toNat + 2)) =
      .ok size) :
    (runWith host o).code = succeeded ∧
      (runWith host o).lines = transcript o.clients.toNat o.rounds ∧
      (runWith host o).lines.length =
        3 * o.clients.toNat + o.clients.toNat * o.rounds := by
  obtain ⟨b, created⟩ : ∃ b, Mailbox.create (host.storage o.file) o.layout = .ok b := by
    have validated : o.layout.validate = .ok () := sized.valid
    have bytes : o.layout.size = o.slotSize.toNat * (o.clients.toNat + 2) := by
      rw [Layout.size, sized.size?_eq, Option.getD_some]
    simp only [Mailbox.create, validated, bytes, provided, Except.ok.injEq, exists_eq']
  obtain ⟨after, -, runs⟩ := exists_runs_demonstration sized created host.name
  have ran : runWith host o =
      { code := succeeded, lines := transcript o.clients.toNat o.rounds } := by
    unfold Options.layout at created
    simp only [runWith, created, runs #[], Array.empty_append]
  rw [ran]
  exact ⟨rfl, rfl, length_transcript _ _⟩

/-- A host with a name, with memory for everything, and on which every file can be made. -/
def mill : Host where
  name := millHost
  allocates _ := true
  refusal _ := ⟨none, fun _ => none⟩

/-- Two clients on a heap, for three rounds. -/
theorem runWith_succeeds_small :
    (runWith mill { clients := 2, slotSize := 256, rounds := 3 }).code = succeeded ∧
      (runWith mill { clients := 2, slotSize := 256, rounds := 3 }).lines =
        transcript 2 3 ∧
      (runWith mill { clients := 2, slotSize := 256, rounds := 3 }).lines.length =
        3 * 2 + 2 * 3 :=
  runWith_succeeds (o := { clients := 2, slotSize := 256, rounds := 3 })
    ⟨by decide, by decide, by decide, by decide⟩ mill
    (show (heapSize (fun _ => true) (256 * (2 + 2))) = .ok 1024 from rfl)

end SharedMailbox.Demo
