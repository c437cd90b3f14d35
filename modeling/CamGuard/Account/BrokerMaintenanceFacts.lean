/-
Retransmission and reassembly: fragments of messages that arrive in any order and
any number of times are tolerated exactly as long as the messages in progress,
counting those that late fragments have reopened, fit the groups
(`reassembly_tolerates_iff`). A broker session, which has two groups, is closed by
the first fragment that does not fit.
-/
import CamGuard.Account.BrokerMaintenance
import CamGuard.Account.FragmentsFacts
import CamGuard.Crypto.GuteFacts

namespace CamGuard.Account

open CamGuard.Crypto

/-! ## Packets -/

theorem length_unmask {wire : Bytes} (h : 0x18 ≤ wire.length) (mask : Nat) :
    (unmask wire mask).1.length = wire.length := by
  have hloop (offsets : List Nat) (hoffsets : ∀ off ∈ offsets, off + 2 ≤ wire.length) (s : Bytes × Nat)
      (hs : s.1.length = wire.length) :
      (offsets.foldl (fun (s : Bytes × Nat) off =>
        let value := s.1.field 2 off ^^^ mask
        (s.1.put off (Bytes.ofNat 2 value), s.2 ||| value)) s).1.length = wire.length := by
    induction offsets generalizing s with
    | nil => exact hs
    | cons off offsets ih =>
      refine ih (fun o ho => hoffsets o (by simp [ho])) _ ?_
      have hoff := hoffsets off (by simp)
      rw [Bytes.length_put (by rw [Bytes.length_ofNat, hs]; exact hoff), hs]
  refine hloop maskedOffsets (fun off hoff => ?_) _ rfl
  have hsmall : off ≤ 18 := by
    revert off
    decide
  omega

theorem decodeFragmentPacket_ok {wire : Bytes} {packet : FragmentPacket}
    (h : decodeFragmentPacket wire = .ok packet) :
    wire.slice 0 2 = [0x70, 0x01] ∧ packet.decodedHeader.length = 0x18 := by
  unfold decodeFragmentPacket at h
  split at h
  · cases h
  next hlead =>
    simp only [not_or, not_lt, not_not] at hlead
    split at h
    · cases h
    · simp only at h
      split at h
      · cases h
      · rw [Except.ok.injEq] at h
        have hheader : packet.decodedHeader = (unmask wire (wire.field 2 0x14)).1.slice 0 0x18 := by rw [← h]
        have hlen := length_unmask hlead.1 (wire.field 2 0x14)
        refine ⟨hlead.2, ?_⟩
        rw [hheader, Bytes.slice_length (by rw [hlen]; exact hlead.1)]

theorem buildFragmentAck_ok {packet : FragmentPacket} (h : packet.decodedHeader.length = 0x18) (mask : Fin (2 ^ 16)) :
    ∃ ack, buildFragmentAck packet mask = .ok ack := by
  have hlen : ([0x70, 0x02, 0x18, 0x00] ++ packet.decodedHeader.slice 4 0x10 ++ Bytes.zeros 4).length = 0x18 := by
    rw [List.length_append, List.length_append, Bytes.slice_length (by omega), Bytes.length_zeros]
    rfl
  have hmask := mask.isLt
  unfold buildFragmentAck encodeFragmentHeader
  rw [if_neg (by rw [hlen]; simp [Bytes.at_]), if_neg (by omega)]
  exact ⟨_, rfl⟩

namespace BrokerMaintenance

/-! ## One datagram -/

theorem message_ok (b : BrokerMaintenance) (node : CertifiedNode) {d : Datagram} (h : ∀ plain, d.inspect plain = true)
    (wire : Bytes) (replies : List Bytes) :
    ∃ replies' b', b.message node d wire replies = (.ok replies', b') ∧ b'.node = b.node ∧ b'.fragments = b.fragments ∧
      b'.deadline = b.deadline ∧ b'.input = b.input := by
  unfold message
  split
  · exact ⟨_, _, rfl, rfl, rfl, rfl, rfl⟩
  next hmode =>
    split
    · exact ⟨_, _, rfl, rfl, rfl, rfl, rfl⟩
    next plain hplain =>
      split
      · exact ⟨_, _, rfl, rfl, rfl, rfl, rfl⟩
      · simp only [h plain, Bool.true_eq_false, if_false]
        split
        · have hkey : node.sessionKey.length = 32 := by
            simp only [not_or, not_not] at hmode
            unfold decryptNodeFrame at hplain
            split at hplain
            · cases hplain
            · rw [hmode.2] at hplain
              cases hdecrypt : guteMode2Decrypt wire node.sessionKey with
              | error e => rw [hdecrypt] at hplain; cases hplain
              | ok p => exact (guteMode2Decrypt_eq_ok.mp hdecrypt).1
          obtain ⟨ack, hack, -⟩ := buildMode2ResponseAck_ok node hkey plain
          rw [hack]
          exact ⟨_, _, rfl, rfl, rfl, rfl, rfl⟩
        · exact ⟨_, _, rfl, rfl, rfl, rfl, rfl⟩

/-- What the budget has left after a datagram, if it admits it. -/
def spend (deadline : Option ℚ) (input : Option TrafficBudget) (d : Datagram) : Option TrafficBudget :=
  input.bind fun input =>
    if (deadline.any fun deadline => decide (deadline ≤ d.now)) ∨ 4096 < d.wire.length then none
    else
      match input.charge d.charged d.wire.length with
      | (.error _, _) => none
      | (.ok (), input) => some input

/-- **A fragment within the budget**: the session is closed if the reassembler
refuses it, and goes on otherwise. -/
theorem receive_fragment {b : BrokerMaintenance} {node : CertifiedNode} {d : Datagram} {packet : FragmentPacket}
    {input : TrafficBudget} (hnode : b.node = some node) (hpeer : d.peer = node.address)
    (hinspect : ∀ plain, d.inspect plain = true) (hspend : spend b.deadline (some b.input) d = some input)
    (hdecode : decodeFragmentPacket d.wire = .ok packet) :
    ((∃ e, (b.fragments.add packet).1 = .error e) ∧ (b.receive d).2.node = none) ∨
    (∃ out, (b.fragments.add packet).1 = .ok out) ∧ (b.receive d).2.node = some node ∧
      (b.receive d).2.fragments = (b.fragments.add packet).2 ∧ (b.receive d).2.deadline = b.deadline ∧
      (b.receive d).2.input = input := by
  obtain ⟨hlead, hheader⟩ := decodeFragmentPacket_ok hdecode
  obtain ⟨ack, hack⟩ := buildFragmentAck_ok hheader d.mask
  unfold spend at hspend
  rw [Option.bind_some] at hspend
  split at hspend
  · cases hspend
  next hadmitted =>
    unfold receive handle
    simp only [hnode, hadmitted, if_false]
    cases hcharge : b.input.charge d.charged d.wire.length with
    | mk result left =>
      rw [hcharge] at hspend
      cases result with
      | error e => cases hspend
      | ok _ =>
        cases hspend
        simp only [hpeer, ne_eq, not_true_eq_false, if_false, hlead, if_true, hdecode]
        cases hadd : b.fragments.add packet with
        | mk out fragments =>
          cases out with
          | error e => exact .inl ⟨⟨e, rfl⟩, rfl⟩
          | ok assembled =>
            refine .inr ⟨⟨assembled, rfl⟩, ?_⟩
            simp only [hack]
            cases assembled with
            | none => exact ⟨rfl, rfl, rfl, rfl⟩
            | some whole =>
              simp only
              generalize hstate : BrokerMaintenance.mk .. = b₁
              obtain ⟨replies, b', heq, hnode', hfragments, hdeadline, hinput⟩ :=
                message_ok b₁ node hinspect whole [ack]
              rw [heq]
              simp only [hnode', hfragments, hdeadline, hinput, ← hstate, and_self]

/-! ## Runs -/

theorem run_append (b : BrokerMaintenance) (datagrams : List Datagram) (d : Datagram) :
    b.run (datagrams ++ [d]) = ((b.run datagrams).receive d).2 := by
  simp [run]

/-- The budget admits all of them. -/
def Admitted (b : BrokerMaintenance) (datagrams : List Datagram) : Prop :=
  (datagrams.foldl (spend b.deadline) (some b.input)).isSome

theorem Admitted.append {b : BrokerMaintenance} {datagrams : List Datagram} {d : Datagram}
    (h : b.Admitted (datagrams ++ [d])) : b.Admitted datagrams := by
  unfold Admitted at h ⊢
  rw [List.foldl_append, List.foldl_cons, List.foldl_nil, spend] at h
  cases hbefore : datagrams.foldl (spend b.deadline) (some b.input) with
  | none => rw [hbefore] at h; cases h
  | some input => rfl

/-- The datagrams are fragments from the broker, and are not inspected. -/
structure Carries (node : CertifiedNode) (datagrams : List Datagram) (packets : List FragmentPacket) : Prop where
  decoded : datagrams.map (fun d => decodeFragmentPacket d.wire) = packets.map .ok
  peer : ∀ d ∈ datagrams, d.peer = node.address
  inspect : ∀ d ∈ datagrams, ∀ plain, d.inspect plain = true

/-- **A session is open as long as no fragment was refused.** -/
theorem run_fragments {b : BrokerMaintenance} {node : CertifiedNode} (hnode : b.node = some node)
    (hfresh : b.fragments = { maxGroups := 2 }) {datagrams : List Datagram} {packets : List FragmentPacket}
    (hcarries : Carries node datagrams packets) (hadmitted : b.Admitted datagrams) :
    ((b.run datagrams).node = some node ∧ (b.run datagrams).deadline = b.deadline ∧
      some (b.run datagrams).input = datagrams.foldl (spend b.deadline) (some b.input) ∧
      (b.run datagrams).fragments = (FragmentRun.run { maxGroups := 2 } packets).reassembler ∧
      ∀ entry ∈ (FragmentRun.run { maxGroups := 2 } packets).log, ∃ out, entry.2 = .ok out) ∨
    (b.run datagrams).node = none ∧
      ∃ entry ∈ (FragmentRun.run { maxGroups := 2 } packets).log, ∃ e, entry.2 = .error e := by
  induction datagrams using List.reverseRecOn generalizing packets with
  | nil =>
    obtain rfl : packets = [] := by simpa using hcarries.decoded.symm
    exact .inl ⟨hnode, rfl, rfl, hfresh, fun entry hentry => by cases hentry⟩
  | append_singleton datagrams d ih =>
    obtain ⟨hdecoded, hpeer, hinspect⟩ := hcarries
    rw [List.map_append, List.map_singleton] at hdecoded
    obtain ⟨before, last, rfl, hbefore, hlast⟩ := List.map_eq_append_iff.mp hdecoded.symm
    obtain ⟨packet, rfl, hpacket⟩ := List.map_eq_singleton_iff.mp hlast
    rw [run_append, FragmentRun.run_append]
    have hcarries : Carries node datagrams before :=
      ⟨hbefore.symm, fun d' hd' => hpeer d' (by simp [hd']), fun d' hd' => hinspect d' (by simp [hd'])⟩
    rcases ih hcarries hadmitted.append with ⟨hopen, hdeadline, hinput, hfragments, hok⟩ | ⟨hclosed, entry, hentry, e, he⟩
    · have hspend : ∃ input, spend (b.run datagrams).deadline (some (b.run datagrams).input) d = some input := by
        unfold Admitted at hadmitted
        rw [List.foldl_append, List.foldl_cons, List.foldl_nil, ← hinput, ← hdeadline] at hadmitted
        exact Option.isSome_iff_exists.mp hadmitted
      obtain ⟨input, hspend⟩ := hspend
      have hreceive := receive_fragment hopen (hpeer d (by simp)) (hinspect d (by simp)) hspend hpacket.symm
      rw [hfragments] at hreceive
      unfold FragmentRun.step
      rcases hreceive with ⟨⟨e, he⟩, hclosed⟩ | ⟨⟨out, hout⟩, hnode', hfragments', hdeadline', hinput'⟩
      · exact .inr ⟨hclosed, _, List.mem_append_right _ (List.mem_singleton_self _), e, he⟩
      · refine .inl ⟨hnode', hdeadline'.trans hdeadline, ?_, hfragments', fun entry hentry => ?_⟩
        · rw [List.foldl_append, List.foldl_cons, List.foldl_nil, ← hinput, ← hdeadline, hspend, hinput']
        · rcases List.mem_append.mp hentry with hentry | hentry
          · exact hok entry hentry
          · rw [List.mem_singleton.mp hentry]
            exact ⟨out, hout⟩
    · refine .inr ⟨?_, entry, List.mem_append_left _ hentry, e, he⟩
      unfold receive
      rw [hclosed]
      exact hclosed

end BrokerMaintenance

open BrokerMaintenance CamGuard.Account.Delivery FragmentRun

/-- **When retransmission is tolerated.** For messages with distinct keys whose
fragments are delivered in any order and number: no packet is refused and every
complete message is returned as it was, if and only if at every moment the messages
that are not complete and those that late fragments have reopened are at most the
number of groups. A broker session that is sent such fragments within its budget
stays open if and only if they are at most two. -/
theorem reassembly_tolerates_iff (messages : List FragmentedMessage)
    (hdistinct : (messages.map FragmentedMessage.key).Nodup) (ds : List Delivery)
    (hds : ∀ d ∈ ds, d.message ∈ messages) :
    (∀ n r, FragmentReassembler.new n = .ok r →
      (Tolerated messages ds (run r (ds.map packet)).log ↔
        ∀ before, before <+: ds → pending before + reopened before ≤ n)) ∧
    ∀ (b : BrokerMaintenance) node datagrams, b.node = some node → b.fragments = { maxGroups := 2 } →
      Carries node datagrams (ds.map packet) → b.Admitted datagrams →
      ((b.run datagrams).closed = false ↔ ∀ before, before <+: ds → pending before + reopened before ≤ 2) := by
  constructor
  · intro n r hnew
    unfold FragmentReassembler.new at hnew
    split at hnew
    · cases hnew
    · cases hnew
      exact ⟨fun h => bounded_of_accepted hdistinct hds h.accepted, fun h => (run_bounded hdistinct hds h).2.2⟩
  · intro b node datagrams hnode hfresh hcarries hadmitted
    rcases run_fragments hnode hfresh hcarries hadmitted with ⟨hopen, -, -, -, hok⟩ | ⟨hclosed, entry, hentry, e, he⟩
    · have hbounded := bounded_of_accepted hdistinct hds hok
      exact ⟨fun _ => hbounded, fun _ => by rw [closed, hopen]; rfl⟩
    · constructor
      · intro h
        rw [closed, hclosed] at h
        cases h
      · intro h
        obtain ⟨out, hout⟩ := (run_bounded hdistinct hds h).2.2.accepted entry hentry
        rw [he] at hout
        cases hout

/-- A message of two bytes in two fragments. -/
def twoPart (sequence : Nat) : FragmentedMessage where
  identity := 1
  sequence := sequence
  largePayload := false
  parts := [[1], [2]]
  chunk := 1
  count := by decide
  positive := by decide
  equal := by decide
  last := by decide

/-- The first and the second fragment of it. -/
def firstOf (sequence : Nat) : Delivery := ⟨twoPart sequence, 0, [], by simp [twoPart]⟩

def secondOf (sequence : Nat) : Delivery := ⟨twoPart sequence, 1, [], by simp [twoPart]⟩

/-- Two messages, complete; the first fragment of each again; then a third message. -/
def lateFragments : List Delivery :=
  [firstOf 0, secondOf 0, firstOf 1, secondOf 1, firstOf 0, firstOf 1, firstOf 2]

/-- With two groups the third message is refused, though never more than one is in
progress. -/
theorem late_fragments_refused : ¬ ∀ (messages : List FragmentedMessage) (ds : List Delivery) (n : Nat)
    (r : FragmentReassembler), (messages.map FragmentedMessage.key).Nodup → (∀ d ∈ ds, d.message ∈ messages) →
    FragmentReassembler.new n = .ok r → (∀ before, before <+: ds → pending before ≤ n) →
    Tolerated messages ds (run r (ds.map packet)).log := by
  intro h
  have hpending : ∀ before ∈ lateFragments.inits, pending before ≤ 2 := by decide +kernel
  have htolerated := h [twoPart 0, twoPart 1, twoPart 2] lateFragments 2 { maxGroups := 2 } (by decide +kernel)
    (by simp [lateFragments, firstOf, secondOf]) rfl fun before hbefore => hpending before ((List.mem_inits ..).mpr hbefore)
  have hrefused : ((firstOf 2).packet, .error .groups) ∈
      (run { maxGroups := 2 } (lateFragments.map packet)).log := by decide +kernel
  obtain ⟨out, hout⟩ := htolerated.accepted _ hrefused
  cases hout

/-- One message and a late fragment of it. -/
theorem reassembly_tolerates_late : Tolerated [twoPart 0] [firstOf 0, secondOf 0, firstOf 0]
    (run { maxGroups := 2 } ([firstOf 0, secondOf 0, firstOf 0].map packet)).log := by
  have hbound : ∀ before ∈ [firstOf 0, secondOf 0, firstOf 0].inits, pending before + reopened before ≤ 2 := by
    decide +kernel
  refine ((reassembly_tolerates_iff [twoPart 0] (by decide +kernel) [firstOf 0, secondOf 0, firstOf 0]
    (by simp [firstOf, secondOf])).1 2 { maxGroups := 2 } rfl).mpr ?_
  exact fun before hbefore => hbound before ((List.mem_inits ..).mpr hbefore)

end CamGuard.Account
