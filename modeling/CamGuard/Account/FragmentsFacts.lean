/-
What reassembly makes of messages that are cut into fragments and delivered in
any order, with duplicates. A message whose fragments are all there is returned
and forgotten, so that fragments of it that come again open a group again
(`late`): the groups are the messages that are not complete and those that were
reopened, and a packet is refused exactly when these are too many
(`Matches.delivered`).
-/
import CamGuard.Account.Fragments
import Mathlib.Data.List.Dedup
import Mathlib.Data.List.Induction

namespace CamGuard.Account

/-! ## Messages and deliveries -/

/-- A message cut into equal chunks, the last of which may be shorter. -/
structure FragmentedMessage where
  identity : Nat
  sequence : Nat
  largePayload : Bool
  parts : List Bytes
  chunk : Nat
  count : 2 ≤ parts.length ∧ parts.length ≤ 0x7F
  positive : 0 < chunk
  equal : ∀ part ∈ parts.dropLast, part.length = chunk
  last : (parts.getLastD []).length ≤ chunk

namespace FragmentedMessage

def original (m : FragmentedMessage) : Bytes := m.parts.flatten

def key (m : FragmentedMessage) : FragmentKey :=
  ⟨m.identity, m.sequence, m.original.length, m.parts.length, m.largePayload⟩

end FragmentedMessage

/-- One arrival of one fragment; the header as decoded may differ from one arrival
to the next. -/
structure Delivery where
  message : FragmentedMessage
  index : Nat
  header : Bytes
  fits : index < message.parts.length

namespace Delivery

def key (d : Delivery) : FragmentKey := d.message.key

def packet (d : Delivery) : FragmentPacket where
  decodedHeader := d.header
  identity := d.message.identity
  sequence := d.message.sequence
  originalLength := d.message.original.length
  total := d.message.parts.length
  index := d.index
  largePayload := d.message.largePayload
  payload := d.message.parts.getD d.index []

@[simp] theorem packet_key (d : Delivery) : d.packet.key = d.key := rfl

/-- The fragments of a message that have arrived, in order of arrival. -/
def arrived (ds : List Delivery) (k : FragmentKey) : List Nat := (ds.filter fun d => d.key = k).map Delivery.index

/-- All its fragments have arrived. -/
def complete (ds : List Delivery) (k : FragmentKey) : Bool := (List.range k.total).all fun i => i ∈ arrived ds k

/-- One more fragment; a full set is done with. -/
def collect (total : Nat) (indices : List Nat) (i : Nat) : List Nat :=
  if (indices.insert i).length = total then [] else indices.insert i

/-- The fragments that have arrived since the last full set of the message. -/
def late (ds : List Delivery) (k : FragmentKey) : List Nat := (arrived ds k).foldl (collect k.total) []

/-- The messages of which something has arrived. -/
def started (ds : List Delivery) : List FragmentKey := (ds.map Delivery.key).dedup

/-- Started, and not yet complete. -/
def pending (ds : List Delivery) : Nat := (started ds).countP fun k => !complete ds k

/-- Complete, and started again by fragments that came late. -/
def reopened (ds : List Delivery) : Nat := (started ds).countP fun k => complete ds k && !(late ds k).isEmpty

/-! ## One more delivery -/

theorem arrived_append (ds : List Delivery) (d : Delivery) (k : FragmentKey) :
    arrived (ds ++ [d]) k = arrived ds k ++ if d.key = k then [d.index] else [] := by
  simp only [arrived, List.filter_append, List.map_append]
  by_cases h : d.key = k <;> simp [h]

theorem late_append (ds : List Delivery) (d : Delivery) (k : FragmentKey) :
    late (ds ++ [d]) k = if d.key = k then collect k.total (late ds k) d.index else late ds k := by
  unfold late
  rw [arrived_append]
  by_cases h : d.key = k
  · simp [h]
  · simp [h]

theorem mem_started {ds : List Delivery} {k : FragmentKey} : k ∈ started ds ↔ ∃ d ∈ ds, d.key = k := by
  simp [started]

theorem arrived_eq_nil {ds : List Delivery} {k : FragmentKey} : arrived ds k = [] ↔ k ∉ started ds := by
  simp [arrived, mem_started]

/-- The indices since the last full set: no repeats, and all of the message. -/
theorem late_nodup (ds : List Delivery) (k : FragmentKey) : (late ds k).Nodup := by
  induction ds using List.reverseRecOn with
  | nil => exact List.nodup_nil
  | append_singleton ds d ih =>
    rw [late_append]
    split
    · unfold collect
      split
      · exact List.nodup_nil
      · exact ih.insert
    · exact ih

theorem late_lt {ds : List Delivery} {k : FragmentKey} {i : Nat} (h : i ∈ late ds k) : i < k.total := by
  induction ds using List.reverseRecOn with
  | nil => cases h
  | append_singleton ds d ih =>
    rw [late_append] at h
    split at h
    next hkey =>
      unfold collect at h
      split at h
      · cases h
      · rcases List.mem_insert_iff.mp h with rfl | h
        · rw [← hkey]
          exact d.fits
        · exact ih h
    · exact ih h

theorem insert_late_lt {ds : List Delivery} {d : Delivery} {i : Nat} (h : i ∈ (late ds d.key).insert d.index) :
    i < d.key.total := by
  rcases List.mem_insert_iff.mp h with rfl | h
  · exact d.fits
  · exact late_lt h

theorem range_subset {indices : List Nat} {total : Nat} (hnodup : indices.Nodup) (hlt : ∀ i ∈ indices, i < total)
    (hlen : indices.length = total) {i : Nat} (hi : i < total) : i ∈ indices := by
  have hsub : indices ⊆ List.range total := fun j hj => List.mem_range.mpr (hlt j hj)
  have hperm := (List.subperm_of_subset hnodup hsub).perm_of_length_le (by rw [List.length_range, hlen])
  exact hperm.mem_iff.mpr (List.mem_range.mpr hi)

theorem complete_iff {ds : List Delivery} {k : FragmentKey} :
    complete ds k = true ↔ ∀ i < k.total, i ∈ arrived ds k := by
  simp [complete]

theorem complete_append {ds : List Delivery} {d : Delivery} {k : FragmentKey} (h : complete ds k = true) :
    complete (ds ++ [d]) k = true := by
  rw [complete_iff] at h ⊢
  intro i hi
  rw [arrived_append]
  exact List.mem_append_left _ (h i hi)

/-- Until a message is complete, all that has arrived of it is kept. -/
theorem mem_late {ds : List Delivery} {k : FragmentKey} (h : complete ds k = false) (i : Nat) :
    i ∈ late ds k ↔ i ∈ arrived ds k := by
  induction ds using List.reverseRecOn generalizing i with
  | nil => rfl
  | append_singleton ds d ih =>
    have hbefore : complete ds k = false := by
      rw [Bool.eq_false_iff] at h ⊢
      exact fun hdone => h (complete_append hdone)
    have harrived := arrived_append ds d k
    rw [late_append]
    by_cases hkey : d.key = k
    · rw [if_pos hkey] at harrived ⊢
      have hmem (j : Nat) : j ∈ (late ds k).insert d.index ↔ j ∈ arrived (ds ++ [d]) k := by
        rw [harrived, List.mem_insert_iff, ih hbefore j, List.mem_append, List.mem_singleton, or_comm]
      unfold collect
      split
      next hfull =>
        -- a full set would make the message complete
        refine absurd (complete_iff.mpr fun j hj => ?_) (Bool.eq_false_iff.mp h)
        rw [← hkey] at hfull hmem hj ⊢
        exact (hmem j).mp (range_subset (late_nodup ds d.key).insert (fun _ => insert_late_lt) hfull hj)
      · exact hmem i
    · rw [if_neg hkey] at harrived ⊢
      rw [harrived, List.append_nil]
      exact ih hbefore i

theorem late_eq_nil {ds : List Delivery} {k : FragmentKey} (h : k ∉ started ds) : late ds k = [] := by
  rw [late, arrived_eq_nil.mpr h]
  rfl

/-- The groups there are: what is pending and what was reopened. -/
theorem pending_add_reopened (ds : List Delivery) :
    pending ds + reopened ds = ((started ds).filter fun k => !(late ds k).isEmpty).length := by
  rw [← List.countP_eq_length_filter, pending, reopened,
    List.countP_eq_countP_filter_add (started ds) (fun k => !(late ds k).isEmpty) fun k => !complete ds k,
    List.countP_filter, List.countP_filter]
  congr 1
  · refine List.countP_congr fun k hk => ?_
    cases hdone : complete ds k with
    | true => simp
    | false =>
      have hlate : late ds k ≠ [] := by
        intro hnil
        obtain ⟨d, hd, hkey⟩ := mem_started.mp hk
        have harrived : d.index ∈ arrived ds k := by
          simp only [arrived, List.mem_map, List.mem_filter, decide_eq_true_eq]
          exact ⟨d, ⟨hd, hkey⟩, rfl⟩
        rw [← mem_late hdone, hnil] at harrived
        cases harrived
      simp [hlate]
  · refine List.countP_congr fun k hk => ?_
    cases complete ds k <;> simp

end Delivery

/-! ## What is assembled -/

theorem FragmentedMessage.assemble (m : FragmentedMessage) :
    FragmentReassembler.assemble m.original.length m.parts.length m.parts = .ok m.original := by
  obtain ⟨identity, sequence, largePayload, parts, chunk, ⟨hcount, -⟩, hpositive, hequal, hlast⟩ := m
  simp only [original] at *
  have hhead : (parts.headD []).length = chunk := by
    match parts, hcount with
    | first :: second :: rest, _ => exact hequal first (by simp)
  have hchunks : (parts.dropLast.any fun part => decide (part.length ≠ chunk)) = false := by
    simp only [List.any_eq_false, decide_eq_true_eq, not_not]
    exact hequal
  unfold FragmentReassembler.assemble
  simp only [hhead, hchunks]
  rw [if_neg (by simp; omega), if_neg (by omega), if_neg (by simp)]

open CamGuard.Account.Delivery

/-- A group holds what has arrived of its message since the last full set. -/
structure Matches (messages : List FragmentedMessage) (r : FragmentReassembler) (ds : List Delivery) : Prop where
  groups : ∀ k, r.groups.get? k = none ↔ late ds k = []
  parts : ∀ m ∈ messages, ∀ parts, r.groups.get? m.key = some parts →
    ∀ i, parts.get? i = if i ∈ late ds m.key then some (m.parts.getD i []) else none

namespace Matches

variable {messages : List FragmentedMessage} {r : FragmentReassembler} {ds : List Delivery}

theorem size (h : Matches messages r ds) : r.groups.size = pending ds + reopened ds := by
  rw [pending_add_reopened]
  refine Dict.size_eq_length ((List.nodup_dedup _).filter _) fun k => ?_
  rw [h.groups, List.mem_filter, Bool.not_eq_eq_eq_not, Bool.not_true, List.isEmpty_eq_false_iff, not_and, not_not]
  constructor
  · exact fun hnil _ => hnil
  · intro hnil
    by_cases hstarted : k ∈ started ds
    · exact hnil hstarted
    · exact late_eq_nil hstarted

theorem group (h : Matches messages r ds) {m : FragmentedMessage} (hm : m ∈ messages) (i : Nat) :
    ((r.groups.get? m.key).getD ∅).get? i = if i ∈ late ds m.key then some (m.parts.getD i []) else none := by
  cases hget : r.groups.get? m.key with
  | none => simp [(h.groups m.key).mp hget]
  | some parts => exact h.parts m hm parts hget i

theorem group_set (h : Matches messages r ds) {d : Delivery} (hm : d.message ∈ messages) (i : Nat) :
    (((r.groups.get? d.key).getD ∅).set d.index d.packet.payload).get? i =
      if i ∈ (late ds d.key).insert d.index then some (d.message.parts.getD i []) else none := by
  have hgroup := h.group hm i
  rw [Dict.get?_set]
  by_cases hi : i = d.index
  · rw [if_pos hi, if_pos (List.mem_insert_iff.mpr (.inl hi)), hi]
    rfl
  · rw [if_neg hi]
    simp only [List.mem_insert_iff, hi, false_or]
    exact hgroup

/-- The state after a fragment that leaves its message open. -/
theorem set (h : Matches messages r ds) (hdistinct : (messages.map FragmentedMessage.key).Nodup) {d : Delivery}
    (hm : d.message ∈ messages) (hopen : ((late ds d.key).insert d.index).length ≠ d.key.total) :
    Matches messages
      { r with groups := r.groups.set d.key (((r.groups.get? d.key).getD ∅).set d.index d.packet.payload) }
      (ds ++ [d]) := by
  constructor
  · intro k
    rw [late_append, Dict.get?_set]
    by_cases hk : k = d.key
    · have hsome : (late ds d.key).insert d.index ≠ [] := List.ne_nil_of_mem (List.mem_insert_self ..)
      rw [if_pos hk, if_pos hk.symm, hk, collect, if_neg hopen]
      simp [hsome]
    · rw [if_neg hk, if_neg (Ne.symm hk)]
      exact h.groups k
  · intro m hmem parts hget i
    rw [Dict.get?_set] at hget
    rw [late_append]
    by_cases hk : m.key = d.key
    · rw [if_pos hk] at hget
      cases hget
      have hsame : m = d.message := List.inj_on_of_nodup_map hdistinct hmem hm hk
      rw [if_pos hk.symm, hk, collect, if_neg hopen, h.group_set hm, hsame]
    · rw [if_neg hk] at hget
      rw [if_neg (Ne.symm hk)]
      exact h.parts m hmem parts hget i

/-- The state after a fragment that completes its message. -/
theorem erase (h : Matches messages r ds) {d : Delivery}
    (hfull : ((late ds d.key).insert d.index).length = d.key.total) :
    Matches messages { r with groups := r.groups.erase d.key } (ds ++ [d]) := by
  constructor
  · intro k
    rw [late_append, Dict.get?_erase]
    by_cases hk : k = d.key
    · rw [if_pos hk, if_pos hk.symm, hk, collect, if_pos hfull]
      simp
    · rw [if_neg hk, if_neg (Ne.symm hk)]
      exact h.groups k
  · intro m hmem parts hget i
    rw [Dict.get?_erase] at hget
    rw [late_append]
    by_cases hk : m.key = d.key
    · rw [if_pos hk] at hget
      cases hget
    · rw [if_neg hk] at hget
      rw [if_neg (Ne.symm hk)]
      exact h.parts m hmem parts hget i

/-- **What comes of a fragment.** It is refused when it would open one group too
many; otherwise it is kept, and the message returned if that makes it full. -/
theorem delivered (h : Matches messages r ds) (hdistinct : (messages.map FragmentedMessage.key).Nodup)
    {d : Delivery} (hm : d.message ∈ messages) :
    r.add d.packet = (.error .groups, r) ∧ late ds d.key = [] ∧ r.maxGroups ≤ pending ds + reopened ds ∨
    (late ds d.key ≠ [] ∨ pending ds + reopened ds < r.maxGroups) ∧
      ∃ r', Matches messages r' (ds ++ [d]) ∧ r'.maxGroups = r.maxGroups ∧
        (r.groups.size ≤ r.maxGroups → r'.groups.size ≤ r.maxGroups) ∧
        r.add d.packet = (.ok (if ((late ds d.key).insert d.index).length = d.key.total then some d.message.original
          else none), r') := by
  have hcount := d.message.count
  have hfits := d.fits
  have hindex : ¬ (d.packet.total < 1 ∨ 0x7F < d.packet.total ∨ d.packet.total ≤ d.packet.index) := by
    simp only [packet]
    omega
  unfold FragmentReassembler.add
  rw [if_neg hindex, packet_key]
  split
  next hgroups =>
    rw [Option.isNone_iff_eq_none, h.groups, h.size] at hgroups
    exact .inl ⟨rfl, hgroups⟩
  next hroom =>
    rw [Option.isNone_iff_eq_none, h.groups, h.size, not_and_or, not_le] at hroom
    refine .inr ⟨hroom, ?_⟩
    have hsame : ((((r.groups.get? d.key).getD ∅).get? d.packet.index).any fun previous =>
        decide (previous ≠ d.packet.payload)) = false := by
      have hgroup := h.group hm d.index
      rw [show d.packet.index = d.index from rfl, show d.key = d.message.key from rfl, hgroup]
      split <;> simp [packet]
    have hsize : (((r.groups.get? d.key).getD ∅).set d.index d.packet.payload).size =
        ((late ds d.key).insert d.index).length := by
      refine Dict.size_eq_length (late_nodup ds d.key).insert fun i => ?_
      rw [h.group_set hm]
      simp
    simp only [hsame, Bool.false_eq_true, if_false]
    rw [show d.packet.index = d.index from rfl, show d.packet.total = d.key.total from rfl, hsize]
    by_cases hfull : ((late ds d.key).insert d.index).length = d.key.total
    · have hordered : ((List.range d.key.total).map fun i =>
          ((((r.groups.get? d.key).getD ∅).set d.index d.packet.payload).get? i).getD []) = d.message.parts := by
        refine List.ext_getElem (by simp [key, FragmentedMessage.key]) fun i hi hi' => ?_
        have hmem := range_subset (late_nodup ds d.key).insert (fun _ => insert_late_lt) hfull
          (show i < d.key.total from hi')
        rw [List.getElem_map, List.getElem_range, h.group_set hm, if_pos hmem, Option.getD_some,
          List.getD_eq_getElem?_getD, List.getElem?_eq_getElem hi', Option.getD_some]
      rw [if_neg (not_not.mpr hfull), if_pos hfull, hordered]
      have hwhole := d.message.assemble
      refine ⟨_, h.erase hfull, rfl, fun hle => le_trans (Dict.size_erase_le ..) hle, ?_⟩
      rw [show d.packet.originalLength = d.message.original.length from rfl,
        show d.key.total = d.message.parts.length from rfl, hwhole]
    · rw [if_pos hfull, if_neg hfull]
      refine ⟨_, h.set hdistinct hm hfull, rfl, fun hle => ?_, rfl⟩
      cases hget : r.groups.get? d.key with
      | none =>
        have hsmall := hroom.resolve_left (not_not.mpr ((h.groups d.key).mp hget))
        rw [Dict.size_set_of_none hget, h.size]
        exact hsmall
      | some parts =>
        rw [Dict.size_set_of_some hget]
        exact hle

theorem opens (h : Matches messages r ds) (hdistinct : (messages.map FragmentedMessage.key).Nodup) {d : Delivery}
    (hm : d.message ∈ messages) (hnil : late ds d.key = []) :
    pending (ds ++ [d]) + reopened (ds ++ [d]) = pending ds + reopened ds + 1 := by
  have hcount := d.message.count.1
  have hopen : ((late ds d.key).insert d.index).length ≠ d.key.total := by
    rw [hnil]
    simp only [List.insert_nil, List.length_singleton, key, FragmentedMessage.key]
    omega
  have hset := (h.set hdistinct hm hopen).size
  rw [Dict.size_set_of_none ((h.groups d.key).mpr hnil), h.size] at hset
  exact hset.symm

end Matches

/-! ## Runs -/

/-- At every moment the messages that are not complete and those reopened by late
fragments are at most `n`. -/
def Bounded (n : Nat) (ds : List Delivery) : Prop := ∀ before, before <+: ds → pending before + reopened before ≤ n

theorem bounded_append {n : Nat} {ds : List Delivery} {d : Delivery} :
    Bounded n (ds ++ [d]) ↔ Bounded n ds ∧ pending (ds ++ [d]) + reopened (ds ++ [d]) ≤ n := by
  unfold Bounded
  simp only [List.prefix_concat_iff]
  constructor
  · intro h
    exact ⟨fun before hbefore => h before (.inr hbefore), h _ (.inl rfl)⟩
  · rintro ⟨h, hlast⟩ before (rfl | hbefore)
    · exact hlast
    · exact h before hbefore

namespace FragmentRun

theorem run_append (r : FragmentReassembler) (packets : List FragmentPacket) (p : FragmentPacket) :
    run r (packets ++ [p]) = (run r packets).step p := by
  simp [run]

/-- No packet was refused; every complete message was returned, and whatever was
returned is the message. -/
structure Tolerated (messages : List FragmentedMessage) (ds : List Delivery)
    (log : List (FragmentPacket × Except FragmentFault (Option Bytes))) : Prop where
  accepted : ∀ entry ∈ log, ∃ out, entry.2 = .ok out
  returned : ∀ m ∈ messages, complete ds m.key = true →
    ∃ entry ∈ log, entry.1.key = m.key ∧ entry.2 = .ok (some m.original)
  original : ∀ entry ∈ log, ∀ b, entry.2 = .ok (some b) → ∀ m ∈ messages, m.key = entry.1.key → b = m.original

variable {messages : List FragmentedMessage} (hdistinct : (messages.map FragmentedMessage.key).Nodup)

include hdistinct

theorem tolerated_append {ds : List Delivery} {d : Delivery} (hm : d.message ∈ messages)
    {log : List (FragmentPacket × Except FragmentFault (Option Bytes))} (h : Tolerated messages ds log) :
    Tolerated messages (ds ++ [d]) (log ++ [(d.packet, .ok (if ((late ds d.key).insert d.index).length = d.key.total
      then some d.message.original else none))]) := by
  refine ⟨?_, ?_, ?_⟩
  · intro entry hentry
    rcases List.mem_append.mp hentry with hentry | hentry
    · exact h.accepted entry hentry
    · rw [List.mem_singleton.mp hentry]
      exact ⟨_, rfl⟩
  · intro m hmem hdone
    cases hbefore : complete ds m.key with
    | true =>
      obtain ⟨entry, hentry, hreturned⟩ := h.returned m hmem hbefore
      exact ⟨entry, List.mem_append_left _ hentry, hreturned⟩
    | false =>
      have hkey : d.key = m.key := by
        by_contra hother
        rw [complete_iff, arrived_append, if_neg hother, List.append_nil, ← complete_iff, hbefore] at hdone
        cases hdone
      have hsame : d.message = m := List.inj_on_of_nodup_map hdistinct hm hmem hkey
      have hall (i : Nat) (hi : i < d.key.total) : i ∈ (late ds d.key).insert d.index := by
        rw [hkey] at hi ⊢
        have harrived := complete_iff.mp hdone i hi
        rw [arrived_append, if_pos hkey, List.mem_append, List.mem_singleton] at harrived
        rw [List.mem_insert_iff, mem_late hbefore]
        exact harrived.symm
      have hfull : ((late ds d.key).insert d.index).length = d.key.total := by
        rw [← List.length_range (n := d.key.total)]
        refine List.Perm.length_eq ((List.perm_ext_iff_of_nodup (late_nodup ds d.key).insert List.nodup_range).mpr ?_)
        exact fun i => ⟨fun hi => List.mem_range.mpr (insert_late_lt hi), fun hi => hall i (List.mem_range.mp hi)⟩
      refine ⟨_, List.mem_append_right _ (List.mem_singleton_self _), hkey, ?_⟩
      rw [if_pos hfull, hsame]
  · intro entry hentry b hb m hmem hkey
    rcases List.mem_append.mp hentry with hentry | hentry
    · exact h.original entry hentry b hb m hmem hkey
    · rw [List.mem_singleton.mp hentry] at hb hkey
      have hsame : m = d.message := List.inj_on_of_nodup_map hdistinct hmem hm hkey
      simp only [Except.ok.injEq] at hb
      split at hb
      · cases hb
        rw [hsame]
      · cases hb

variable {n : Nat} {ds : List Delivery} (hds : ∀ d ∈ ds, d.message ∈ messages)

include hds

/-- **Within the bound nothing is refused**, and the groups are what is open. -/
theorem run_bounded (h : Bounded n ds) :
    Matches messages (run { maxGroups := n } (ds.map packet)).reassembler ds ∧
    (run { maxGroups := n } (ds.map packet)).reassembler.maxGroups = n ∧
    Tolerated messages ds (run { maxGroups := n } (ds.map packet)).log := by
  induction ds using List.reverseRecOn with
  | nil =>
    refine ⟨⟨fun k => ?_, fun m _ parts hget => ?_⟩, rfl, ⟨?_, ?_, ?_⟩⟩
    · exact ⟨fun _ => rfl, fun _ => rfl⟩
    · cases hget
    · simp [run]
    · intro m _ hdone
      have hcount := m.count.1
      have harrived := complete_iff.mp hdone 0 (by simp only [FragmentedMessage.key]; omega)
      cases harrived
    · simp [run]
  | append_singleton ds d ih =>
    have hm := hds d (by simp)
    rw [bounded_append] at h
    obtain ⟨hmatch, hmax, htolerated⟩ := ih (fun d' hd' => hds d' (by simp [hd'])) h.1
    rw [List.map_append, List.map_singleton, run_append]
    rcases hmatch.delivered hdistinct hm with ⟨-, hnil, hfull⟩ | ⟨-, r', hmatch', hmax', -, heq⟩
    · have hopens := hmatch.opens hdistinct hm hnil
      omega
    · unfold step
      rw [heq]
      exact ⟨hmatch', hmax'.trans hmax, tolerated_append hdistinct hm htolerated⟩

/-- **Where nothing is refused the bound has held.** -/
theorem bounded_of_accepted
    (h : ∀ entry ∈ (run { maxGroups := n } (ds.map packet)).log, ∃ out, entry.2 = .ok out) : Bounded n ds := by
  induction ds using List.reverseRecOn with
  | nil =>
    intro before hbefore
    rw [List.prefix_nil.mp hbefore]
    exact Nat.zero_le n
  | append_singleton ds d ih =>
    have hm := hds d (by simp)
    have hds' : ∀ d' ∈ ds, d'.message ∈ messages := fun d' hd' => hds d' (by simp [hd'])
    rw [List.map_append, List.map_singleton, run_append] at h
    unfold step at h
    have hbounded := ih hds' fun entry hentry => h entry (List.mem_append_left _ hentry)
    obtain ⟨hmatch, hmax, -⟩ := run_bounded hdistinct hds' hbounded
    refine bounded_append.mpr ⟨hbounded, ?_⟩
    rcases hmatch.delivered hdistinct hm with ⟨heq, -, -⟩ | ⟨-, r', hmatch', -, hsize, -⟩
    · obtain ⟨out, hout⟩ := h (d.packet, .error .groups) (by rw [heq]; simp)
      cases hout
    · rw [← hmatch'.size, ← hmax]
      refine hsize ?_
      rw [hmatch.size, hmax]
      exact hbounded ds List.prefix_rfl

end FragmentRun

end CamGuard.Account
