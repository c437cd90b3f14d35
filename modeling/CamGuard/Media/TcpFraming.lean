/-
`MtpTcpFramer` (`mtp_tcp_framing.py`): MTP records cut from one TCP
connection. A feed appends what was read and cuts every complete record; the
loop stops where the rest is too short to decide, and any failure closes the
framer for good, discarding what it held and what this feed had cut.
-/
import CamGuard.Lib.Framing
import CamGuard.Media.Mtp

namespace CamGuard.Media

def TCP_RECORD_LIMIT : Nat := 1500
def MAX_READ_BYTES : Nat := 4096
def MAX_RECORDS_PER_FEED : Nat := 64

/-- The kinds of record the framer maps. -/
def inboundKinds : List Nat := [0x10, 0x50, 0x90, 0xD0]

/-- `MtpTcpFrameError`. -/
inductive FrameFault where
  | closed
  | read
  | lead
  | length (kind size : Nat)
  | batch
  | checksum
  | truncated
  deriving DecidableEq, Repr

def FrameFault.reason : FrameFault → String
  | .closed => "MTP TCP decoder is closed"
  | .read => "MTP TCP read exceeds admission policy"
  | .lead => "unmapped inbound MTP TCP prefix"
  | .length _ _ => "invalid MTP TCP record length"
  | .batch => "MTP TCP record batch exceeds admission policy"
  | .checksum => "invalid MTP TCP record checksum"
  | .truncated => "truncated MTP TCP stream"

def FrameFault.facts : FrameFault → List (String × Nat)
  | .length kind size => [("mtp_kind", kind), ("mtp_length", size)]
  | _ => []

/-- `MtpTcpFramer`. -/
structure MtpTcpFramer where
  buffer : Bytes := []
  closed : Bool := false
  deriving DecidableEq, Repr

namespace MtpTcpFramer

/-- `abort`. -/
def abort (_ : MtpTcpFramer) : MtpTcpFramer := { buffer := [], closed := true }

/-- The `while` loop of `feed`, on the bytes from `offset` on. Every turn takes
a record, so the bytes bound the turns. -/
def cut : Nat → Bytes → List Bytes → Except FrameFault (List Bytes × Bytes)
  | 0, unread, records => .ok (records, unread)
  | turns + 1, unread, records =>
    if unread.length < 4 then .ok (records, unread)
    else
      let lead : Bytes := unread.take 4
      if lead.at_ 0 ≠ 0xC0 ∨ lead.at_ 1 ∉ inboundKinds then .error .lead
      else
        let size := mtpFrameLength lead
        if ¬ (30 ≤ size ∧ size ≤ TCP_RECORD_LIMIT) then .error (.length (lead.at_ 1) size)
        else if unread.length < size then .ok (records, unread)
        else if MAX_RECORDS_PER_FEED ≤ records.length then .error .batch
        else
          let record := unread.take size
          if verifyMtpFrame record then cut turns (unread.drop size) (records ++ [record])
          else .error .checksum

/-- `feed`. -/
def feed (f : MtpTcpFramer) (data : Bytes) : Except FrameFault (List Bytes) × MtpTcpFramer :=
  if f.closed then (.error .closed, f)
  else if MAX_READ_BYTES < data.length then (.error .read, f.abort)
  else
    let unread := f.buffer ++ data
    match cut (unread.length + 1) unread [] with
    | .ok (records, rest) => (.ok records, { f with buffer := rest })
    | .error e => (.error e, f.abort)

/-- `finish`: nothing is emitted, so success is an empty list of records. -/
def finish (f : MtpTcpFramer) : Except FrameFault (List Bytes) × MtpTcpFramer :=
  if f.closed then (.error .closed, f)
  else if f.buffer ≠ [] then (.error .truncated, f.abort)
  else (.ok [], { f with closed := true })

/-- One call of the framer's owner. -/
inductive Call where
  | feed (data : Bytes)
  | finish
  deriving DecidableEq, Repr

def call (f : MtpTcpFramer) : Call → Except FrameFault (List Bytes) × MtpTcpFramer
  | .feed data => f.feed data
  | .finish => f.finish

/-- The outcomes of a sequence of calls, in order, and the framer after them. -/
def run : MtpTcpFramer → List Call → List (Except FrameFault (List Bytes)) × MtpTcpFramer
  | f, [] => ([], f)
  | f, c :: cs =>
    let r := f.call c
    let t := run r.2 cs
    (r.1 :: t.1, t.2)

end MtpTcpFramer

/-- A record the wire format admits: lead byte, mapped kind, size, checksum. -/
def ValidRecord (record : Bytes) : Prop :=
  record.at_ 0 = 0xC0 ∧ record.at_ 1 ∈ inboundKinds ∧
    30 ≤ record.length ∧ record.length ≤ TCP_RECORD_LIMIT ∧ verifyMtpFrame record = true

instance (record : Bytes) : Decidable (ValidRecord record) := inferInstanceAs (Decidable (_ ∧ _))

/-! ## The framing rule -/

/-- What the loop decides of the bytes from `offset` on, the batch limit apart. -/
def recordView (unread : Bytes) : Framing.Verdict Bytes FrameFault :=
  if unread.length < 4 then .wait
  else if unread.at_ 0 ≠ 0xC0 ∨ unread.at_ 1 ∉ inboundKinds then .bad .lead
  else
    let size := mtpFrameLength unread
    if ¬ (30 ≤ size ∧ size ≤ TCP_RECORD_LIMIT) then .bad (.length (unread.at_ 1) size)
    else if unread.length < size then .wait
    else if verifyMtpFrame (unread.take size) then .record (unread.take size) size
    else .bad .checksum

theorem recordView_record {unread r : Bytes} {n : Nat} (h : recordView unread = .record r n) :
    4 ≤ unread.length ∧ unread.at_ 0 = 0xC0 ∧ unread.at_ 1 ∈ inboundKinds ∧ n = mtpFrameLength unread ∧
      30 ≤ n ∧ n ≤ TCP_RECORD_LIMIT ∧ n ≤ unread.length ∧ r = unread.take n ∧
      verifyMtpFrame (unread.take n) = true := by
  simp only [recordView] at h
  split at h
  · cases h
  split at h
  · cases h
  split at h
  · cases h
  split at h
  · cases h
  split at h
  · rename_i h4 hlead hsize hlen hver
    cases h
    simp only [not_or, not_not] at hlead hsize
    exact ⟨by omega, hlead.1, hlead.2, rfl, hsize.1, hsize.2, by omega, rfl, hver⟩
  · cases h

theorem recordView_wait {unread : Bytes} (h : recordView unread = .wait) : unread.length < TCP_RECORD_LIMIT := by
  simp only [recordView] at h
  split at h
  · simp only [TCP_RECORD_LIMIT]; omega
  split at h
  · cases h
  split at h
  · cases h
  split at h
  · rename_i hsize hlen
    simp only [not_not] at hsize
    omega
  split at h <;> cases h

theorem recordView_stable {b : Bytes} (c : Bytes) (h : recordView b ≠ .wait) :
    recordView (b ++ c) = recordView b := by
  simp only [recordView] at h ⊢
  split at h
  · exact absurd rfl h
  rename_i h4
  have h4c : ¬ (b ++ c).length < 4 := by simp only [List.length_append]; omega
  rw [if_neg h4, if_neg h4c, Bytes.at_append_left (show 0 < b.length by omega),
    Bytes.at_append_left (show 1 < b.length by omega), mtpFrameLength_append (by omega)]
  split
  · rfl
  rename_i hlead
  rw [if_neg hlead] at h
  split
  · rfl
  rename_i hsize
  rw [if_neg hsize] at h
  split at h
  · exact absurd rfl h
  rename_i hlen
  have hlenc : ¬ (b ++ c).length < mtpFrameLength b := by simp only [List.length_append]; omega
  rw [if_neg hlen, if_neg hlenc, List.take_append_of_le_length (by omega)]

theorem recordView_local {b r : Bytes} {n : Nat} (h : recordView b = .record r n) :
    recordView (b.take n) = .record r n := by
  obtain ⟨h4, h0, h1, hn, hlo, hhi, hlen, rfl, hver⟩ := recordView_record h
  have htake : (b.take n).length = n := by simp [hlen]
  have hsize : mtpFrameLength (b.take n) = n := by rw [mtpFrameLength_take (by omega), ← hn]
  simp only [recordView, htake, Bytes.at_take (show 0 < n by omega), Bytes.at_take (show 1 < n by omega),
    hsize, List.take_take, min_self, hver]
  simp [h0, h1, hlo, hhi, show ¬ n < 4 by omega]

/-- The rule the framer cuts records by. -/
def recordRule : Framing.Rule UInt8 Bytes FrameFault where
  view := recordView
  view_nil := rfl
  size_pos h := by have := recordView_record h; omega
  size_le h := (recordView_record h).2.2.2.2.2.2.1
  stable := recordView_stable
  local_ := recordView_local

/-- The serialisation of a record is itself, and only valid records have one. -/
theorem recordRule_encodes {r w : Bytes} : recordRule.Encodes r w ↔ r = w ∧ ValidRecord w := by
  constructor
  · intro h
    obtain ⟨-, h0, h1, -, hlo, hhi, -, hr, hver⟩ := recordView_record h
    rw [List.take_length] at hr hver
    exact ⟨hr, h0, h1, hlo, hhi, hver⟩
  · rintro ⟨rfl, h0, h1, hlo, hhi, hver⟩
    have hlen := (verifyMtpFrame_length hver).2
    change recordView r = .record r r.length
    simp [recordView, h0, h1, hlen, hlo, hhi, hver, show ¬ r.length < 4 by omega]

end CamGuard.Media
