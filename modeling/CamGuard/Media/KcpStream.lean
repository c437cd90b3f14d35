/-
What a KCP peer sends: messages cut into fragments, the fragments numbered
one after another from the first sequence number on.

`Place` says where in such a stream a receiver stands, given what it has
delivered and the parts it holds of the next message. `Place.advance` is the
step: the fragment at the receiver's position has the counter the receiver
expects, and taking it leads to the next place.
-/
import CamGuard.Media.KcpReceive

namespace CamGuard.Media

/-- The fragments of a message, each with its counter: the fragments after it. -/
def fragmentsOf : List Bytes → List (Nat × Bytes)
  | [] => []
  | body :: bodies => (bodies.length, body) :: fragmentsOf bodies

/-- Messages, each given as the bodies of its fragments. -/
structure KcpStream (maxSegments : Nat) where
  messages : List (List Bytes)
  fragmented : ∀ m ∈ messages, m ≠ [] ∧ m.length ≤ maxSegments

namespace KcpStream

variable {maxSegments : Nat}

def fragments (stream : KcpStream maxSegments) : List (Nat × Bytes) := stream.messages.flatMap fragmentsOf

/-- The messages as their receiver should return them. -/
def bodies (stream : KcpStream maxSegments) : List Bytes := stream.messages.map List.flatten

end KcpStream

@[simp] theorem length_fragmentsOf (m : List Bytes) : (fragmentsOf m).length = m.length := by
  induction m with
  | nil => rfl
  | cons body m ih => simp [fragmentsOf, ih]

theorem fragmentsOf_append (p m : List Bytes) :
    ∃ before, before.length = p.length ∧ fragmentsOf (p ++ m) = before ++ fragmentsOf m := by
  induction p with
  | nil => exact ⟨[], rfl, rfl⟩
  | cons body p ih =>
    obtain ⟨before, hlen, heq⟩ := ih
    refine ⟨((p ++ m).length, body) :: before, by simp [hlen], ?_⟩
    rw [List.cons_append, fragmentsOf, heq, List.cons_append]

theorem length_flatMap_fragmentsOf (done : List (List Bytes)) :
    (done.flatMap fragmentsOf).length = (done.map List.length).sum := by
  simp [List.length_flatMap]

theorem mem_fragmentsOf {m : List Bytes} {f : Nat × Bytes} (h : f ∈ fragmentsOf m) :
    f.1 < m.length ∧ f.2 ∈ m := by
  induction m with
  | nil => cases h
  | cons body m ih =>
    rcases List.mem_cons.mp h with rfl | h
    · exact ⟨by simp, by simp⟩
    · obtain ⟨hlt, hmem⟩ := ih h
      exact ⟨by simp; omega, by simp [hmem]⟩

theorem KcpStream.counter_lt {maxSegments i : Nat} {stream : KcpStream maxSegments} {f : Nat × Bytes}
    (h : stream.fragments[i]? = some f) : f.1 < maxSegments := by
  obtain ⟨m, hm, hf⟩ := List.mem_flatMap.mp (List.mem_of_getElem? h)
  have hlt := (mem_fragmentsOf hf).1
  have hle := (stream.fragmented m hm).2
  omega

/-! ## Where a receiver stands -/

/-- Having delivered `delivered` and holding `parts`, the receiver expects the
fragment at position `n`; `remaining` is the counter it must have, if a
message has begun. -/
def Place (messages : List (List Bytes)) (delivered : List Bytes) (n : Nat) (parts : List Bytes)
    (remaining : Option Nat) : Prop :=
  ∃ done rest todo, delivered = done.map List.flatten ∧ n = (done.map List.length).sum + parts.length ∧
    ((parts = [] ∧ remaining = none ∧ rest = [] ∧ messages = done ++ todo) ∨
      (parts ≠ [] ∧ remaining = some (rest.length - 1) ∧ rest ≠ [] ∧ messages = done ++ (parts ++ rest) :: todo))

namespace Place

variable {messages : List (List Bytes)} {delivered : List Bytes} {n : Nat} {parts : List Bytes}
  {remaining : Option Nat}

theorem start : Place messages [] 0 [] none :=
  ⟨[], [], messages, rfl, rfl, .inl ⟨rfl, rfl, rfl, rfl⟩⟩

/-- What has been delivered are the first messages, whole; the parts begin the next one
without ending it; and the position counts the fragments of both. -/
theorem whole_messages (h : Place messages delivered n parts remaining) :
    ∃ done, done <+: messages ∧ delivered = done.map List.flatten ∧
      n = (done.map List.length).sum + parts.length ∧
      (parts = [] ∨ ∃ rest, rest ≠ [] ∧ done ++ [parts ++ rest] <+: messages) := by
  obtain ⟨done, rest, todo, hdel, hn, ⟨hnil, -, -, rfl⟩ | ⟨-, -, hrest, rfl⟩⟩ := h
  · exact ⟨done, List.prefix_append _ _, hdel, hn, .inl hnil⟩
  · exact ⟨done, List.prefix_append _ _, hdel, hn, .inr ⟨rest, hrest, todo, by simp⟩⟩

/-- The fragment at the receiver's position, and the place after it. -/
theorem advance (h : Place messages delivered n parts remaining) (hne : ∀ m ∈ messages, m ≠ [])
    {counter : Nat} {body : Bytes} (hf : (messages.flatMap fragmentsOf)[n]? = some (counter, body)) :
    (remaining = none ∨ remaining = some counter) ∧
      (counter = 0 → Place messages (delivered ++ [(parts ++ [body]).flatten]) (n + 1) [] none) ∧
      (counter ≠ 0 → Place messages delivered (n + 1) (parts ++ [body]) (some (counter - 1))) := by
  obtain ⟨done, rest, todo, rfl, rfl, ⟨rfl, rfl, rfl, rfl⟩ | ⟨hparts, rfl, hrest, rfl⟩⟩ := h
  · -- A message begins at this position.
    rw [List.flatMap_append, List.getElem?_append_right (by simp),
      length_flatMap_fragmentsOf] at hf
    cases todo with
    | nil => simp at hf
    | cons m todo =>
      cases m with
      | nil => exact absurd rfl (hne [] (by simp))
      | cons b bodies =>
        simp only [List.length_nil, Nat.add_zero, Nat.sub_self, List.flatMap_cons, fragmentsOf, List.cons_append,
          List.getElem?_cons_zero, Option.some.injEq, Prod.mk.injEq] at hf
        obtain ⟨rfl, rfl⟩ := hf
        refine ⟨.inl rfl, ?_, ?_⟩
        · intro hzero
          obtain rfl := List.length_eq_zero_iff.mp hzero
          exact ⟨done ++ [[b]], [], todo, by simp, by simp, .inl ⟨rfl, rfl, rfl, by simp⟩⟩
        · intro hpos
          exact ⟨done, bodies, todo, rfl, by simp, .inr ⟨by simp, by simp, by rintro rfl; simp at hpos, by simp⟩⟩
  · -- A message is under way.
    obtain ⟨before, hlen, hsplit⟩ := fragmentsOf_append parts rest
    rw [List.flatMap_append, List.getElem?_append_right (by rw [length_flatMap_fragmentsOf]; omega),
      length_flatMap_fragmentsOf, List.flatMap_cons, hsplit, List.append_assoc,
      List.getElem?_append_right (by omega)] at hf
    cases rest with
    | nil => exact absurd rfl hrest
    | cons b bodies =>
      have hzero : (done.map List.length).sum + parts.length - (done.map List.length).sum - before.length = 0 := by
        omega
      rw [hzero] at hf
      simp only [fragmentsOf, List.cons_append, List.getElem?_cons_zero, Option.some.injEq, Prod.mk.injEq] at hf
      obtain ⟨rfl, rfl⟩ := hf
      refine ⟨.inr (by simp), ?_, ?_⟩
      · intro hz
        obtain rfl := List.length_eq_zero_iff.mp hz
        exact ⟨done ++ [parts ++ [b]], [], todo, by simp, by simp; omega, .inl ⟨rfl, rfl, rfl, by simp⟩⟩
      · intro hpos
        exact ⟨done, bodies, todo, rfl, by simp; omega,
          .inr ⟨by simp, by simp, by rintro rfl; simp at hpos, by simp⟩⟩

end Place

end CamGuard.Media
