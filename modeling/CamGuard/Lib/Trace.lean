/-
Traces of jobs that produce packets: what happened, call by call, with the time
of each call and the packets it gave or the fault it raised. The packets of a
kind, the time of the first one, and readings of each event that depend on all
that was before it (`history`) are all described by what one more event adds.
-/
import CamGuard.Lib.Bytes
import Mathlib.Algebra.Order.Field.Rat
import Mathlib.Data.List.Induction

namespace CamGuard

structure Packet (κ : Type) where
  kind : κ
  wire : Bytes
  deriving DecidableEq, Repr

/-- One thing that happened, and what it gave. -/
structure Event (ι ε κ : Type) where
  now : ℚ
  call : ι
  out : Except ε (List (Packet κ))

variable {ι ε κ : Type}

/-- The packets an event gave. -/
def Event.packets (e : Event ι ε κ) : List (Packet κ) :=
  match e.out with
  | .ok packets => packets
  | .error _ => []

namespace Trace

/-- Every packet produced, in order. -/
def packets (trace : List (Event ι ε κ)) : List (Packet κ) := trace.flatMap Event.packets

theorem packets_append (trace : List (Event ι ε κ)) (e : Event ι ε κ) :
    packets (trace ++ [e]) = packets trace ++ e.packets := by
  simp [packets]

/-- The loop of `history`. -/
def historyFrom {β : Type} (f : List (Event ι ε κ) → Event ι ε κ → Option β) :
    List (Event ι ε κ) → List (Event ι ε κ) → List β
  | _, [] => []
  | before, e :: rest => (f before e).toList ++ historyFrom f (before ++ [e]) rest

/-- What `f` reads off each event, given all that was before it. -/
def history {β : Type} (f : List (Event ι ε κ) → Event ι ε κ → Option β) (trace : List (Event ι ε κ)) : List β :=
  historyFrom f [] trace

theorem historyFrom_append {β : Type} (f : List (Event ι ε κ) → Event ι ε κ → Option β)
    (before trace : List (Event ι ε κ)) (e : Event ι ε κ) :
    historyFrom f before (trace ++ [e]) = historyFrom f before trace ++ (f (before ++ trace) e).toList := by
  induction trace generalizing before with
  | nil => simp [historyFrom]
  | cons first trace ih => simp [historyFrom, ih]

theorem history_append {β : Type} (f : List (Event ι ε κ) → Event ι ε κ → Option β) (trace : List (Event ι ε κ))
    (e : Event ι ε κ) : history f (trace ++ [e]) = history f trace ++ (f trace e).toList :=
  historyFrom_append f [] trace e

variable [DecidableEq κ]

def ofKind (kind : κ) (packets : List (Packet κ)) : List (Packet κ) := packets.filter fun p => p.kind = kind

/-- When the first packet of this kind was produced. -/
def firstTime (kind : κ) (trace : List (Event ι ε κ)) : Option ℚ :=
  (trace.find? fun e => e.packets.any fun p => p.kind = kind).map Event.now

theorem ofKind_append (kind : κ) (a b : List (Packet κ)) : ofKind kind (a ++ b) = ofKind kind a ++ ofKind kind b :=
  List.filter_append ..

theorem ofKind_eq_nil {kind : κ} {packets : List (Packet κ)} (h : ∀ p ∈ packets, p.kind ≠ kind) :
    ofKind kind packets = [] := by
  simpa [ofKind] using h

theorem firstTime_append (kind : κ) (trace : List (Event ι ε κ)) (e : Event ι ε κ) :
    firstTime kind (trace ++ [e]) = (firstTime kind trace).or
      (if e.packets.any fun p => p.kind = kind then some e.now else none) := by
  simp only [firstTime, List.find?_append, List.find?_singleton]
  cases trace.find? fun e => e.packets.any fun p => p.kind = kind with
  | none =>
    simp only [Option.none_or, Option.map_none]
    split <;> rfl
  | some first => simp

/-- No packet of a kind, no time of its first. -/
theorem firstTime_eq_none {kind : κ} {trace : List (Event ι ε κ)} (h : ofKind kind (packets trace) = []) :
    firstTime kind trace = none := by
  simp only [firstTime, Option.map_eq_none_iff, List.find?_eq_none, List.any_eq_true, decide_eq_true_eq, not_exists,
    not_and]
  intro e he p hp hkind
  have hmem : p ∈ ofKind kind (packets trace) := by
    simp only [ofKind, packets, List.mem_filter, List.mem_flatMap, decide_eq_true_eq]
    exact ⟨⟨e, he, hp⟩, hkind⟩
  rw [h] at hmem
  cases hmem

/-- A time that is known stays. -/
theorem firstTime_stays {kind : κ} {trace : List (Event ι ε κ)} {t : ℚ} (h : firstTime kind trace = some t)
    (e : Event ι ε κ) : firstTime kind (trace ++ [e]) = some t := by
  rw [firstTime_append, h, Option.some_or]

theorem firstTime_quiet {kind : κ} {e : Event ι ε κ} (h : ∀ p ∈ e.packets, p.kind ≠ kind)
    (trace : List (Event ι ε κ)) : firstTime kind (trace ++ [e]) = firstTime kind trace := by
  rw [firstTime_append, if_neg (by simpa using h), Option.or_none]

omit [DecidableEq κ] in
/-- Every packet of one kind comes after one of another, if it did before and
does among the packets added. -/
theorem order_append {first then_ : κ} {a b : List (Packet κ)}
    (h : ∀ before p after, a = before ++ p :: after → p.kind = then_ → ∃ s ∈ before, s.kind = first)
    (hb : ∀ p ∈ b, p.kind = then_ → ∃ s ∈ a, s.kind = first) :
    ∀ before p after, a ++ b = before ++ p :: after → p.kind = then_ → ∃ s ∈ before, s.kind = first := by
  intro before p after hsplit hkind
  rcases List.append_eq_append_iff.mp hsplit with ⟨rest, hbefore, hrest⟩ | ⟨rest, ha, hrest⟩
  · have hmem : p ∈ b := by rw [hrest]; simp
    obtain ⟨s, hs, hstart⟩ := hb p hmem hkind
    exact ⟨s, by rw [hbefore]; simp [hs], hstart⟩
  · cases rest with
    | nil =>
      have hmem : p ∈ b := by
        simp only [List.nil_append] at hrest
        rw [← hrest]
        simp
      obtain ⟨s, hs, hstart⟩ := hb p hmem hkind
      exact ⟨s, by rw [ha] at hs; simpa using hs, hstart⟩
    | cons q rest =>
      rw [List.cons_append, List.cons.injEq] at hrest
      exact h before p rest (by rw [ha, hrest.1]) hkind

end Trace

/-! ## Justified logs -/

/-- Every entry of the log was right after what came before it. -/
def Justified {ε : Type} (P : List ε → ε → Prop) (log : List ε) : Prop :=
  ∀ before e after, log = before ++ e :: after → P before e

theorem justified_nil {ε : Type} (P : List ε → ε → Prop) : Justified P [] := by
  intro before e after h
  simp at h

theorem Justified.snoc {ε : Type} {P : List ε → ε → Prop} {log : List ε} (h : Justified P log) {e : ε} (he : P log e) :
    Justified P (log ++ [e]) := by
  intro before e' after hsplit
  rcases List.eq_nil_or_concat after with rfl | ⟨after', last, rfl⟩
  · obtain ⟨rfl, hlast⟩ := List.append_inj' hsplit rfl
    cases hlast
    exact he
  · rw [List.concat_eq_append, ← List.cons_append, ← List.append_assoc] at hsplit
    exact h before e' after' (List.append_inj' hsplit rfl).1

theorem Justified.append {ε : Type} {P : List ε → ε → Prop} {log : List ε} (h : Justified P log) {es : List ε}
    (hes : ∀ before, ∀ e ∈ es, P before e) : Justified P (log ++ es) := by
  induction es using List.reverseRecOn with
  | nil => rwa [List.append_nil]
  | append_singleton es e ih =>
    rw [← List.append_assoc]
    exact (ih fun before e' he' => hes before e' (List.mem_append_left _ he')).snoc (hes _ _ (by simp))

/-- Of two entries one was right when the other was there. -/
theorem Justified.ordered {ε : Type} {P : List ε → ε → Prop} {log : List ε} (h : Justified P log) {x y : ε}
    (hx : x ∈ log) (hy : y ∈ log) :
    x = y ∨ (∃ before, x ∈ before ∧ P before y) ∨ ∃ before, y ∈ before ∧ P before x := by
  obtain ⟨before, after, hsplit⟩ := List.append_of_mem hy
  rw [hsplit, List.mem_append, List.mem_cons] at hx
  rcases hx with hx | hx | hx
  · exact .inr (.inl ⟨before, hx, h _ _ _ hsplit⟩)
  · exact .inl hx
  · obtain ⟨between, rest, rfl⟩ := List.append_of_mem hx
    refine .inr (.inr ⟨before ++ y :: between, by simp, h _ _ rest ?_⟩)
    rw [hsplit, List.append_assoc, List.cons_append]

end CamGuard
