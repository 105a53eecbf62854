import Mathlib

/-!
# First-in first-out channels

A channel keeps what was received from it, in order, and what is still on its way; the two
together are everything that was ever sent (`Channel.sent`). Receiving moves the oldest message
on its way, so what was received is always a first part of what was sent.

The second part is about a party that receives from several others and adds up what it receives:
`sum_update_add` is one message more, and `sum_count_eq_card_iff` says that a counter of a message
that each of the others sends once has reached their number when all of them have sent it
(`sum_toNat_eq_card_iff`: when all of them have done something that is noted once).
-/

namespace SIM

/-- A channel of messages `α`, each list oldest first. -/
structure Channel (α : Type*) where
  delivered : List α
  queue : List α
  deriving DecidableEq

namespace Channel

variable {α : Type*}

/-- A channel on which `ms` have been sent, and none was received. -/
def start (ms : List α) : Channel α := ⟨[], ms⟩

/-- All messages sent so far. -/
def sent (c : Channel α) : List α := c.delivered ++ c.queue

def send (c : Channel α) (ms : List α) : Channel α := { c with queue := c.queue ++ ms }

/-- The oldest message on its way, and the channel once it is received. -/
def receive (c : Channel α) : Option (α × Channel α) :=
  match c.queue with
  | [] => none
  | m :: queue => some (m, ⟨c.delivered ++ [m], queue⟩)

/-- Receive the messages on their way as long as they satisfy `p`. -/
def receiveWhile (c : Channel α) (p : α → Bool) : Channel α :=
  ⟨c.delivered ++ c.queue.takeWhile p, c.queue.dropWhile p⟩

@[simp] theorem sent_start (ms : List α) : (start ms).sent = ms := rfl
@[simp] theorem delivered_start (ms : List α) : (start ms).delivered = [] := rfl
@[simp] theorem delivered_send (c : Channel α) (ms : List α) : (c.send ms).delivered = c.delivered := rfl

@[simp] theorem sent_send (c : Channel α) (ms : List α) : (c.send ms).sent = c.sent ++ ms :=
  (List.append_assoc ..).symm

@[simp] theorem sent_receiveWhile (c : Channel α) (p : α → Bool) : (c.receiveWhile p).sent = c.sent := by
  simp [receiveWhile, sent]

@[simp] theorem send_nil (c : Channel α) : c.send [] = c := by
  simp [send]

theorem delivered_prefix_sent (c : Channel α) : c.delivered <+: c.sent := List.prefix_append ..

variable {c c' : Channel α} {m : α}

theorem receive_eq_none : c.receive = none ↔ c.queue = [] := by
  unfold receive
  split <;> simp_all

theorem delivered_of_receive (h : c.receive = some (m, c')) : c'.delivered = c.delivered ++ [m] := by
  unfold receive at h
  split at h
  · cases h
  · cases h; rfl

theorem sent_of_receive (h : c.receive = some (m, c')) : c'.sent = c.sent := by
  unfold receive at h
  split at h
  · cases h
  · rename_i queue hq
    cases h
    simp [sent, hq]

theorem length_queue_of_receive (h : c.receive = some (m, c')) :
    c'.queue.length + 1 = c.queue.length := by
  unfold receive at h
  split at h
  · cases h
  · rename_i queue hq
    cases h
    simp [hq]

end Channel

/-! ## Adding up messages -/

section Sums

variable {ι β : Type*} [Fintype ι] [DecidableEq ι]

/-- One of several summands goes up. -/
theorem sum_update_add (f : β → ℕ) (l : ι → β) (i : ι) {x : β} {n : ℕ} (h : f x = f (l i) + n) :
    ∑ j, f (Function.update l i x j) = ∑ j, f (l j) + n := by
  rw [← Finset.add_sum_erase Finset.univ _ (Finset.mem_univ i),
    ← Finset.add_sum_erase Finset.univ (fun j => f (l j)) (Finset.mem_univ i), Function.update_self, h]
  have hrest : ∑ j ∈ Finset.univ.erase i, f (Function.update l i x j) =
      ∑ j ∈ Finset.univ.erase i, f (l j) :=
    Finset.sum_congr rfl fun j hj => by rw [Function.update_of_ne (Finset.ne_of_mem_erase hj)]
  rw [hrest]
  omega

omit [DecidableEq ι] in
theorem sum_count_eq_card_iff [DecidableEq β] {l : ι → List β} {x : β}
    (h : ∀ i, (l i).count x ≤ 1) : ∑ i, (l i).count x = Fintype.card ι ↔ ∀ i, x ∈ l i := by
  have hcard : Fintype.card ι = ∑ _i : ι, 1 := by simp
  rw [hcard, Finset.sum_eq_sum_iff_of_le fun i _ => h i]
  refine forall_congr' fun i => ?_
  have := h i
  rw [← List.count_pos_iff]
  simp only [Finset.mem_univ, true_imp_iff]
  omega

omit [DecidableEq ι] in
theorem sum_toNat_eq_card_iff {b : ι → Bool} :
    ∑ i, (b i).toNat = Fintype.card ι ↔ ∀ i, b i = true := by
  have hcard : Fintype.card ι = ∑ _i : ι, 1 := by simp
  rw [hcard, Finset.sum_eq_sum_iff_of_le fun i _ => Bool.toNat_le (b i)]
  refine forall_congr' fun i => ?_
  cases b i <;> simp

end Sums

end SIM
