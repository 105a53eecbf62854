import SimMultichain.Impl.System
import SimMultichain.Proof.AccidentLedger
import SimMultichain.Proof.Received

/-!
# The two chains as parts of the system

Each chain is a `Component` of the system (`sidePart`): within every run of the
system it makes a run of its own, so what holds after every run of a chain holds
of the chain within the system (`renault_ledger`, `insurer_received`).

The messages in flight are the insurer's requests and Renault's replies to it
(`Closed`), and a step of the system is a step of one chain: on its own, or on
the delivery of such a message (`network_step`).
-/

namespace SIM.Proof

open SIM.Impl

variable {AccountId BlockNumber : Type}

theorem historyOf_append (side : Side) (h h' : List (NetworkEntry AccountId BlockNumber)) :
    historyOf side (h ++ h') = historyOf side h ++ historyOf side h' := List.filterMap_append

theorem historyOf_snoc (side : Side) (h : List (NetworkEntry AccountId BlockNumber))
    (e : NetworkEntry AccountId BlockNumber) :
    historyOf side (h ++ [e]) = historyOf side h ++ (e.onChain side).toList := by
  rw [historyOf_append]
  cases he : e.onChain side <;> simp [historyOf, he]

/-! ## Messages -/

/-- The messages are requests of the insurer to Renault and Renault's replies to it. -/
def Closed (F : Multiset (Packet AccountId)) : Prop :=
  ∀ p ∈ F, (∃ v k, p = requestPacket v k) ∨ ∃ v k d, p = replyPacket v k d

theorem Closed.cons {F : Multiset (Packet AccountId)} (hF : Closed F) {p : Packet AccountId}
    (hp : (∃ v k, p = requestPacket v k) ∨ ∃ v k d, p = replyPacket v k d) : Closed (p ::ₘ F) := by
  intro q hq
  rcases Multiset.mem_cons.mp hq with rfl | hq
  · exact hp
  · exact hF q hq

theorem Closed.mono {F F' : Multiset (Packet AccountId)} (hF : Closed F) (h : F' ⊆ F) : Closed F' :=
  fun p hp => hF p (h hp)

section Packets

variable {r : Receipt AccountId BlockNumber} (p : ParaId) (F : Multiset (Packet AccountId))

theorem add_packets_nil (h : r.sent = []) : F + packets p (some r) = F := by
  simp only [packets, h]
  exact Multiset.add_zero F

theorem add_packets_singleton {m : Transact AccountId} (h : r.sent = [m]) :
    F + packets p (some r) = ⟨p, m⟩ ::ₘ F := by
  simp only [packets, h]
  rw [Multiset.add_comm]
  exact Multiset.singleton_add _ _

end Packets

variable [DecidableEq AccountId] (cfg : Config AccountId)

/-! ## Components -/

section Exec

variable (σ : System AccountId BlockNumber) (i : Input AccountId BlockNumber)

theorem exec_output (side : Side) :
    (σ.exec cfg side i).2 = some ⟨side, i, ((chain cfg).step (σ.on side) i).2⟩ := by
  cases side <;> rfl

theorem exec_on_self (side : Side) : (σ.exec cfg side i).1.on side = (chain cfg).next (σ.on side) i := by
  cases side <;> rfl

theorem exec_on_of_ne {side side' : Side} (h : side ≠ side') :
    (σ.exec cfg side i).1.on side' = σ.on side' := by
  cases side <;> cases side' <;> first | rfl | exact absurd rfl h

theorem exec_inFlight (side : Side) :
    (σ.exec cfg side i).1.inFlight =
      σ.inFlight + packets side.para ((chain cfg).step (σ.on side) i).2 := by
  cases side <;> rfl

end Exec

/-- What a step of the system can be: the step of a chain, after a message may have been taken out
of those in flight; or nothing on either chain. -/
theorem network_step (σ : System AccountId BlockNumber) (a : Action AccountId BlockNumber) :
    (∃ inFlight side i, (network cfg).step σ a = { σ with inFlight := inFlight }.exec cfg side i) ∨
      ∃ inFlight, (network cfg).step σ a = ({ σ with inFlight := inFlight }, none) := by
  cases a with
  | newBlock side number => exact .inl ⟨σ.inFlight, side, _, rfl⟩
  | renaultCall router origin call => exact .inl ⟨σ.inFlight, .renault, _, rfl⟩
  | insurerCall router origin call => exact .inl ⟨σ.inFlight, .insurer, _, rfl⟩
  | deliver router p =>
    simp only [network, System.deliver]
    split
    · split
      · exact .inl ⟨_, _, _, rfl⟩
      · exact .inr ⟨_, rfl⟩
    · exact .inr ⟨σ.inFlight, rfl⟩

theorem onChain_exec {σ : System AccountId BlockNumber} {a : Action AccountId BlockNumber}
    {inFlight : Multiset (Packet AccountId)} {side : Side} {i : Input AccountId BlockNumber}
    (h : (network cfg).step σ a = { σ with inFlight := inFlight }.exec cfg side i) (side' : Side) :
    NetworkEntry.onChain side' ((network cfg).entry σ a) =
      if side = side' then some ((chain cfg).entry (σ.on side') i) else none := by
  simp only [NetworkEntry.onChain, Machine.entry_output, Machine.entry_before, h, exec_output]
  split <;> rename_i hs
  · subst hs; cases side <;> rfl
  · rfl

/-- One of the chains, as a part of the system. -/
def sidePart (side : Side) :
    Component (network cfg : Machine (System AccountId BlockNumber) _ _)
      (chain cfg : Machine (Storage AccountId BlockNumber) _ _) where
  part σ := σ.on side
  proj := NetworkEntry.onChain side
  keep σ a hn := by
    rcases network_step cfg σ a with ⟨F, side', i, h⟩ | ⟨F, h⟩
    · rw [onChain_exec cfg h] at hn
      split at hn <;> rename_i hs
      · cases hn
      · rw [Machine.next, h, exec_on_of_ne cfg _ i hs]
        cases side <;> rfl
    · rw [Machine.next, h]
      cases side <;> rfl
  move σ a e he := by
    rcases network_step cfg σ a with ⟨F, side', i, h⟩ | ⟨F, h⟩
    · rw [onChain_exec cfg h] at he
      split at he <;> rename_i hs
      · subst hs
        cases he
        refine ⟨rfl, ?_⟩
        rw [Machine.next, h, exec_on_self]
        cases side' <;> rfl
      · cases he
    · simp only [NetworkEntry.onChain, Machine.entry_output, h] at he
      cases he

section Parts

variable (gR gI : Genesis AccountId BlockNumber) (as : List (Action AccountId BlockNumber))

/-- Renault's chain keeps its accident ledger within the system. -/
theorem renault_ledger :
    AccidentLedger cfg (historyOf .renault ((network cfg).trace (.init gR gI) as))
      ((network cfg).run (.init gR gI) as).renault := by
  have h := accidentLedger_run cfg gR
    ((sidePart cfg .renault).inputs ((network cfg).trace (.init gR gI) as))
  have hr := (sidePart cfg .renault).run_proj (.init gR gI) as
  have ht := (sidePart cfg .renault).trace_proj (.init gR gI) as
  change AccidentLedger cfg ((chain cfg).trace ((sidePart cfg .renault).part (.init gR gI)) _)
    ((chain cfg).run ((sidePart cfg .renault).part (.init gR gI)) _) at h
  rw [← hr, ← ht] at h
  exact h

/-- The insurer's chain holds what was delivered to it first, within the system. -/
theorem insurer_received (key : Hash) :
    ((network cfg).run (.init gR gI) as).insurer.accidentsData.get key =
      firstDelivered cfg
        (deliveries (historyOf .insurer ((network cfg).trace (.init gR gI) as))) key := by
  have h := accidentsData_eq cfg gI
    ((sidePart cfg .insurer).inputs ((network cfg).trace (.init gR gI) as)) key
  have hr := (sidePart cfg .insurer).run_proj (.init gR gI) as
  have ht := (sidePart cfg .insurer).trace_proj (.init gR gI) as
  change ((chain cfg).run ((sidePart cfg .insurer).part (.init gR gI)) _).accidentsData.get key =
    firstDelivered cfg (deliveries
      ((chain cfg).trace ((sidePart cfg .insurer).part (.init gR gI)) _)) key at h
  rw [← hr, ← ht] at h
  exact h

end Parts

/-! ## Steps of the system -/

/-- What a step of the system can be when only requests and replies are in flight. -/
inductive NetworkStep (σ : System AccountId BlockNumber) : Action AccountId BlockNumber →
    System AccountId BlockNumber × Option (Executed AccountId BlockNumber) → Prop where
  | newBlock (side : Side) (n : BlockNumber) :
    NetworkStep σ (.newBlock side n) (σ.exec cfg side (.newBlock n))
  | renault (router : SendXcm AccountId) (o : LocalOrigin AccountId) (call : RenaultCall AccountId) :
    NetworkStep σ (.renaultCall router o call)
      (σ.exec cfg .renault (.call router o.toOrigin (.renault call)))
  | insurer (router : SendXcm AccountId) (o : LocalOrigin AccountId) (call : InsurerCall AccountId) :
    NetworkStep σ (.insurerCall router o call)
      (σ.exec cfg .insurer (.call router o.toOrigin (.insurer call)))
  | request (router : SendXcm AccountId) {v : AccountId} {k : UInt32}
      (mem : requestPacket v k ∈ σ.inFlight) :
    NetworkStep σ (.deliver router (requestPacket v k))
      ({ σ with inFlight := σ.inFlight.erase (requestPacket v k) }.exec cfg .renault
        (.call router (.cumulusXcm (.siblingPara 3000)) (.renault (.requestData v k))))
  | reply (router : SendXcm AccountId) {v : AccountId} {k : UInt32} {d : DataHash}
      (mem : replyPacket v k d ∈ σ.inFlight) :
    NetworkStep σ (.deliver router (replyPacket v k d))
      ({ σ with inFlight := σ.inFlight.erase (replyPacket v k d) }.exec cfg .insurer
        (.call router (.cumulusXcm (.siblingPara 2000)) (.insurer (.receiveData v k d))))
  | idle (router : SendXcm AccountId) {p : Packet AccountId} (notMem : p ∉ σ.inFlight) :
    NetworkStep σ (.deliver router p) (σ, none)

theorem step_request {σ : System AccountId BlockNumber} (router : SendXcm AccountId) {v : AccountId}
    {k : UInt32} (mem : requestPacket v k ∈ σ.inFlight) :
    (network cfg).step σ (.deliver router (requestPacket v k)) =
      { σ with inFlight := σ.inFlight.erase (requestPacket v k) }.exec cfg .renault
        (.call router (.cumulusXcm (.siblingPara 3000)) (.renault (.requestData v k))) := by
  simp only [network, System.deliver, mem, if_true]
  rfl

theorem step_reply {σ : System AccountId BlockNumber} (router : SendXcm AccountId) {v : AccountId}
    {k : UInt32} {d : DataHash} (mem : replyPacket v k d ∈ σ.inFlight) :
    (network cfg).step σ (.deliver router (replyPacket v k d)) =
      { σ with inFlight := σ.inFlight.erase (replyPacket v k d) }.exec cfg .insurer
        (.call router (.cumulusXcm (.siblingPara 2000)) (.insurer (.receiveData v k d))) := by
  simp only [network, System.deliver, mem, if_true]
  rfl

theorem closed_step {σ : System AccountId BlockNumber} (hc : Closed σ.inFlight)
    (a : Action AccountId BlockNumber) : NetworkStep cfg σ a ((network cfg).step σ a) := by
  cases a with
  | newBlock side n => exact .newBlock side n
  | renaultCall router o call => exact .renault router o call
  | insurerCall router o call => exact .insurer router o call
  | deliver router p =>
    by_cases hp : p ∈ σ.inFlight
    · rcases hc p hp with ⟨v, k, rfl⟩ | ⟨v, k, d, rfl⟩
      · rw [step_request cfg router hp]; exact .request router hp
      · rw [step_reply cfg router hp]; exact .reply router hp
    · simp only [network, System.deliver, hp, if_false]
      exact .idle router hp

/-- A message in flight stays so until it is delivered. -/
theorem mem_inFlight_next {σ : System AccountId BlockNumber} {p : Packet AccountId}
    (hp : p ∈ σ.inFlight) {a : Action AccountId BlockNumber} (ha : ∀ router, a ≠ .deliver router p) :
    p ∈ ((network cfg).next σ a).inFlight := by
  cases a with
  | newBlock side n =>
    show p ∈ (σ.exec cfg side (.newBlock n)).1.inFlight
    rw [exec_inFlight]; exact Multiset.mem_add.mpr (.inl hp)
  | renaultCall router o call =>
    show p ∈ (σ.exec cfg .renault _).1.inFlight
    rw [exec_inFlight]; exact Multiset.mem_add.mpr (.inl hp)
  | insurerCall router o call =>
    show p ∈ (σ.exec cfg .insurer _).1.inFlight
    rw [exec_inFlight]; exact Multiset.mem_add.mpr (.inl hp)
  | deliver router q =>
    have hne : p ≠ q := fun h => ha router (by rw [h])
    have hp' : p ∈ σ.inFlight.erase q := (Multiset.mem_erase_of_ne hne).mpr hp
    simp only [Machine.next, network, System.deliver]
    split
    · split
      · rw [exec_inFlight]; exact Multiset.mem_add.mpr (.inl hp')
      · exact hp'
    · exact hp

end SIM.Proof
