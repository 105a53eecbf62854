import SimMultichain.Impl.CallCodec
import SimMultichain.Proof.Executor

/-!
# What the barrier keeps out

The barrier looks at the instructions of the message itself, and no reserve
transfer to the relay chain is among those of a message it lets through. It does
not look at the programs that the message carries (`Carries`), so that the
transfers it keeps out altogether are those of messages that carry none
(`barrier_keeps_out_iff`).
-/

namespace SIM.Proof

open SIM.Impl

variable {origin : MultiLocation} {message message' : Xcm} {maxWeight weightCredit credit' : Weight}

/-! ## The message after the barrier -/

/-- The same instructions, but for the payment. -/
def SameButPayment (m m' : Xcm) : Prop :=
  ∀ i : Instruction, (∀ fees limit, i ≠ .buyExecution fees limit) → (i ∈ m ↔ i ∈ m')

theorem SameButPayment.cons (i : Instruction) {m m' : Xcm} (h : SameButPayment m m') :
    SameButPayment (i :: m) (i :: m') := by
  intro j hj
  rw [List.mem_cons, List.mem_cons, h j hj]

theorem SameButPayment.payment (fees : MultiAsset) (limit limit' : WeightLimit) (m : Xcm) :
    SameButPayment (.buyExecution fees limit :: m) (.buyExecution fees limit' :: m) := by
  intro j hj
  simp [hj]

theorem buyMaxWeight_same (h : buyMaxWeight maxWeight message = some message') :
    SameButPayment message message' := by
  fun_induction buyMaxWeight maxWeight message generalizing message' with
  | case1 rest ih =>
    obtain ⟨rest', hr, rfl⟩ := Option.map_eq_some_iff.mp h
    exact (ih hr).cons _
  | case2 fees weight rest hw => cases h; exact .payment fees _ _ rest
  | case3 fees weight rest hw => cases h
  | case4 fees rest => cases h; exact .payment fees _ _ rest
  | case5 => cases h

theorem firstOf_some {checks : List ShouldExecute} {r : Xcm × Weight}
    (h : firstOf checks origin message maxWeight weightCredit = some r) :
    ∃ check ∈ checks, check origin message maxWeight weightCredit = some r := by
  induction checks with
  | nil => cases h
  | cons check checks ih =>
    simp only [firstOf] at h
    split at h
    · rename_i hc; cases h; exact ⟨check, List.mem_cons_self, hc⟩
    · obtain ⟨check', hm, hc⟩ := ih h
      exact ⟨check', List.mem_cons_of_mem _ hm, hc⟩

/-- A message that passes has no reserve transfer to the relay chain among its own instructions,
and only its payment is adjusted. -/
theorem barrier_some
    (h : barrier origin message maxWeight weightCredit = some (message', credit')) :
    (∀ i ∈ message, i.reservesToRelay = false) ∧ SameButPayment message message' := by
  simp only [barrier, denyThenTry, denyReserveTransferToRelayChain] at h
  split at h
  · cases h
  · rename_i hd
    simp only [Option.bind_eq_bind, Option.bind_some] at h
    refine ⟨by simpa using hd, ?_⟩
    obtain ⟨check, hm, hc⟩ := firstOf_some h
    simp only [List.mem_cons, List.not_mem_nil, or_false] at hm
    -- only paid execution touches the message
    rcases hm with rfl | rfl | rfl
    · simp only [takeWeightCredit] at hc
      split at hc <;> cases hc
      exact fun _ _ => Iff.rfl
    · simp only [allowTopLevelPaidExecutionFrom, everything, if_true] at hc
      split at hc
      · cases hc
      · split at hc
        · obtain ⟨rest', hr, he⟩ := Option.map_eq_some_iff.mp hc
          cases he
          exact (buyMaxWeight_same hr).cons _
        · cases hc
    · simp only [allowUnpaidExecutionFrom] at hc
      split at hc <;> cases hc
      exact fun _ _ => Iff.rfl

/-! ## Instructions at any depth -/

theorem mayExecute_iff {i : Instruction} :
    MayExecute message i ↔ i ∈ message ∨ ∃ p, Relation.TransGen Carries message p ∧ i ∈ p := by
  simp only [MayExecute, Relation.reflTransGen_iff_eq_or_transGen, or_and_right, exists_or,
    exists_eq_left]

/-- An adjusted message carries what the message did. -/
theorem SameButPayment.carries {p : Xcm} (h : SameButPayment message message') :
    Carries message p ↔ Carries message' p := by
  rw [Carries, Carries, h (.setErrorHandler p) nofun, h (.setAppendix p) nofun]

theorem SameButPayment.transGen {p : Xcm} (h : SameButPayment message message') :
    Relation.TransGen Carries message p ↔ Relation.TransGen Carries message' p := by
  simp only [Relation.TransGen.head'_iff, h.carries]

/-- No program that the message carries, at any depth, has a reserve transfer to the relay chain. -/
def CarriesNone (message : Xcm) : Prop :=
  ∀ p, Relation.TransGen Carries message p → ∀ i ∈ p, i.reservesToRelay = false

theorem barrier_keeps_out
    (h : barrier origin message maxWeight weightCredit = some (message', credit'))
    (hn : CarriesNone message) {i : Instruction}
    (hi : MayExecute message i ∨ MayExecute message' i) : i.reservesToRelay = false := by
  obtain ⟨hd, hs⟩ := barrier_some h
  by_cases hp : ∃ fees limit, i = .buyExecution fees limit
  · obtain ⟨fees, limit, rfl⟩ := hp
    rfl
  · push Not at hp
    simp only [mayExecute_iff, ← hs.transGen, ← hs i hp, or_self] at hi
    rcases hi with hi | ⟨p, hp, hi⟩
    · exact hd i hi
    · exact hn p hp i hi

/-- Of a message that the barrier lets through, no instruction that may be executed, before or
after its payment is adjusted, is a reserve transfer to the relay chain if and only if the
programs it carries have none. -/
theorem barrier_keeps_out_iff
    (h : barrier origin message maxWeight weightCredit = some (message', credit')) :
    (∀ i, MayExecute message i ∨ MayExecute message' i → i.reservesToRelay = false) ↔
      CarriesNone message := by
  constructor
  · intro hi p hp i hip
    exact hi i (.inl (mayExecute_iff.mpr (.inr ⟨p, hp, hip⟩)))
  · exact fun hn i hi => barrier_keeps_out h hn hi

/-- A program that pays for its execution and refunds the surplus at its end. -/
def paidProgram (limit : WeightLimit) : Xcm :=
  [.withdrawAsset [⟨.concrete .relay, .fungible 1⟩],
    .buyExecution ⟨.concrete .relay, .fungible 1⟩ limit, .setAppendix [.refundSurplus]]

theorem barrier_keeps_out_iff_paidProgram :
    barrier (.sibling 4000) (paidProgram .unlimited) 4000000000 0 =
        some (paidProgram (.limited 4000000000), 0) ∧
      ∀ i, MayExecute (paidProgram (.limited 4000000000)) i → i.reservesToRelay = false := by
  have hb : barrier (.sibling 4000) (paidProgram .unlimited) 4000000000 0 =
      some (paidProgram (.limited 4000000000), 0) := rfl
  have hn : CarriesNone (paidProgram .unlimited) := by
    intro p hp
    obtain ⟨q, hq, hqp⟩ := Relation.TransGen.head'_iff.mp hp
    have hq : q = [.refundSurplus] := by simpa [Carries, paidProgram] using hq
    subst hq
    rcases hqp.cases_head with rfl | ⟨r, hr, -⟩
    · simp [Instruction.reservesToRelay]
    · simp [Carries] at hr
  exact ⟨hb, fun i hi => (barrier_keeps_out_iff hb).mpr hn i (.inr hi)⟩

/-- A message that the barrier lets through is executed without a reserve transfer to the relay
chain, whatever the environment answers, if it carries none. -/
theorem processed_keeps_out {weightLimit : Weight} {vm : Vm}
    (h : executeXcmInCredit origin message weightLimit weightCredit = .ok vm)
    (hn : CarriesNone message) {answers : List (Except XcmError Unit)} {i : Instruction}
    (hi : i ∈ processed vm answers) : i.reservesToRelay = false := by
  simp only [executeXcmInCredit] at h
  split at h
  · cases h
  · split at h
    · cases h
    · split at h
      · cases h
      · rename_i hb
        cases h
        exact barrier_keeps_out hb hn (.inr (mayExecute_of_processed hi))

/-- A reserve transfer of a relay chain asset to the relay chain. -/
def hiddenTransfer : Instruction :=
  .transferReserveAsset [⟨.concrete .relay, .fungible 1⟩] .relay []

/-- From para 2000 the barrier lets it through in an appendix, and the executor processes it. -/
theorem relay_transfer_passes :
    barrier (.sibling 2000) [.setAppendix [hiddenTransfer]] 2000000000 0 =
        some ([.setAppendix [hiddenTransfer]], 0) ∧
      MayExecute [.setAppendix [hiddenTransfer]] hiddenTransfer ∧
      hiddenTransfer.reservesToRelay = true ∧
      executeXcmInCredit (.sibling 2000) [.setAppendix [hiddenTransfer]] 2000000000 0 =
        .ok (.new [.setAppendix [hiddenTransfer]]) ∧
      processed (.new [.setAppendix [hiddenTransfer]]) [.ok (), .ok ()] =
        [.setAppendix [hiddenTransfer], hiddenTransfer] := by
  refine ⟨rfl, ⟨[hiddenTransfer], .single (.inr List.mem_cons_self), List.mem_cons_self⟩, rfl, rfl, rfl⟩

/-! ## The pallets' messages -/

section Pallets

variable {AccountId : Type} (account : Codec AccountId)

/-- The message that an accident pallet sends. -/
def palletXcm (m : Transact AccountId) : Xcm :=
  [.transact m.originType m.requireWeightAtMost (m.call.encode account)]

theorem palletXcm_barrier (m : Transact AccountId) {source : ParaId}
    (hs : source = 2000 ∨ source = 3000) (maxWeight weightCredit : Weight) :
    ∃ credit, barrier (.sibling source) (palletXcm account m) maxWeight weightCredit =
      some (palletXcm account m, credit) := by
  have hp : parentOrParentsExecutivePlurality (.sibling source) = true := by
    rcases hs with rfl | rfl <;> rfl
  by_cases hc : maxWeight ≤ weightCredit
  · exact ⟨weightCredit - maxWeight, by
      simp [barrier, denyThenTry, denyReserveTransferToRelayChain, palletXcm,
        Instruction.reservesToRelay, firstOf, takeWeightCredit, hc]⟩
  · exact ⟨weightCredit, by
      simp [barrier, denyThenTry, denyReserveTransferToRelayChain, palletXcm,
        Instruction.reservesToRelay, firstOf, takeWeightCredit, allowTopLevelPaidExecutionFrom,
        Instruction.fillsHolding, allowUnpaidExecutionFrom, hc, hp]⟩

theorem palletXcm_weight (m : Transact AccountId) :
    (palletXcm account m).weight = checkedAdd unitWeightCost m.requireWeightAtMost := by
  have hadd : ∀ w, checkedAdd 0 w = some w := fun w => by
    simp [checkedAdd, w.toNat_lt]
  cases hw : checkedAdd unitWeightCost m.requireWeightAtMost with
  | none => simp [Xcm.weight, palletXcm, takeInstrs, maxInstructions, weightLoop,
      Instruction.weightWithLimit, hw]
  | some w => simp [Xcm.weight, palletXcm, takeInstrs, maxInstructions, weightLoop,
      Instruction.weightWithLimit, hw, hadd]

/-- Renault's chain and the insurer's let each other's messages through as they are and process
the call, if its weight is within the limit. -/
theorem palletXcm_processed (m : Transact AccountId) {source : ParaId}
    (hs : source = 2000 ∨ source = 3000) {weightLimit w : Weight}
    (hw : checkedAdd unitWeightCost m.requireWeightAtMost = some w) (hl : w ≤ weightLimit)
    (answer : Except XcmError Unit) :
    executeXcmInCredit (.sibling source) (palletXcm account m) weightLimit weightCredit =
        .ok (.new (palletXcm account m)) ∧
      processed (.new (palletXcm account m)) [answer] = palletXcm account m := by
  obtain ⟨credit, hb⟩ := palletXcm_barrier account m hs w weightCredit
  constructor
  · simp only [executeXcmInCredit, palletXcm_weight, hw, UInt64.not_lt.mpr hl, if_false, hb]
  · cases answer <;> rfl

end Pallets

end SIM.Proof
