import Mathlib
import SimMultichain.Proof.Network
import SimMultichain.Spec.Exchange

/-!
# The two chains exchange evidence

The system refines `Spec.Exchange`: `exchange` reads off the histories of the two
chains, the insurer's declarations and the messages in flight what was reported,
declared, asked, answered and received, and every step of the system is then a
number of steps of the exchange (`system_steps`, over runs `run_steps`). A
declaration is two of them, a report, a reply or the receipt of one is a single
step, and everything else is none.

The refinement needs that no keys of Renault's ledger collide: only then is the
data that `requestData` finds the data that was reported.
-/

namespace SIM.Proof

open SIM.Impl
open SIM.Spec (Message Exchange)
open SIM.Spec.Exchange (Step Steps Sound Genuine)

variable {AccountId BlockNumber : Type}

/-- What a message in flight is about. -/
def toMessage (p : Packet AccountId) : Message AccountId DataHash :=
  match p.message.call with
  | .palletSimRenaultAccident (.requestData v k) => .request v k.toNat
  | .palletSimInsuranceAccident (.receiveData v k d) => .reply v k.toNat d

variable [DecidableEq AccountId]

/-- The data of the first delivery about an accident. -/
def firstAbout (xs : List (Delivery AccountId)) (x : AccountId × ℕ) : Option DataHash :=
  (xs.find? fun y => (y.vehicleId, y.vehicleAccidentCount.toNat) = x).map Delivery.data

theorem firstAbout_eq_some {xs : List (Delivery AccountId)} {v : AccountId} {k : UInt32} {d : DataHash}
    (h : firstAbout xs (v, k.toNat) = some d) :
    ∃ y ∈ xs, y.vehicleId = v ∧ y.vehicleAccidentCount = k ∧ y.data = d := by
  obtain ⟨y, hy, hd⟩ := Option.map_eq_some_iff.mp h
  have hx := List.find?_some hy
  simp only [decide_eq_true_eq, Prod.mk.injEq] at hx
  obtain ⟨hv, hk⟩ := hx
  exact ⟨y, List.mem_of_find?_eq_some hy, hv, UInt32.toNat_inj.mp hk, hd⟩

/-- The exchange, as two chains with the histories `hR` and `hI`, the declarations `decl` and the
messages `F` in flight conduct it. -/
def exchange (hR hI : List (ChainEntry AccountId BlockNumber))
    (decl : StorageMap Hash (AccountId × UInt32)) (F : Multiset (Packet AccountId)) :
    Exchange AccountId DataHash where
  reports v := reports v hR
  declared := {x | ∃ key k, decl.get key = some (x.1, k) ∧ x.2 = k.toNat}
  messages := F.map toMessage
  evidence := firstAbout (deliveries hI)

section Steps

variable {hR hI : List (ChainEntry AccountId BlockNumber)}
  {decl : StorageMap Hash (AccountId × UInt32)} {F : Multiset (Packet AccountId)}
  {c : ChainEntry AccountId BlockNumber}

theorem exchange_of_no_report (hc : ∀ v, reportOf v c = none) :
    exchange (hR ++ [c]) hI decl F = exchange hR hI decl F := by
  refine Exchange.ext (funext fun v => ?_) rfl rfl rfl
  simp only [exchange]
  rw [reports_snoc, hc v, Option.toList_none, List.append_nil]

theorem exchange_of_no_delivery (hc : c.delivery = none) :
    exchange hR (hI ++ [c]) decl F = exchange hR hI decl F := by
  refine Exchange.ext rfl rfl rfl ?_
  simp only [exchange]
  rw [deliveries_snoc, hc, Option.toList_none, List.append_nil]

theorem exchange_report {v : AccountId} {d : DataHash} (hc : reportOf v c = some d)
    (hw : ∀ w, w ≠ v → reportOf w c = none) :
    Step (exchange hR hI decl F) (exchange (hR ++ [c]) hI decl F) := by
  have he : exchange (hR ++ [c]) hI decl F = { exchange hR hI decl F with
      reports := Function.update (fun w => reports w hR) v (reports v hR ++ [d]) } := by
    refine Exchange.ext (funext fun w => ?_) rfl rfl rfl
    simp only [exchange]
    rw [reports_snoc]
    by_cases h : w = v
    · subst h; rw [hc, Function.update_self, Option.toList_some]
    · rw [hw w h, Function.update_of_ne h, Option.toList_none, List.append_nil]
  rw [he]
  exact .report v d

theorem exchange_declare {key : Hash} (free : decl.containsKey key = false) (v : AccountId)
    (k : UInt32) :
    Step (exchange hR hI decl F) (exchange hR hI (decl.insert key (v, k)) F) := by
  have he : exchange hR hI (decl.insert key (v, k)) F = { exchange hR hI decl F with
      declared := insert (v, k.toNat) (exchange hR hI decl F).declared } := by
    refine Exchange.ext rfl (Set.ext fun x => ?_) rfl rfl
    constructor
    · rintro ⟨key', k', hg, hx⟩
      rcases StorageMap.get_insert_cases hg with ⟨-, he⟩ | ⟨-, hg⟩
      · cases he; exact .inl (Prod.ext rfl hx)
      · exact .inr ⟨key', k', hg, hx⟩
    · rintro (rfl | ⟨key', k', hg, hx⟩)
      · exact ⟨key, k, StorageMap.get_insert_self, rfl⟩
      · exact ⟨key', k', StorageMap.le_insert _ free _ _ hg, hx⟩
  rw [he]
  exact .declare v k.toNat

theorem exchange_ask {v : AccountId} {k : UInt32}
    (declared : ∃ key, decl.get key = some (v, k)) :
    Step (exchange hR hI decl F) (exchange hR hI decl (requestPacket v k ::ₘ F)) := by
  have he : exchange hR hI decl (requestPacket v k ::ₘ F) = { exchange hR hI decl F with
      messages := .request v k.toNat ::ₘ (exchange hR hI decl F).messages } :=
    Exchange.ext rfl rfl (Multiset.map_cons _ _ _) rfl
  obtain ⟨key, hkey⟩ := declared
  rw [he]
  exact .ask ⟨key, k, hkey, rfl⟩

theorem exchange_answer {v : AccountId} {k : UInt32} {d : DataHash} (hk : k.toNat ≠ 0)
    (hd : (reports v hR)[k.toNat - 1]? = some d) :
    Step (exchange hR hI decl (requestPacket v k ::ₘ F))
      (exchange hR hI decl (replyPacket v k d ::ₘ F)) := by
  have he : exchange hR hI decl (replyPacket v k d ::ₘ F) =
      { exchange hR hI decl (requestPacket v k ::ₘ F) with
        messages := .reply v k.toNat d ::ₘ F.map toMessage } :=
    Exchange.ext rfl rfl (Multiset.map_cons _ _ _) rfl
  rw [he]
  exact .answer (Multiset.map_cons _ _ _) hk hd

theorem exchange_ignore (v : AccountId) (k : UInt32) :
    Step (exchange hR hI decl (requestPacket v k ::ₘ F)) (exchange hR hI decl F) :=
  .ignore (Multiset.map_cons _ _ _)

theorem firstAbout_snoc (xs : List (Delivery AccountId)) (y : Delivery AccountId) :
    firstAbout (xs ++ [y]) =
      Function.update (firstAbout xs) (y.vehicleId, y.vehicleAccidentCount.toNat)
        ((firstAbout xs (y.vehicleId, y.vehicleAccidentCount.toNat)).or (some y.data)) := by
  funext x
  have ha : firstAbout (xs ++ [y]) x = (firstAbout xs x).or (firstAbout [y] x) := by
    simp only [firstAbout, List.find?_append, Option.map_or]
  rw [ha]
  by_cases hx : x = (y.vehicleId, y.vehicleAccidentCount.toNat)
  · subst hx
    rw [Function.update_self]
    simp [firstAbout]
  · rw [Function.update_of_ne hx]
    simp [firstAbout, Ne.symm hx]

theorem exchange_receive {p : ParaId} {v : AccountId} {k : UInt32} {d : DataHash}
    (hc : c.delivery = some ⟨p, v, k, d⟩) :
    Step (exchange hR hI decl (replyPacket v k d ::ₘ F)) (exchange hR (hI ++ [c]) decl F) := by
  have he : exchange hR (hI ++ [c]) decl F =
      { exchange hR hI decl (replyPacket v k d ::ₘ F) with
        messages := F.map toMessage
        evidence := Function.update (firstAbout (deliveries hI)) (v, k.toNat)
          ((firstAbout (deliveries hI) (v, k.toNat)).or (some d)) } := by
    refine Exchange.ext rfl rfl rfl ?_
    simp only [exchange]
    rw [deliveries_snoc, hc]
    exact firstAbout_snoc _ _
  rw [he]
  exact .receive (Multiset.map_cons _ _ _)

end Steps

/-! ## Steps of the chains -/

section Chains

variable {cfg : Config AccountId} {router : SendXcm AccountId} {s s' : Storage AccountId BlockNumber}
  {r : Except DispatchError Unit} (ev : List (Event AccountId BlockNumber))
  {sent : List (Transact AccountId)} {o : LocalOrigin AccountId}
  {hR hI : List (ChainEntry AccountId BlockNumber)}
  {decl : StorageMap Hash (AccountId × UInt32)} {F : Multiset (Packet AccountId)}

/-- A call that Renault's chain meets from its own users: a report, or nothing. -/
theorem renault_call {call : RenaultCall AccountId}
    (he : Effect cfg router s o.toOrigin (.renault call) r s' sent) :
    (Closed F → Closed (F + packets 2000 (some (⟨r, ev, sent⟩ : Receipt AccountId BlockNumber)))) ∧
      Steps (exchange hR hI decl F)
        (exchange (hR ++ [⟨s, .call router o.toOrigin (.renault call), some ⟨r, ev, sent⟩⟩]) hI decl
          (F + packets 2000 (some (⟨r, ev, sent⟩ : Receipt AccountId BlockNumber)))) := by
  have quiet : ∀ c : ChainEntry AccountId BlockNumber, (∀ v, reportOf v c = none) →
      Steps (exchange hR hI decl F) (exchange (hR ++ [c]) hI decl F) := by
    intro c hc
    rw [exchange_of_no_report hc]
  have hsent : sent = [] := by cases o <;> cases he <;> rfl
  rw [add_packets_nil 2000 F hsent]
  refine ⟨id, ?_⟩
  cases o with
  | root =>
    cases he with
    | createFactory _ => exact quiet _ fun _ => reportOf_of_ne (by simp)
    | failed => exact quiet _ fun _ => reportOf_error
  | signed who =>
    cases he with
    | @reportAccident _ d _ _ =>
      refine .single (exchange_report (v := who) (d := d) ?_ fun w hw => ?_)
      · simp [reportOf, LocalOrigin.toOrigin]
      · simp [reportOf, LocalOrigin.toOrigin, Ne.symm hw]
    | createVehicle _ _ => exact quiet _ fun _ => reportOf_of_ne (by simp)
    | initVehicle _ => exact quiet _ fun _ => reportOf_of_ne (by simp)
    | setIpfsStatus _ => exact quiet _ fun _ => reportOf_of_ne (by simp)
    | failed => exact quiet _ fun _ => reportOf_error

/-- A request that Renault's chain meets: it is answered with what was reported, or ignored. -/
theorem renault_request {v : AccountId} {k : UInt32} (hl : AccidentLedger cfg hR s)
    (he : Effect cfg router s (.cumulusXcm (.siblingPara 3000)) (.renault (.requestData v k)) r s' sent)
    (hcf : cfg.CollisionFree (usedIn (hR ++ [⟨s, .call router (.cumulusXcm (.siblingPara 3000))
      (.renault (.requestData v k)), some ⟨r, ev, sent⟩⟩]))) :
    (Closed F → Closed (F + packets 2000 (some (⟨r, ev, sent⟩ : Receipt AccountId BlockNumber)))) ∧
      Steps (exchange hR hI decl (requestPacket v k ::ₘ F))
        (exchange (hR ++ [⟨s, .call router (.cumulusXcm (.siblingPara 3000))
            (.renault (.requestData v k)), some ⟨r, ev, sent⟩⟩]) hI decl
          (F + packets 2000 (some (⟨r, ev, sent⟩ : Receipt AccountId BlockNumber)))) := by
  have hquiet : ∀ w, reportOf w (⟨s, .call router (.cumulusXcm (.siblingPara 3000))
      (.renault (.requestData v k)), some ⟨r, ev, sent⟩⟩ : ChainEntry AccountId BlockNumber) = none :=
    fun w => reportOf_of_ne nofun
  rw [exchange_of_no_report hquiet]
  cases he with
  | @requestData _ _ _ d vehicle data _ =>
    have hk : k ≠ 0 := ((getAccidentData_eq_ok cfg s).mp data).1
    have hk' : k.toNat ≠ 0 := fun h => hk (UInt32.toNat_inj.mp h)
    rw [usedIn_snoc] at hcf
    simp only [keysUsed, vehicle, if_true] at hcf
    rw [hl.getAccidentData_eq cfg v hk hcf, answer_eq_ok] at data
    rw [add_packets_singleton _ F rfl]
    exact ⟨fun hF => hF.cons (.inr ⟨v, k, d, rfl⟩), .single (exchange_answer hk' data)⟩
  | failed =>
    rw [add_packets_nil _ F rfl]
    exact ⟨id, .single (exchange_ignore v k)⟩

/-- A call that the insurer's chain meets from its own users: a declaration, which asks Renault
unless the router refuses, or nothing. -/
theorem insurer_call {call : InsurerCall AccountId}
    (he : Effect cfg router s o.toOrigin (.insurer call) r s' sent) :
    (Closed F → Closed (F + packets 3000 (some (⟨r, ev, sent⟩ : Receipt AccountId BlockNumber)))) ∧
      Steps (exchange hR hI s.declaredAccidents F)
        (exchange hR (hI ++ [⟨s, .call router o.toOrigin (.insurer call), some ⟨r, ev, sent⟩⟩])
          s'.declaredAccidents
          (F + packets 3000 (some (⟨r, ev, sent⟩ : Receipt AccountId BlockNumber)))) := by
  have hd : ChainEntry.delivery (⟨s, .call router o.toOrigin (.insurer call), some ⟨r, ev, sent⟩⟩ :
      ChainEntry AccountId BlockNumber) = none := by cases o <;> rfl
  rw [exchange_of_no_delivery hd]
  cases o with
  | root =>
    cases he with
    | failed => rw [add_packets_nil _ F rfl]; exact ⟨id, .refl⟩
  | signed who =>
    cases he with
    | signUp => rw [add_packets_nil _ F rfl]; exact ⟨id, .refl⟩
    | @declare _ v k _ free _ =>
      rw [add_packets_singleton _ F rfl]
      exact ⟨fun hF => hF.cons (.inl ⟨v, k, rfl⟩), .tail (.single (exchange_declare free v k))
        (exchange_ask ⟨_, StorageMap.get_insert_self⟩)⟩
    | @undelivered _ v k _ _ free _ =>
      rw [add_packets_nil _ F rfl]
      exact ⟨id, .single (exchange_declare free v k)⟩
    | failed => rw [add_packets_nil _ F rfl]; exact ⟨id, .refl⟩

/-- A reply that the insurer's chain meets is received, whether or not it is stored. -/
theorem insurer_reply {v : AccountId} {k : UInt32} {d : DataHash}
    (he : Effect cfg router s (.cumulusXcm (.siblingPara 2000)) (.insurer (.receiveData v k d)) r s'
      sent) :
    (Closed F → Closed (F + packets 3000 (some (⟨r, ev, sent⟩ : Receipt AccountId BlockNumber)))) ∧
      Steps (exchange hR hI s.declaredAccidents (replyPacket v k d ::ₘ F))
        (exchange hR (hI ++ [⟨s, .call router (.cumulusXcm (.siblingPara 2000))
            (.insurer (.receiveData v k d)), some ⟨r, ev, sent⟩⟩]) s'.declaredAccidents
          (F + packets 3000 (some (⟨r, ev, sent⟩ : Receipt AccountId BlockNumber)))) := by
  cases he with
  | receiveData _ => rw [add_packets_nil _ F rfl]; exact ⟨id, .single (exchange_receive rfl)⟩
  | failed => rw [add_packets_nil _ F rfl]; exact ⟨id, .single (exchange_receive rfl)⟩

end Chains

/-! ## Steps of the system -/

/-- The exchange that the system conducts. -/
def exchangeAt (h : List (NetworkEntry AccountId BlockNumber)) (σ : System AccountId BlockNumber) :
    Exchange AccountId DataHash :=
  exchange (historyOf .renault h) (historyOf .insurer h) σ.insurer.declaredAccidents σ.inFlight

section Run

variable (cfg : Config AccountId)

section Exec

variable {h : List (NetworkEntry AccountId BlockNumber)} {σ : System AccountId BlockNumber}
  {a : Action AccountId BlockNumber} {F : Multiset (Packet AccountId)}
  {i : Input AccountId BlockNumber}

theorem exchangeAt_renault
    (hs : (network cfg).step σ a = { σ with inFlight := F }.exec cfg .renault i) :
    exchangeAt (h ++ [(network cfg).entry σ a]) ((network cfg).next σ a) =
      exchange (historyOf .renault h ++ [(chain cfg).entry σ.renault i]) (historyOf .insurer h)
        σ.insurer.declaredAccidents (F + packets 2000 ((chain cfg).step σ.renault i).2) := by
  rw [exchangeAt, historyOf_snoc, historyOf_snoc, onChain_exec cfg hs, onChain_exec cfg hs,
    Machine.next, hs]
  simp only [if_true, reduceCtorEq, if_false, Option.toList_none, Option.toList_some, List.append_nil]
  rfl

theorem exchangeAt_insurer
    (hs : (network cfg).step σ a = { σ with inFlight := F }.exec cfg .insurer i) :
    exchangeAt (h ++ [(network cfg).entry σ a]) ((network cfg).next σ a) =
      exchange (historyOf .renault h) (historyOf .insurer h ++ [(chain cfg).entry σ.insurer i])
        ((chain cfg).next σ.insurer i).declaredAccidents
        (F + packets 3000 ((chain cfg).step σ.insurer i).2) := by
  rw [exchangeAt, historyOf_snoc, historyOf_snoc, onChain_exec cfg hs, onChain_exec cfg hs,
    Machine.next, hs]
  simp only [if_true, reduceCtorEq, if_false, Option.toList_none, Option.toList_some, List.append_nil]
  rfl

/-- A new block on either chain is no step of the exchange. -/
theorem exchangeAt_newBlock {side : Side} {n : BlockNumber}
    (hs : (network cfg).step σ a = σ.exec cfg side (.newBlock n)) :
    exchangeAt (h ++ [(network cfg).entry σ a]) ((network cfg).next σ a) = exchangeAt h σ := by
  cases side with
  | renault =>
    rw [exchangeAt_renault cfg hs, chain_entry_newBlock, exchange_of_no_report fun _ => rfl]
    exact congrArg _ (Multiset.add_zero _)
  | insurer =>
    rw [exchangeAt_insurer cfg hs, chain_entry_newBlock, exchange_of_no_delivery rfl]
    exact congrArg _ (Multiset.add_zero _)

end Exec

variable (gR gI : Genesis AccountId BlockNumber)

/-- A step of the system, after any run: only requests and replies stay in flight, and it is a
number of steps of the exchange. -/
theorem system_steps (as : List (Action AccountId BlockNumber)) (a : Action AccountId BlockNumber) :
    let σ := (network cfg).run (.init gR gI) as
    let h := (network cfg).trace (.init gR gI) as
    Closed σ.inFlight →
    cfg.CollisionFree (usedIn (historyOf .renault (h ++ [(network cfg).entry σ a]))) →
    Closed ((network cfg).next σ a).inFlight ∧
      Steps (exchangeAt h σ)
        (exchangeAt (h ++ [(network cfg).entry σ a]) ((network cfg).next σ a)) := by
  intro σ h hc hcf
  have hF : ((network cfg).next σ a).inFlight = ((network cfg).step σ a).1.inFlight := rfl
  have hstep := closed_step cfg hc a
  generalize hs : (network cfg).step σ a = res at hstep hF
  cases hstep with
  | newBlock side n =>
    rw [exchangeAt_newBlock cfg hs, hF, exec_inFlight]
    refine ⟨?_, .refl⟩
    cases side <;> exact (Multiset.add_zero σ.inFlight).symm ▸ hc
  | renault router o call =>
    have heff := dispatch_effect cfg router σ.renault o.toOrigin (.renault call)
    obtain ⟨hclosed, hsteps⟩ := renault_call (dispatch cfg router _ _ σ.renault).2.events heff
    rw [exchangeAt_renault cfg hs, hF, exec_inFlight]
    exact ⟨hclosed hc, hsteps⟩
  | insurer router o call =>
    have heff := dispatch_effect cfg router σ.insurer o.toOrigin (.insurer call)
    obtain ⟨hclosed, hsteps⟩ := insurer_call (dispatch cfg router _ _ σ.insurer).2.events heff
    rw [exchangeAt_insurer cfg hs, hF, exec_inFlight]
    exact ⟨hclosed hc, hsteps⟩
  | @request router v k mem =>
    have heff := dispatch_effect cfg router σ.renault (.cumulusXcm (.siblingPara 3000))
      (.renault (.requestData v k))
    have hbefore : exchangeAt h σ = exchange (historyOf .renault h) (historyOf .insurer h)
        σ.insurer.declaredAccidents (requestPacket v k ::ₘ σ.inFlight.erase (requestPacket v k)) := by
      rw [Multiset.cons_erase mem]; rfl
    rw [historyOf_snoc, onChain_exec cfg hs, if_pos rfl] at hcf
    obtain ⟨hclosed, hsteps⟩ := renault_request (dispatch cfg router _ _ σ.renault).2.events
      (renault_ledger cfg gR gI as) heff hcf
    rw [exchangeAt_renault cfg hs, hF, exec_inFlight, hbefore]
    exact ⟨hclosed (hc.mono (Multiset.erase_subset _ _)), hsteps⟩
  | @reply router v k d mem =>
    have heff := dispatch_effect cfg router σ.insurer (.cumulusXcm (.siblingPara 2000))
      (.insurer (.receiveData v k d))
    have hbefore : exchangeAt h σ = exchange (historyOf .renault h) (historyOf .insurer h)
        σ.insurer.declaredAccidents (replyPacket v k d ::ₘ σ.inFlight.erase (replyPacket v k d)) := by
      rw [Multiset.cons_erase mem]; rfl
    obtain ⟨hclosed, hsteps⟩ := insurer_reply (dispatch cfg router _ _ σ.insurer).2.events heff
    rw [exchangeAt_insurer cfg hs, hF, exec_inFlight, hbefore]
    exact ⟨hclosed (hc.mono (Multiset.erase_subset _ _)), hsteps⟩
  | idle router notMem =>
    have hnext : (network cfg).next σ (.deliver router _) = σ := congrArg Prod.fst hs
    simp only [exchangeAt, historyOf_snoc, hnext, NetworkEntry.onChain, Machine.entry_output, hs,
      Option.toList_none, List.append_nil]
    exact ⟨hc, .refl⟩

/-- Going on from any run of the system is a number of steps of the exchange. -/
theorem run_steps (as bs : List (Action AccountId BlockNumber))
    (hc : Closed ((network cfg).run (.init gR gI) as).inFlight)
    (hcf : cfg.CollisionFree
      (usedIn (historyOf .renault ((network cfg).trace (.init gR gI) (as ++ bs))))) :
    Closed ((network cfg).run (.init gR gI) (as ++ bs)).inFlight ∧
      Steps (exchangeAt ((network cfg).trace (.init gR gI) as) ((network cfg).run (.init gR gI) as))
        (exchangeAt ((network cfg).trace (.init gR gI) (as ++ bs))
          ((network cfg).run (.init gR gI) (as ++ bs))) := by
  induction bs using List.reverseRecOn with
  | nil => rw [List.append_nil]; exact ⟨hc, .refl⟩
  | append_singleton bs b ih =>
    rw [← List.append_assoc, Machine.trace_snoc] at hcf
    obtain ⟨hc', hsteps⟩ := ih (hcf.mono (by
      rw [historyOf_append, usedIn_append]; exact List.subset_append_left _ _))
    obtain ⟨hc'', hstep⟩ := system_steps cfg gR gI (as ++ bs) b hc' hcf
    rw [← List.append_assoc, Machine.trace_snoc, Machine.run_snoc]
    exact ⟨hc'', hsteps.trans hstep⟩

theorem exchangeAt_init : exchangeAt [] (System.init gR gI) = .empty := by
  refine Exchange.ext rfl (Set.eq_empty_iff_forall_notMem.mpr ?_) rfl rfl
  rintro x ⟨key, k, hk, -⟩
  change gI.storage.declaredAccidents.get key = _ at hk
  rw [(genesis_unwritten gI).declaredAccidents] at hk
  cases hk

/-- After every run of the system, only requests and replies are in flight, and the exchange is
sound. -/
theorem exchange_sound (as : List (Action AccountId BlockNumber))
    (hcf : cfg.CollisionFree (usedIn (historyOf .renault ((network cfg).trace (.init gR gI) as)))) :
    Closed ((network cfg).run (.init gR gI) as).inFlight ∧
      Sound (exchangeAt ((network cfg).trace (.init gR gI) as)
        ((network cfg).run (.init gR gI) as)) := by
  have hc : Closed ((network cfg).run (.init gR gI) []).inFlight :=
    fun p hp => absurd hp (Multiset.notMem_zero p)
  obtain ⟨hc', hsteps⟩ := run_steps cfg gR gI [] as hc hcf
  refine ⟨hc', Sound.steps ?_ hsteps⟩
  rw [Machine.trace_nil, Machine.run_nil, exchangeAt_init]
  exact .empty

/-- The insurer's `AccidentsData` is the evidence, where no keys collide. -/
theorem evidence_eq (as : List (Action AccountId BlockNumber)) (v : AccountId) (k : UInt32) :
    let h := (network cfg).trace (.init gR gI) as
    let σ := (network cfg).run (.init gR gI) as
    cfg.CollisionFree (usedIn (historyOf .insurer h) ++ [(v, k)]) →
    σ.insurer.accidentsData.get (cfg.key v k) = (exchangeAt h σ).evidence (v, k.toNat) := by
  intro h σ hcf
  rw [insurer_received]
  simp only [exchangeAt, exchange, firstDelivered, firstAbout]
  congr 1
  refine List.find?_congr fun y hy => decide_eq_decide.mpr ?_
  rw [storedUnder, insurer_key]
  constructor
  · intro hkey
    obtain ⟨hv, hk⟩ := hcf.key_inj (List.mem_append_left _ (mem_usedIn_of_delivery hy)) (by simp) hkey
    rw [hv, hk]
  · intro heq
    obtain ⟨hv, hk⟩ := Prod.mk.inj heq
    rw [hv, UInt32.toNat_inj.mp hk]

end Run

end SIM.Proof
