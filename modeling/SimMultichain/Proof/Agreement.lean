import SimMultichain.Proof.Refinement

/-!
# The chains agree

What the insurer holds as the data of an accident is what Renault's chain answers
for it, what the vehicle signed, and what a driver declared
(`cross_chain_agreement`), at any point of any run and in whatever order messages
are delivered; a request that can be answered is answered once, and a reply that
was delivered is never lost (`no_lost_reply`). Both follow from the soundness of
the exchange that the chains conduct.

The two chains number the accidents of a vehicle differently: Renault stores them
under a count from 0, the insurer under one from 1. `shared_key_iff` says when the
two maps agree on the keys that both hold.
-/

namespace SIM.Proof

open SIM.Impl
open SIM.Spec.Exchange (evidence_steps)

variable {AccountId BlockNumber : Type}

theorem usedIn_renault_subset (h : List (NetworkEntry AccountId BlockNumber)) :
    usedIn (historyOf .renault h) ⊆ keysOf h := List.subset_append_left _ _

theorem usedIn_insurer_subset (h : List (NetworkEntry AccountId BlockNumber)) :
    usedIn (historyOf .insurer h) ⊆ keysOf h := List.subset_append_right _ _

variable [DecidableEq AccountId] (cfg : Config AccountId) (gR gI : Genesis AccountId BlockNumber)

/-! ## Agreement -/

/-- What the insurer holds under a key is genuine. -/
theorem accidentsData_genuine (as : List (Action AccountId BlockNumber)) {v : AccountId} {k : UInt32}
    {d : DataHash} :
    let h := (network cfg).trace (.init gR gI) as
    let σ := (network cfg).run (.init gR gI) as
    cfg.CollisionFree (keysOf h ++ [(v, k)]) →
    σ.insurer.accidentsData.get (cfg.key v k) = some d →
    (exchangeAt h σ).Genuine v k.toNat d := by
  intro h σ hcf hd
  have hR : cfg.CollisionFree (usedIn (historyOf .renault h)) :=
    hcf.mono (List.subset_append_of_subset_left _ (usedIn_renault_subset h))
  have hI : cfg.CollisionFree (usedIn (historyOf .insurer h) ++ [(v, k)]) :=
    hcf.mono (List.append_subset.mpr
      ⟨List.subset_append_of_subset_left _ (usedIn_insurer_subset h), List.subset_append_right _ _⟩)
  rw [evidence_eq cfg gR gI as v k hI] at hd
  exact (exchange_sound cfg gR gI as hR).2.held hd

/-- Whatever the insurer's chain holds as the data of the `k`-th accident of `v`, Renault's chain
answers with, `v` signed in its `k`-th accepted report, and a driver declared. -/
theorem cross_chain_agreement (as : List (Action AccountId BlockNumber)) (v : AccountId) (k : UInt32)
    (d : DataHash) :
    let h := (network cfg).trace (.init gR gI) as
    let σ := (network cfg).run (.init gR gI) as
    cfg.CollisionFree (keysOf h ++ (v, k) :: keysQueried v k) →
    σ.insurer.accidentsData.get
      (SimInsuranceAccident.createCompositeKey cfg [cfg.encode v, toLeBytes k]) = some d →
    SimRenaultAccident.getAccidentData cfg σ.renault v k = .ok d ∧
      (1 ≤ k.toNat ∧ (reports v (historyOf .renault h))[k.toNat - 1]? = some d) ∧
      ∃ key, σ.insurer.declaredAccidents.get key = some (v, k) := by
  intro h σ hcf hd
  have hcf' : cfg.CollisionFree (keysOf h ++ [(v, k)]) :=
    hcf.mono (List.append_subset.mpr ⟨List.subset_append_left _ _, by simp⟩)
  have hg := accidentsData_genuine cfg gR gI as hcf' hd
  have hk : k ≠ 0 := fun hk => hg.pos (by rw [hk]; rfl)
  have hq : cfg.CollisionFree (usedIn (historyOf .renault h) ++ keysQueried v k) :=
    hcf.mono (List.append_subset.mpr
      ⟨List.subset_append_of_subset_left _ (usedIn_renault_subset h),
        List.subset_append_of_subset_right _ (List.subset_cons_self _ _)⟩)
  refine ⟨?_, ⟨Nat.one_le_iff_ne_zero.mpr hg.pos, hg.reported⟩, ?_⟩
  · rw [(renault_ledger cfg gR gI as).getAccidentData_eq cfg v hk hq, answer_eq_ok]
    exact hg.reported
  · obtain ⟨key, k', hkey, hk'⟩ := hg.declared
    rw [UInt32.toNat_inj.mp hk']
    exact ⟨key, hkey⟩

/-- A vehicle reports twice, and a driver declares the first accident. -/
def declaredFirst : List (Action AccountId32 UInt32) :=
  [.renaultCall (fun _ => .ok ()) (.signed alice) (.reportAccident hash1),
    .renaultCall (fun _ => .ok ()) (.signed alice) (.reportAccident hash2),
    .insurerCall (fun _ => .ok ()) (.signed alice) (.reportAccident alice 1)]

/-- Then the request and the reply to it are delivered. -/
def exchangedFirst : List (Action AccountId32 UInt32) :=
  declaredFirst ++ [.deliver (fun _ => .ok ()) (requestPacket alice 1),
    .deliver (fun _ => .ok ()) (replyPacket alice 1 hash1)]

/-- The keys that this run uses, and what both chains then hold under the key of the vehicle and 1. -/
theorem exchangedFirst_run :
    let h := (network (runtime false)).trace (.init renaultGenesis insurerGenesis) exchangedFirst
    let σ := (network (runtime false)).run (.init renaultGenesis insurerGenesis) exchangedFirst
    let key := SimInsuranceAccident.createCompositeKey (runtime false)
      [(runtime false).encode alice, toLeBytes 1]
    keysOf h = [(alice, 0), (alice, 1), (alice, 0), (alice, 0), (alice, 1)] ∧
      σ.renault.accidents.get key = some hash2 ∧ σ.insurer.accidentsData.get key = some hash1 := by
  decide +kernel

theorem exchangedFirst_collisionFree :
    (runtime false).CollisionFree (keysOf ((network (runtime false)).trace
      (.init renaultGenesis insurerGenesis) exchangedFirst)) := by
  rw [exchangedFirst_run.1]
  exact runtime_collisionFree.mono (by simp)

theorem cross_chain_agreement_exchangedFirst :
    let h := (network (runtime false)).trace (.init renaultGenesis insurerGenesis) exchangedFirst
    (runtime false).CollisionFree (keysOf h ++ (alice, 1) :: keysQueried alice 1) ∧
      ((network (runtime false)).run (.init renaultGenesis insurerGenesis)
        exchangedFirst).insurer.accidentsData.get (SimInsuranceAccident.createCompositeKey
          (runtime false) [(runtime false).encode alice, toLeBytes 1]) = some hash1 ∧
      SimRenaultAccident.getAccidentData (runtime false) ((network (runtime false)).run
        (.init renaultGenesis insurerGenesis) exchangedFirst).renault alice 1 = .ok hash1 := by
  intro h
  have hcf : (runtime false).CollisionFree (keysOf h ++ (alice, 1) :: keysQueried alice 1) := by
    rw [exchangedFirst_run.1]
    exact runtime_collisionFree.mono (by simp [keysQueried])
  have hd := exchangedFirst_run.2.2
  exact ⟨hcf, hd, (cross_chain_agreement (runtime false) renaultGenesis insurerGenesis
    exchangedFirst alice 1 hash1 hcf hd).1⟩

/-! ## Replies -/

/-- What a data request sends. -/
theorem request_sent (router : SendXcm AccountId) (p : ParaId) (v : AccountId) (k : UInt32)
    (s : Storage AccountId BlockNumber) :
    (dispatch cfg router (.cumulusXcm (.siblingPara p)) (.renault (.requestData v k)) s).2.sent =
      if SimRenault.isVehicle s v then
        match SimRenaultAccident.getAccidentData cfg s v k with
        | .ok d =>
          match router (SimRenaultAccident.dataReply p v k d) with
          | .ok () => [SimRenaultAccident.dataReply p v k d]
          | .error _ => []
        | .error _ => []
      else [] := by
  simp only [dispatch, Call.exec, Call.body, requestData_exec]
  cases SimRenault.isVehicle s v with
  | false => cases cfg.transactional <;> rfl
  | true =>
    simp only [if_true]
    cases SimRenaultAccident.getAccidentData cfg s v k with
    | error e => cases cfg.transactional <;> rfl
    | ok d =>
      simp only
      cases router (SimRenaultAccident.dataReply p v k d) with
      | ok u => rfl
      | error e => cases cfg.transactional <;> rfl

section Request

variable {σ : System AccountId BlockNumber} (router : SendXcm AccountId) {v : AccountId} {k : UInt32}

theorem inFlight_request (mem : requestPacket v k ∈ σ.inFlight) :
    ((network cfg).next σ (.deliver router (requestPacket v k))).inFlight =
      σ.inFlight.erase (requestPacket v k) +
        packets 2000 (some (dispatch cfg router (.cumulusXcm (.siblingPara 3000))
          (.renault (.requestData v k)) σ.renault).2) := by
  rw [Machine.next, step_request cfg router mem, exec_inFlight]
  rfl

/-- A request that can be answered is replaced by its reply. -/
theorem inFlight_answered (mem : requestPacket v k ∈ σ.inFlight) {d : DataHash}
    (vehicle : SimRenault.isVehicle σ.renault v = true)
    (data : SimRenaultAccident.getAccidentData cfg σ.renault v k = .ok d)
    (taken : router (SimRenaultAccident.dataReply 3000 v k d) = .ok ()) :
    ((network cfg).next σ (.deliver router (requestPacket v k))).inFlight =
      replyPacket v k d ::ₘ σ.inFlight.erase (requestPacket v k) := by
  rw [inFlight_request cfg router mem]
  refine add_packets_singleton 2000 _ ?_
  rw [request_sent, if_pos vehicle, data]
  simp only [taken]

/-- Any other request is taken out, and nothing is sent. -/
theorem inFlight_unanswered (mem : requestPacket v k ∈ σ.inFlight)
    (data : SimRenault.isVehicle σ.renault v = true →
      ∃ e, SimRenaultAccident.getAccidentData cfg σ.renault v k = .error e) :
    ((network cfg).next σ (.deliver router (requestPacket v k))).inFlight =
      σ.inFlight.erase (requestPacket v k) := by
  rw [inFlight_request cfg router mem]
  refine add_packets_nil 2000 _ ?_
  rw [request_sent]
  split
  · rename_i vehicle
    obtain ⟨e, he⟩ := data vehicle
    rw [he]
  · rfl

end Request

/-- When a reply is delivered, the insurer holds its data. -/
theorem evidence_reply (as : List (Action AccountId BlockNumber)) (router : SendXcm AccountId)
    {v : AccountId} {k : UInt32} {d : DataHash} :
    let h := (network cfg).trace (.init gR gI) as
    let σ := (network cfg).run (.init gR gI) as
    let a := Action.deliver router (replyPacket v k d)
    cfg.CollisionFree (usedIn (historyOf .renault h)) → replyPacket v k d ∈ σ.inFlight →
    (exchangeAt (h ++ [(network cfg).entry σ a]) ((network cfg).next σ a)).evidence (v, k.toNat) =
      some d := by
  intro h σ a hcf mem
  have hs := (exchange_sound cfg gR gI as hcf).2
  have hm : .reply v k.toNat d ∈ (exchangeAt h σ).messages := Multiset.mem_map.mpr ⟨_, mem, rfl⟩
  rw [exchangeAt_insurer cfg (step_reply cfg router mem)]
  simp only [exchange]
  rw [deliveries_snoc]
  refine (congrFun (firstAbout_snoc _ ⟨2000, v, k, d⟩) _).trans ?_
  rw [Function.update_self]
  exact hs.receive hm

/-- A reply in flight that a run delivers leaves its data with the insurer. -/
theorem evidence_of_delivered {v : AccountId} {k : UInt32} {d : DataHash}
    (as bs : List (Action AccountId BlockNumber))
    (mem : replyPacket v k d ∈ ((network cfg).run (.init gR gI) as).inFlight)
    (hdel : ∃ router, .deliver router (replyPacket v k d) ∈ bs)
    (hcf : cfg.CollisionFree
      (usedIn (historyOf .renault ((network cfg).trace (.init gR gI) (as ++ bs))))) :
    (exchangeAt ((network cfg).trace (.init gR gI) (as ++ bs))
      ((network cfg).run (.init gR gI) (as ++ bs))).evidence (v, k.toNat) = some d := by
  induction bs generalizing as with
  | nil => obtain ⟨router, hr⟩ := hdel; cases hr
  | cons b bs ih =>
    rw [List.append_cons] at hcf ⊢
    have hpre : ∀ cs, cs <+: (as ++ [b]) ++ bs → cfg.CollisionFree
        (usedIn (historyOf .renault ((network cfg).trace (.init gR gI) cs))) := by
      rintro cs ⟨ds, he⟩
      refine hcf.mono ?_
      rw [← he, Machine.trace_append, historyOf_append, usedIn_append]
      exact List.subset_append_left _ _
    by_cases hb : ∃ router, b = .deliver router (replyPacket v k d)
    · obtain ⟨router, rfl⟩ := hb
      have hnow := evidence_reply cfg gR gI as router (hpre as ⟨_, (List.append_assoc _ _ _).symm⟩)
        mem
      rw [← Machine.trace_snoc, ← Machine.run_snoc] at hnow
      have hc := (exchange_sound cfg gR gI (as ++ [_]) (hpre _ (List.prefix_append _ _))).1
      exact evidence_steps (run_steps cfg gR gI _ bs hc hcf).2 hnow
    · have hstay := mem_inFlight_next cfg mem fun router h => hb ⟨router, h⟩
      rw [← Machine.run_snoc] at hstay
      refine ih (as ++ [b]) hstay ?_ hcf
      obtain ⟨router, hr⟩ := hdel
      rcases List.mem_cons.mp hr with he | hr
      · exact absurd ⟨router, he.symm⟩ hb
      · exact ⟨router, hr⟩

theorem accidentsData_of_delivered {v : AccountId} {k : UInt32} {d : DataHash}
    (as bs : List (Action AccountId BlockNumber))
    (mem : replyPacket v k d ∈ ((network cfg).run (.init gR gI) as).inFlight)
    (hdel : ∃ router, .deliver router (replyPacket v k d) ∈ bs)
    (hcf : cfg.CollisionFree (keysOf ((network cfg).trace (.init gR gI) (as ++ bs)))) :
    ((network cfg).run (.init gR gI) (as ++ bs)).insurer.accidentsData.get (cfg.key v k) = some d := by
  have hev := evidence_of_delivered cfg gR gI as bs mem hdel (hcf.mono (usedIn_renault_subset _))
  rw [evidence_eq cfg gR gI _ v k, hev]
  -- the key of `v` and `k` was used when the data was delivered
  obtain ⟨y, hy, rfl, rfl, -⟩ := firstAbout_eq_some hev
  refine hcf.mono (List.Subset.trans ?_ (usedIn_insurer_subset _))
  exact List.append_subset.mpr ⟨List.Subset.refl _, by simpa using mem_usedIn_of_delivery hy⟩

/-- A request of an initialised vehicle's accident that Renault's chain meets, read in the ledger of
the reports before it. -/
theorem getAccidentData_request (as : List (Action AccountId BlockNumber)) (router : SendXcm AccountId)
    {v : AccountId} {k : UInt32} :
    let h := (network cfg).trace (.init gR gI) as
    let σ := (network cfg).run (.init gR gI) as
    let a := Action.deliver router (requestPacket v k)
    requestPacket v k ∈ σ.inFlight → SimRenault.isVehicle σ.renault v = true → k ≠ 0 →
    cfg.CollisionFree (keysOf ((network cfg).trace (.init gR gI) (as ++ [a]))) →
    SimRenaultAccident.getAccidentData cfg σ.renault v k =
      answer (reports v (historyOf .renault h))[k.toNat - 1]? := by
  intro h σ a mem vehicle hk hcf
  refine (renault_ledger cfg gR gI as).getAccidentData_eq cfg v hk (hcf.mono ?_)
  refine List.Subset.trans ?_ (usedIn_renault_subset _)
  rw [Machine.trace_snoc, historyOf_snoc, onChain_exec cfg (step_request cfg router mem), if_pos rfl,
    Option.toList_some, usedIn_snoc]
  have hused : keysUsed σ.renault (.call router (.cumulusXcm (.siblingPara 3000))
      (.renault (.requestData v k))) = keysQueried v k := by simp only [keysUsed, vehicle, if_true]
  change _ ⊆ _ ++ keysUsed σ.renault _
  rw [Machine.entry_input, hused]
  exact List.Subset.refl _

/-- When a request of the insurer is delivered, an initialised vehicle that made the report asked for
is answered: if the router takes it, one reply is put in flight, with what `getAccidentData` returns,
and from then on, once it has been delivered, the insurer holds its data. Otherwise nothing is
sent. -/
theorem no_lost_reply (as : List (Action AccountId BlockNumber)) (router : SendXcm AccountId)
    (v : AccountId) (k : UInt32) :
    let h := (network cfg).trace (.init gR gI) as
    let σ := (network cfg).run (.init gR gI) as
    let a := Action.deliver router (requestPacket v k)
    requestPacket v k ∈ σ.inFlight →
    cfg.CollisionFree (keysOf ((network cfg).trace (.init gR gI) (as ++ [a]))) →
    (SimRenault.isVehicle σ.renault v = true → 1 ≤ k.toNat →
      k.toNat ≤ (reports v (historyOf .renault h)).length →
      ∃ d, SimRenaultAccident.getAccidentData cfg σ.renault v k = .ok d ∧
        (router (SimRenaultAccident.dataReply 3000 v k d) = .ok () →
          ((network cfg).next σ a).inFlight =
              replyPacket v k d ::ₘ σ.inFlight.erase (requestPacket v k) ∧
            ∀ bs, cfg.CollisionFree (keysOf ((network cfg).trace (.init gR gI) (as ++ a :: bs))) →
              (∃ router', .deliver router' (replyPacket v k d) ∈ bs) →
              ((network cfg).run (.init gR gI) (as ++ a :: bs)).insurer.accidentsData.get
                (SimInsuranceAccident.createCompositeKey cfg [cfg.encode v, toLeBytes k]) =
                  some d)) ∧
      (SimRenault.isVehicle σ.renault v = false ∨ k = 0 ∨
          (reports v (historyOf .renault h)).length < k.toNat →
        ((network cfg).next σ a).inFlight = σ.inFlight.erase (requestPacket v k)) := by
  intro h σ a mem hcf
  have hdata := fun vehicle hk => getAccidentData_request cfg gR gI as router mem vehicle hk hcf
  constructor
  · intro vehicle h1 hle
    have hk : k ≠ 0 := by rintro rfl; exact absurd h1 (by decide)
    have hlt : k.toNat - 1 < (reports v (historyOf .renault h)).length := by omega
    obtain ⟨d, hd⟩ : ∃ d, (reports v (historyOf .renault h))[k.toNat - 1]? = some d :=
      ⟨_, List.getElem?_eq_getElem hlt⟩
    have hok : SimRenaultAccident.getAccidentData cfg σ.renault v k = .ok d := by
      rw [hdata vehicle hk, hd]; rfl
    refine ⟨d, hok, fun taken => ?_⟩
    have hnext := inFlight_answered cfg router mem vehicle hok taken
    refine ⟨hnext, fun bs hbs hdel => ?_⟩
    rw [List.append_cons] at hbs ⊢
    rw [insurer_key]
    refine accidentsData_of_delivered cfg gR gI (as ++ [a]) bs ?_ hdel hbs
    rw [Machine.run_snoc, hnext]
    exact Multiset.mem_cons_self _ _
  · intro hno
    refine inFlight_unanswered cfg router mem fun vehicle => ?_
    rcases hno with hv | rfl | hlt
    · rw [vehicle] at hv; cases hv
    · exact ⟨_, getAccidentData_zero ..⟩
    · have hk : k ≠ 0 := by rintro rfl; exact absurd hlt (Nat.not_lt_zero _)
      have hn : (reports v (historyOf .renault h))[k.toNat - 1]? = none :=
        List.getElem?_eq_none (by omega)
      rw [hdata vehicle hk, hn]
      exact ⟨_, rfl⟩

/-- The request that this run leaves in flight, the vehicle it is about and its reports, and the
keys that are used with its delivery. -/
theorem declaredFirst_run :
    let h := (network (runtime false)).trace (.init renaultGenesis insurerGenesis) declaredFirst
    let σ := (network (runtime false)).run (.init renaultGenesis insurerGenesis) declaredFirst
    requestPacket alice 1 ∈ σ.inFlight ∧ SimRenault.isVehicle σ.renault alice = true ∧
      reports alice (historyOf .renault h) = [hash1, hash2] ∧
      SimRenaultAccident.getAccidentData (runtime false) σ.renault alice 1 = .ok hash1 ∧
      keysOf ((network (runtime false)).trace (.init renaultGenesis insurerGenesis)
        (declaredFirst ++ [.deliver (fun _ => .ok ()) (requestPacket alice 1)])) =
          [(alice, 0), (alice, 1), (alice, 0), (alice, 0)] := by
  decide +kernel

theorem no_lost_reply_declaredFirst :
    requestPacket alice 1 ∈ ((network (runtime false)).run (.init renaultGenesis insurerGenesis)
        declaredFirst).inFlight ∧
      (runtime false).CollisionFree (keysOf ((network (runtime false)).trace
        (.init renaultGenesis insurerGenesis) exchangedFirst)) ∧
      ((network (runtime false)).run (.init renaultGenesis insurerGenesis)
        exchangedFirst).insurer.accidentsData.get (SimInsuranceAccident.createCompositeKey
          (runtime false) [(runtime false).encode alice, toLeBytes 1]) = some hash1 := by
  obtain ⟨hmem, hv, hr, hd, hu⟩ := declaredFirst_run
  have hcf := exchangedFirst_collisionFree
  obtain ⟨hyes, -⟩ := no_lost_reply (runtime false) renaultGenesis insurerGenesis declaredFirst
    (fun _ => .ok ()) alice 1 hmem (by rw [hu]; exact runtime_collisionFree.mono (by simp))
  obtain ⟨d, hd', hreply⟩ := hyes hv (by decide) (by rw [hr]; decide)
  obtain rfl : d = hash1 := Except.ok.inj (hd'.symm.trans hd)
  have hlast := (hreply rfl).2 [.deliver (fun _ => .ok ()) (replyPacket alice 1 hash1)]
  rw [show declaredFirst ++ .deliver (fun _ => .ok ()) (requestPacket alice 1) ::
    [.deliver (fun _ => .ok ()) (replyPacket alice 1 hash1)] = exchangedFirst from rfl] at hlast
  exact ⟨hmem, hcf, hlast hcf ⟨_, List.mem_singleton_self _⟩⟩

/-! ## Keys that both chains hold -/

/-- What was delivered about an accident is held. -/
theorem firstAbout_of_mem {xs : List (Delivery AccountId)} {y : Delivery AccountId} (hy : y ∈ xs) :
    ∃ d, firstAbout xs (y.vehicleId, y.vehicleAccidentCount.toNat) = some d := by
  have hsome : (xs.find? fun x => (x.vehicleId, x.vehicleAccidentCount.toNat) =
      (y.vehicleId, y.vehicleAccidentCount.toNat)).isSome := by
    rw [List.find?_isSome]
    exact ⟨y, hy, by simp⟩
  obtain ⟨x, hx⟩ := Option.isSome_iff_exists.mp hsome
  exact ⟨x.data, Option.map_eq_some_iff.mpr ⟨x, hx, rfl⟩⟩

/-- Under the key of a delivery of the `k`-th accident, the insurer holds the vehicle's `k`-th report;
Renault's chain holds the one after it there. -/
theorem delivered_held (as : List (Action AccountId BlockNumber)) {y : Delivery AccountId} :
    let h := (network cfg).trace (.init gR gI) as
    let σ := (network cfg).run (.init gR gI) as
    cfg.CollisionFree (keysOf h) → y ∈ deliveries (historyOf .insurer h) →
    ∃ e, σ.insurer.accidentsData.get (cfg.key y.vehicleId y.vehicleAccidentCount) = some e ∧
      (reports y.vehicleId (historyOf .renault h))[y.vehicleAccidentCount.toNat - 1]? = some e := by
  intro h σ hcf hy
  have hmem := usedIn_insurer_subset h (mem_usedIn_of_delivery hy)
  obtain ⟨e, he⟩ := firstAbout_of_mem hy
  have hev : σ.insurer.accidentsData.get (cfg.key y.vehicleId y.vehicleAccidentCount) = some e := by
    rw [evidence_eq cfg gR gI as y.vehicleId y.vehicleAccidentCount (hcf.mono ?_)]
    · exact he
    · exact List.append_subset.mpr ⟨usedIn_insurer_subset h, by simpa using hmem⟩
  have hkeys : keysOf h ++ [(y.vehicleId, y.vehicleAccidentCount)] ⊆ keysOf h :=
    List.append_subset.mpr ⟨List.Subset.refl _, by simpa using hmem⟩
  exact ⟨e, hev, (accidentsData_genuine cfg gR gI as (hcf.mono hkeys) hev).reported⟩

/-- Renault's `Accidents` and the insurer's `AccidentsData` hold the same data under each key that
both hold, exactly if each vehicle whose `k`-th accident was delivered has reported the same data
in its `k`-th and its `k + 1`-st report, or made no more than `k` reports. -/
theorem shared_key_iff (as : List (Action AccountId BlockNumber)) :
    let h := (network cfg).trace (.init gR gI) as
    let σ := (network cfg).run (.init gR gI) as
    cfg.CollisionFree (keysOf h) →
    ((∀ key d e, σ.renault.accidents.get key = some d → σ.insurer.accidentsData.get key = some e →
        d = e) ↔
      ∀ y ∈ deliveries (historyOf .insurer h), ∀ d,
        (reports y.vehicleId (historyOf .renault h))[y.vehicleAccidentCount.toNat]? = some d →
        (reports y.vehicleId (historyOf .renault h))[y.vehicleAccidentCount.toNat - 1]? = some d) := by
  intro h σ hcf
  have hl := renault_ledger cfg gR gI as
  constructor
  · intro hall y hy d hd
    obtain ⟨e, hev, hrep⟩ := delivered_held cfg gR gI as hcf hy
    have hacc := hl.represents.stored hd
    rw [UInt32.ofNat_toNat] at hacc
    rw [hrep, hall _ d e hacc hev]
  · intro hall key d e hd he
    obtain ⟨v, i, hi, rfl⟩ := hl.represents.only hd
    have hlt := (List.getElem?_eq_some_iff.mp hi).1
    have hv : (v, UInt32.ofNat i) ∈ keysOf h := usedIn_renault_subset h (hl.used v i hlt)
    have he' := he
    rw [insurer_received] at he'
    obtain ⟨y, hy, hkey, -⟩ := firstDelivered_eq_some cfg he'
    rw [storedUnder, insurer_key] at hkey
    obtain ⟨rfl, hk⟩ := hcf.key_inj (usedIn_insurer_subset h (mem_usedIn_of_delivery hy)) hv hkey
    have hn : y.vehicleAccidentCount.toNat = i := by
      rw [hk, ofNat_toNat_of_lt (lt_of_lt_of_le hlt (hl.represents.length_le _))]
    obtain ⟨e', hev, hrep⟩ := delivered_held cfg gR gI as hcf hy
    rw [hk, he] at hev
    cases hev
    have hsame := hall y hy d (by rw [hn]; exact hi)
    exact Option.some.inj (hsame.symm.trans hrep)

/-- A vehicle reports the same data twice, its driver declares the first accident, and request and
reply are delivered. -/
def reportedTwice : List (Action AccountId32 UInt32) :=
  [.renaultCall (fun _ => .ok ()) (.signed alice) (.reportAccident hash1),
    .renaultCall (fun _ => .ok ()) (.signed alice) (.reportAccident hash1),
    .insurerCall (fun _ => .ok ()) (.signed alice) (.reportAccident alice 1),
    .deliver (fun _ => .ok ()) (requestPacket alice 1),
    .deliver (fun _ => .ok ()) (replyPacket alice 1 hash1)]

/-- The keys, the reports and the deliveries of this run, and a key that both chains hold. -/
theorem reportedTwice_run :
    let h := (network (runtime false)).trace (.init renaultGenesis insurerGenesis) reportedTwice
    let σ := (network (runtime false)).run (.init renaultGenesis insurerGenesis) reportedTwice
    keysOf h = [(alice, 0), (alice, 1), (alice, 0), (alice, 0), (alice, 1)] ∧
      reports alice (historyOf .renault h) = [hash1, hash1] ∧
      deliveries (historyOf .insurer h) = [⟨2000, alice, 1, hash1⟩] ∧
      σ.renault.accidents.get ((runtime false).key alice 1) = some hash1 ∧
      σ.insurer.accidentsData.get ((runtime false).key alice 1) = some hash1 := by
  decide +kernel

theorem shared_key_reportedTwice :
    (runtime false).CollisionFree (keysOf ((network (runtime false)).trace
        (.init renaultGenesis insurerGenesis) reportedTwice)) ∧
      (((network (runtime false)).run (.init renaultGenesis insurerGenesis)
          reportedTwice).renault.accidents.get ((runtime false).key alice 1) = some hash1 ∧
        ((network (runtime false)).run (.init renaultGenesis insurerGenesis)
          reportedTwice).insurer.accidentsData.get ((runtime false).key alice 1) = some hash1) ∧
      ∀ key d e, ((network (runtime false)).run (.init renaultGenesis insurerGenesis)
          reportedTwice).renault.accidents.get key = some d →
        ((network (runtime false)).run (.init renaultGenesis insurerGenesis)
          reportedTwice).insurer.accidentsData.get key = some e → d = e := by
  obtain ⟨hu, hr, hy, hheld⟩ := reportedTwice_run
  have hcf : (runtime false).CollisionFree (keysOf ((network (runtime false)).trace
      (.init renaultGenesis insurerGenesis) reportedTwice)) := by
    rw [hu]; exact runtime_collisionFree.mono (by simp)
  refine ⟨hcf, hheld, (shared_key_iff (runtime false) renaultGenesis insurerGenesis reportedTwice
    hcf).mpr fun y hmem d hd => ?_⟩
  rw [hy, List.mem_singleton] at hmem
  subst hmem
  rw [hr] at hd ⊢
  exact hd

/-- A vehicle with two accidents, the first of which was declared and its data delivered: the key of
the vehicle and 1 holds the second report on Renault's chain and the first on the insurer's. -/
theorem shared_key_differs :
    (runtime false).CollisionFree (keysOf ((network (runtime false)).trace
        (.init renaultGenesis insurerGenesis) exchangedFirst)) ∧
      ((network (runtime false)).run (.init renaultGenesis insurerGenesis)
        exchangedFirst).renault.accidents.get (SimInsuranceAccident.createCompositeKey
          (runtime false) [(runtime false).encode alice, toLeBytes 1]) = some hash2 ∧
      ((network (runtime false)).run (.init renaultGenesis insurerGenesis)
        exchangedFirst).insurer.accidentsData.get (SimInsuranceAccident.createCompositeKey
          (runtime false) [(runtime false).encode alice, toLeBytes 1]) = some hash1 ∧
      hash2 ≠ hash1 := by
  obtain ⟨-, hrenault, hinsurer⟩ := exchangedFirst_run
  exact ⟨exchangedFirst_collisionFree, hrenault, hinsurer, by decide +kernel⟩

end SIM.Proof
