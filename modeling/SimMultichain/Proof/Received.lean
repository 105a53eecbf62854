import SimMultichain.Impl.Runtime
import SimMultichain.Proof.History

/-!
# Received data

`AccidentsData` holds what siblings delivered, and the first delivery for a key
is the one that stays (`accidentsData_eq`). `receiveData` asks only that its
origin is some sibling para, so the first delivery may come from any of them: the
requests all go to para 2000, but another sibling may answer first, and then the
reply of para 2000 is refused.
-/

namespace SIM.Proof

open SIM.Impl

variable {AccountId BlockNumber : Type}

theorem deliveries_snoc (h : List (ChainEntry AccountId BlockNumber))
    (e : ChainEntry AccountId BlockNumber) :
    deliveries (h ++ [e]) = deliveries h ++ e.delivery.toList := by
  rw [deliveries, List.filterMap_append]
  cases he : e.delivery <;> simp [deliveries, he]

/-- The key of a delivery is among those used. -/
theorem mem_usedIn_of_delivery {h : List (ChainEntry AccountId BlockNumber)} {y : Delivery AccountId}
    (hy : y ∈ deliveries h) : (y.vehicleId, y.vehicleAccidentCount) ∈ usedIn h := by
  obtain ⟨e, he, hd⟩ := List.mem_filterMap.mp hy
  refine List.mem_flatMap.mpr ⟨e, he, ?_⟩
  simp only [ChainEntry.delivery] at hd
  split at hd
  · rename_i hi
    cases hd
    rw [hi]
    exact List.mem_singleton_self _
  · cases hd

variable (cfg : Config AccountId)

/-- The key a delivery is stored under. -/
def storedUnder (x : Delivery AccountId) : Hash :=
  SimInsuranceAccident.createCompositeKey cfg
    [cfg.encode x.vehicleId, toLeBytes x.vehicleAccidentCount]

/-- The data of the first of the deliveries for a key. -/
def firstDelivered (xs : List (Delivery AccountId)) (key : Hash) : Option DataHash :=
  (xs.find? fun x => storedUnder cfg x = key).map Delivery.data

theorem firstDelivered_append (xs ys : List (Delivery AccountId)) (key : Hash) :
    firstDelivered cfg (xs ++ ys) key = (firstDelivered cfg xs key).or (firstDelivered cfg ys key) := by
  simp only [firstDelivered, List.find?_append, Option.map_or]

theorem firstDelivered_eq_some {xs : List (Delivery AccountId)} {key : Hash} {d : DataHash}
    (h : firstDelivered cfg xs key = some d) : ∃ x ∈ xs, storedUnder cfg x = key ∧ x.data = d := by
  obtain ⟨x, hx, hd⟩ := Option.map_eq_some_iff.mp h
  exact ⟨x, List.mem_of_find?_eq_some hx, by simpa using List.find?_some hx, hd⟩

theorem firstDelivered_eq_none {xs : List (Delivery AccountId)} {key : Hash} :
    firstDelivered cfg xs key = none ↔ ∀ x ∈ xs, storedUnder cfg x ≠ key := by
  simp [firstDelivered]

variable [DecidableEq AccountId]

/-- The call of a sibling. -/
theorem dispatch_receive (router : SendXcm AccountId) (s : Storage AccountId BlockNumber)
    (p : ParaId) (v : AccountId) (k : UInt32) (d : DataHash) :
    let r := dispatch cfg router (.cumulusXcm (.siblingPara p)) (.insurer (.receiveData v k d)) s
    (r.2.result, r.1) =
      if s.accidentsData.containsKey (cfg.key v k) then
        (.error (.simInsuranceAccident .accidentDataAlreadyStored), s)
      else (.ok (), { s with accidentsData := s.accidentsData.insert (cfg.key v k) d }) := by
  simp only [dispatch, Call.exec, Call.body, receiveData_exec]
  cases s.accidentsData.containsKey (cfg.key v k) with
  | true => cases cfg.transactional <;> rfl
  | false => rfl

/-- A step that delivers nothing leaves the received data alone. -/
theorem accidentsData_of_no_delivery {s s' : Storage AccountId BlockNumber}
    {e : ChainEntry AccountId BlockNumber} (hs : ChainStep cfg s e s') (hd : e.delivery = none) :
    s'.accidentsData = s.accidentsData := by
  cases hs with
  | newBlock n => rfl
  | call effect =>
    cases effect with
    | receiveData _ => cases hd
    | _ => rfl

/-- The received data after a step. -/
theorem accidentsData_next (s : Storage AccountId BlockNumber) (i : Input AccountId BlockNumber)
    (key : Hash) :
    ((chain cfg).next s i).accidentsData.get key =
      (s.accidentsData.get key).or
        (firstDelivered cfg (ChainEntry.delivery ((chain cfg).entry s i)).toList key) := by
  cases hd : ChainEntry.delivery ((chain cfg).entry s i) with
  | none =>
    rw [accidentsData_of_no_delivery cfg (chain_step cfg s i) hd]
    exact (Option.or_none).symm
  | some x =>
    obtain ⟨p, v, k, d⟩ := x
    have hi : ∃ router, i = .call router (.cumulusXcm (.siblingPara p))
        (.insurer (.receiveData v k d)) := by
      simp only [ChainEntry.delivery, Machine.entry_input] at hd
      split at hd
      · cases hd; exact ⟨_, rfl⟩
      · cases hd
    obtain ⟨router, rfl⟩ := hi
    have hr := congrArg Prod.snd (dispatch_receive cfg router s p v k d)
    rw [chain_next_call]
    refine (congrArg (fun t => t.accidentsData.get key) hr).trans ?_
    have hfirst : firstDelivered cfg [⟨p, v, k, d⟩] key = if key = cfg.key v k then some d else none := by
      by_cases hk : key = cfg.key v k <;>
        simp [firstDelivered, storedUnder, insurer_key, hk, eq_comm]
    rw [Option.toList_some, hfirst]
    cases hc : s.accidentsData.get (cfg.key v k) with
    | some d' =>
      rw [if_pos (StorageMap.containsKey_eq_true.mpr ⟨d', hc⟩)]
      split <;> rename_i hk
      · rw [hk, hc]; rfl
      · exact Option.or_none.symm
    | none =>
      rw [StorageMap.containsKey_eq_false.mpr hc]
      change (s.accidentsData.insert (cfg.key v k) d).get key = _
      rw [StorageMap.get_insert]
      split <;> rename_i hk
      · rw [hk, hc]; rfl
      · exact Option.or_none.symm

/-- After every run, a key holds the data of the first delivery for it. -/
theorem accidentsData_eq (g : Genesis AccountId BlockNumber)
    (is : List (Input AccountId BlockNumber)) (key : Hash) :
    ((chain cfg).run g.storage is).accidentsData.get key =
      firstDelivered cfg (deliveries ((chain cfg).trace g.storage is)) key := by
  refine (chain cfg).invariant
    (fun h s => ∀ key, s.accidentsData.get key = firstDelivered cfg (deliveries h) key)
    (fun _ => True) (fun key => ?_) (fun h s i _ ih key => ?_) (fun _ _ => trivial) key
  · rw [(genesis_unwritten g).accidentsData]; rfl
  · rw [accidentsData_next, ih key, deliveries_snoc, firstDelivered_append]

/-- A delivery made after a run is accepted if no delivery of the run was for its key. -/
theorem receive_result (g : Genesis AccountId BlockNumber) (is : List (Input AccountId BlockNumber))
    (router : SendXcm AccountId) (x : Delivery AccountId) :
    (dispatch cfg router (.cumulusXcm (.siblingPara x.source))
        (.insurer (.receiveData x.vehicleId x.vehicleAccidentCount x.data))
        ((chain cfg).run g.storage is)).2.result =
      if firstDelivered cfg (deliveries ((chain cfg).trace g.storage is)) (storedUnder cfg x) = none
      then .ok () else .error (.simInsuranceAccident .accidentDataAlreadyStored) := by
  have hr := congrArg Prod.fst (dispatch_receive cfg router ((chain cfg).run g.storage is) x.source
    x.vehicleId x.vehicleAccidentCount x.data)
  refine hr.trans ?_
  rw [← accidentsData_eq, storedUnder, insurer_key, StorageMap.containsKey]
  cases ((chain cfg).run g.storage is).accidentsData.get
    (cfg.key x.vehicleId x.vehicleAccidentCount) <;> rfl

/-- The requests of declarations go to para 2000. -/
theorem request_dest {s s' : Storage AccountId BlockNumber} {router : SendXcm AccountId}
    {o : Origin AccountId} {v : AccountId} {k : UInt32} {r : Except DispatchError Unit}
    {sent : List (Transact AccountId)}
    (he : Effect cfg router s o (.insurer (.reportAccident v k)) r s' sent) :
    ∀ m ∈ sent, m.dest = 2000 := by
  intro m hm
  cases he with
  | declare _ _ _ => rw [List.mem_singleton.mp hm]; rfl
  | undelivered _ _ _ => cases hm
  | failed => cases hm

/-- Whatever siblings deliver in a run: a key of `AccidentsData` holds the data of the first
delivery for it, by whichever sibling, and nothing else is ever stored; declarations send their
requests to para 2000 only; and a sibling's delivery, also one of para 2000, is accepted if and only
if no sibling delivered for its key before. -/
theorem received_from_siblings (g : Genesis AccountId BlockNumber)
    (is : List (Input AccountId BlockNumber)) :
    let h := (chain cfg).trace g.storage is
    let s := (chain cfg).run g.storage is
    (∀ key d, s.accidentsData.get key = some d ↔
      ∃ pre x post, deliveries h = pre ++ x :: post ∧ storedUnder cfg x = key ∧ x.data = d ∧
        ∀ y ∈ pre, storedUnder cfg y ≠ key) ∧
      (∀ e ∈ h, ∀ router o v k r, e.input = .call router o (.insurer (.reportAccident v k)) →
        e.output = some r → ∀ m ∈ r.sent, m.dest = 2000) ∧
      ∀ router (x : Delivery AccountId),
        (dispatch cfg router (.cumulusXcm (.siblingPara x.source))
            (.insurer (.receiveData x.vehicleId x.vehicleAccidentCount x.data)) s).2.result =
          if ∀ y ∈ deliveries h, storedUnder cfg y ≠ storedUnder cfg x then .ok ()
          else .error (.simInsuranceAccident .accidentDataAlreadyStored) := by
  intro h s
  refine ⟨fun key d => ?_, fun e he router o v k r hi hr => ?_, fun router x => ?_⟩
  · rw [accidentsData_eq, firstDelivered, Option.map_eq_some_iff]
    constructor
    · rintro ⟨x, hx, rfl⟩
      obtain ⟨hk, pre, post, hl, hpre⟩ := List.find?_eq_some_iff_append.mp hx
      exact ⟨pre, x, post, hl, by simpa using hk, rfl, fun y hy => by simpa using hpre y hy⟩
    · rintro ⟨pre, x, post, hl, hk, rfl, hpre⟩
      refine ⟨x, List.find?_eq_some_iff_append.mpr ⟨by simpa using hk, pre, post, hl, ?_⟩, rfl⟩
      intro y hy
      simpa using hpre y hy
  · obtain ⟨ps, i, qs, -, rfl⟩ := (chain cfg).mem_trace.mp he
    simp only [Machine.entry_input] at hi
    subst hi
    have hr' : r = (dispatch cfg router o (.insurer (.reportAccident v k))
        ((chain cfg).run g.storage ps)).2 := (Option.some.inj hr).symm
    rw [hr']
    exact request_dest cfg (dispatch_effect cfg router _ o (.insurer (.reportAccident v k)))
  · rw [receive_result]
    simp only [firstDelivered_eq_none, h]

/-- A declaration asks para 2000 for the vehicle's data, and para 4000 answers before it. -/
def forgedReply : List (Input AccountId32 UInt32) :=
  [.call (fun _ => .ok ()) (.signed alice) (.insurer (.reportAccident alice 1)),
    .call (fun _ => .ok ()) (.cumulusXcm (.siblingPara 4000)) (.insurer (.receiveData alice 1 hash2)),
    .call (fun _ => .ok ()) (.cumulusXcm (.siblingPara 2000)) (.insurer (.receiveData alice 1 hash1))]

/-- The forged data is stored, and the reply of para 2000 is refused. -/
theorem forged_reply_stored :
    let h := (chain (runtime false)).trace insurerGenesis.storage forgedReply
    let s := (chain (runtime false)).run insurerGenesis.storage forgedReply
    h.map (fun e => e.output.map Receipt.result) = [some (.ok ()), some (.ok ()),
        some (.error (.simInsuranceAccident .accidentDataAlreadyStored))] ∧
      s.accidentsData.get (SimInsuranceAccident.createCompositeKey (runtime false)
        [(runtime false).encode alice, toLeBytes 1]) = some hash2 ∧
      deliveries h = [⟨4000, alice, 1, hash2⟩, ⟨2000, alice, 1, hash1⟩] := by
  refine ⟨?_, ?_, ?_⟩ <;> decide +kernel

end SIM.Proof
