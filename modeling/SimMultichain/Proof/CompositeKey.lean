import SimMultichain.Framework.Oracle
import SimMultichain.Impl.Runtime
import SimMultichain.Proof.Dispatch

/-!
# What the composite keys are made of

Four places make a composite key: `report_accident` and `get_accident_data` of
`sim_renault_accident`, and `report_accident` and `receive_data` of
`sim_insurance_accident`. Each is taken here as a function of the hash
(`KeyCall.run`), so that the byte string it hashes is the one it asks for
(`Asks`), and not what a definition of this development says it is.
`KeyCall.reads` has that string: the encoding of an account and a count, the
ones that `KeyCall.pair` gives.
-/

namespace SIM.Proof

open SIM.Impl

variable {AccountId BlockNumber : Type}

/-- The same configuration with another hash. -/
def withSha256 (cfg : Config AccountId) (sha256 : List UInt8 → Hash) : Config AccountId :=
  { cfg with sha256 := sha256 }

@[simp] theorem key_withSha256 (cfg : Config AccountId) (sha256 : List UInt8 → Hash) (a : AccountId)
    (n : UInt32) : (withSha256 cfg sha256).key a n = sha256 (cfg.preimage a n) := rfl

/-! ## What the calls depend on -/

section Congr

variable {cfg cfg' : Config AccountId} (c : Context AccountId BlockNumber)

theorem reportAccident_congr [DecidableEq AccountId] {v : AccountId} {d : DataHash}
    (h : cfg.key v (accidents c.storage v) = cfg'.key v (accidents c.storage v)) :
    (SimRenaultAccident.reportAccident cfg (.signed v) d).exec c =
      (SimRenaultAccident.reportAccident cfg' (.signed v) d).exec c := by
  rw [reportAccident_exec, reportAccident_exec, reported, reported, h]

theorem declare_congr [DecidableEq AccountId] {router : SendXcm AccountId} {d v : AccountId}
    {k : UInt32} (h : cfg.key d (declared c.storage d) = cfg'.key d (declared c.storage d)) :
    (SimInsuranceAccident.reportAccident cfg router (.signed d) v k).exec c =
      (SimInsuranceAccident.reportAccident cfg' router (.signed d) v k).exec c := by
  rw [declare_exec, declare_exec, filed, filed, h]

theorem receiveData_congr {p : ParaId} {v : AccountId} {k : UInt32} {d : DataHash}
    (h : cfg.key v k = cfg'.key v k) :
    (SimInsuranceAccident.receiveData cfg (.cumulusXcm (.siblingPara p)) v k d).exec c =
      (SimInsuranceAccident.receiveData cfg' (.cumulusXcm (.siblingPara p)) v k d).exec c := by
  rw [receiveData_exec, receiveData_exec, h]

end Congr

/-! ## The calls -/

/-- The places that make a composite key. -/
inductive KeySite where
  | renaultReport
  | getAccidentData
  | insurerReport
  | receiveData
  deriving DecidableEq

/-- A call that makes a composite key. -/
inductive KeyCall (AccountId : Type) where
  | renaultReport (vehicleId : AccountId) (dataHash : DataHash)
  | getAccidentData (vehicleId : AccountId) (accidentCount : UInt32)
  | insurerReport (router : SendXcm AccountId) (driverId vehicleId : AccountId)
      (vehicleAccidentCount : UInt32)
  | receiveData (para : ParaId) (vehicleId : AccountId) (vehicleAccidentCount : UInt32)
      (data : DataHash)

namespace KeyCall

def site : KeyCall AccountId → KeySite
  | renaultReport .. => .renaultReport
  | getAccidentData .. => .getAccidentData
  | insurerReport .. => .insurerReport
  | receiveData .. => .receiveData

/-- The account and count that a call makes a key for, if it gets so far. -/
def pair (s : Storage AccountId BlockNumber) : KeyCall AccountId → Option (AccountId × UInt32)
  | renaultReport v _ => if SimRenault.isVehicle s v then some (v, accidents s v) else none
  | getAccidentData v k => if k = 0 then none else some (v, k - 1)
  | insurerReport _ d _ _ => if SimInsurance.isDriver s d then some (d, declared s d) else none
  | receiveData _ v k _ => some (v, k)

/-- What a call returns and leaves, as a function of the hash. -/
def run [DecidableEq AccountId] (cfg : Config AccountId) (s : Storage AccountId BlockNumber)
    (call : KeyCall AccountId) (sha256 : List UInt8 → Hash) :
    (Except DispatchError Unit × Context AccountId BlockNumber) ⊕
      Except SimRenaultAccident.GetAccidentDataError DataHash :=
  let cfg := withSha256 cfg sha256
  match call with
  | renaultReport v d =>
    .inl ((SimRenaultAccident.reportAccident cfg (.signed v) d).exec ⟨s, [], []⟩)
  | getAccidentData v k => .inr (SimRenaultAccident.getAccidentData cfg s v k)
  | insurerReport router d v k =>
    .inl ((SimInsuranceAccident.reportAccident cfg router (.signed d) v k).exec ⟨s, [], []⟩)
  | receiveData p v k d =>
    .inl ((SimInsuranceAccident.receiveData cfg (.cumulusXcm (.siblingPara p)) v k d).exec
      ⟨s, [], []⟩)

variable [DecidableEq AccountId] {cfg : Config AccountId} {s : Storage AccountId BlockNumber}

/-- Every call hashes the encoding of its account and count, and nothing else. -/
theorem reads {call : KeyCall AccountId} {v : AccountId} {c : UInt32}
    (hpair : call.pair s = some (v, c)) : Reads (call.run cfg s) (cfg.preimage v c) := by
  intro h h' heq
  cases call with
  | renaultReport w d =>
    simp only [pair, Option.ite_none_right_eq_some, Option.some.injEq, Prod.mk.injEq] at hpair
    obtain ⟨-, rfl, rfl⟩ := hpair
    exact congrArg Sum.inl (reportAccident_congr ⟨s, [], []⟩ heq)
  | getAccidentData w k =>
    simp only [pair, Option.ite_none_left_eq_some, Option.some.injEq, Prod.mk.injEq] at hpair
    obtain ⟨hk, rfl, rfl⟩ := hpair
    simp only [run, getAccidentData_pos _ _ _ hk, key_withSha256, heq]
  | insurerReport router d w k =>
    simp only [pair, Option.ite_none_right_eq_some, Option.some.injEq, Prod.mk.injEq] at hpair
    obtain ⟨-, rfl, rfl⟩ := hpair
    exact congrArg Sum.inl (declare_congr ⟨s, [], []⟩ heq)
  | receiveData p w k d =>
    simp only [pair, Option.some.injEq, Prod.mk.injEq] at hpair
    obtain ⟨rfl, rfl⟩ := hpair
    exact congrArg Sum.inl (receiveData_congr ⟨s, [], []⟩ heq)

/-- The byte string that a call hashes. -/
theorem eq_preimage {call : KeyCall AccountId} {v : AccountId} {c : UInt32} {m : List UInt8}
    (hpair : call.pair s = some (v, c)) (hm : Asks (call.run cfg s) m) : m = cfg.preimage v c :=
  hm.eq (reads hpair)

end KeyCall

/-! ## Every place makes keys -/

section Exists

variable [DecidableEq AccountId]

/-- Two digests that differ. -/
def zeros : Hash := Vector.replicate 32 0
def ones : Hash := Vector.replicate 32 1

theorem zeros_ne_ones : zeros ≠ ones := by decide

/-- A storage in which `a` is a vehicle with `c` accidents and a driver with `c` declarations, and
in which the key `zeros` is in use. -/
def keyStorage (number : BlockNumber) (a : AccountId) (c : UInt32) (d : DataHash) :
    Storage AccountId BlockNumber :=
  { Storage.empty number with
    vehiclesStatus := StorageMap.empty.insert a true
    accidents := StorageMap.empty.insert zeros d
    accidentCount := StorageMap.empty.insert a c
    subscriptions := StorageMap.empty.insert a (SimInsurance.initProfile a, number)
    declaredAccidents := StorageMap.empty.insert zeros (a, c)
    accidentsData := StorageMap.empty.insert zeros d
    declaredAccidentsCount := StorageMap.empty.insert a c }

/-- A call of each place that makes the key of `a` and `c`. -/
def keyCall (a : AccountId) (c : UInt32) (d : DataHash) : KeySite → KeyCall AccountId
  | .renaultReport => .renaultReport a d
  | .getAccidentData => .getAccidentData a (c + 1)
  | .insurerReport => .insurerReport (fun _ => .ok ()) a a c
  | .receiveData => .receiveData 0 a c d

variable {cfg : Config AccountId} (number : BlockNumber) (a : AccountId) (c : UInt32) (d : DataHash)

omit [DecidableEq AccountId] in
theorem keyCall_site (site : KeySite) : (keyCall a c d site).site = site := by cases site <;> rfl

theorem keyCall_pair {site : KeySite} (hc : site = .getAccidentData → c + 1 ≠ 0) :
    (keyCall a c d site).pair (keyStorage number a c d) = some (a, c) := by
  cases site with
  | renaultReport =>
    simp [keyCall, KeyCall.pair, keyStorage, SimRenault.isVehicle, accidents]
  | getAccidentData =>
    simp [keyCall, KeyCall.pair, hc rfl]
  | insurerReport =>
    simp [keyCall, KeyCall.pair, keyStorage, SimInsurance.isDriver, StorageMap.containsKey, declared]
  | receiveData => rfl

/-- A hash that gives the key in use makes the call fail, or find the data; one that gives a free
key does not. -/
theorem keyCall_asks {site : KeySite} (hc : site = .getAccidentData → c + 1 ≠ 0) :
    Asks ((keyCall a c d site).run cfg (keyStorage number a c d)) (cfg.preimage a c) := by
  refine ⟨KeyCall.reads (keyCall_pair number a c d hc), fun _ => zeros, fun _ => ones, ?_⟩
  have hne : ones ≠ zeros := zeros_ne_ones.symm
  cases site with
  | renaultReport =>
    simp [keyCall, KeyCall.run, reportAccident_exec, keyStorage, SimRenault.isVehicle,
      StorageMap.containsKey, StorageMap.get_insert, hne]
  | getAccidentData =>
    simp [keyCall, KeyCall.run, getAccidentData_pos _ _ _ (hc rfl), keyStorage,
      StorageMap.get_insert, hne, answer]
  | insurerReport =>
    simp [keyCall, KeyCall.run, declare_exec, keyStorage, SimInsurance.isDriver,
      StorageMap.containsKey, StorageMap.get_insert, hne]
  | receiveData =>
    simp [keyCall, KeyCall.run, receiveData_exec, keyStorage, StorageMap.containsKey,
      StorageMap.get_insert, hne]

end Exists

/-! ## Keys and pairs -/

theorem preimage_eq_iff {cfg : Config AccountId} {v w : AccountId} {c e : UInt32} :
    cfg.preimage v c = cfg.preimage w e ↔ v = w ∧ c = e := by
  refine ⟨cfg.preimage_inj, ?_⟩
  rintro ⟨rfl, rfl⟩
  rfl

/-- Wherever they come from, two hashed byte strings are equal for the same account and count only,
and so are their digests unless they collide. The fold itself joins different parts to the same
string. -/
theorem composite_keys_separate [DecidableEq AccountId] (cfg : Config AccountId) (number : BlockNumber) :
    (∀ (site : KeySite) (v : AccountId) (c : UInt32), (site = .getAccidentData → c + 1 ≠ 0) →
      ∃ (call : KeyCall AccountId) (s : Storage AccountId BlockNumber) (m : List UInt8),
        call.site = site ∧ call.pair s = some (v, c) ∧ Asks (call.run cfg s) m) ∧
    (∀ (call call' : KeyCall AccountId) (s s' : Storage AccountId BlockNumber) (m m' : List UInt8)
      (v w : AccountId) (c e : UInt32), call.pair s = some (v, c) → call'.pair s' = some (w, e) →
      Asks (call.run cfg s) m → Asks (call'.run cfg s') m' →
      (m = m' ↔ v = w ∧ c = e) ∧
      (cfg.CollisionFree [(v, c), (w, e)] → (cfg.sha256 m = cfg.sha256 m' ↔ v = w ∧ c = e))) ∧
    ∃ ps qs : List (List UInt8), ps ≠ qs ∧
      SimRenaultAccident.createCompositeKey cfg ps = SimRenaultAccident.createCompositeKey cfg qs ∧
      SimInsuranceAccident.createCompositeKey cfg ps =
        SimInsuranceAccident.createCompositeKey cfg qs := by
  refine ⟨fun site v c hc => ?_, ?_, [[0], [1]], [[0, 1], []], by decide, rfl, rfl⟩
  · let d : DataHash := Vector.replicate 36 0
    exact ⟨keyCall v c d site, keyStorage number v c d, cfg.preimage v c, keyCall_site v c d site,
      keyCall_pair number v c d hc, keyCall_asks number v c d hc⟩
  · intro call call' s s' m m' v w c e hpair hpair' hm hm'
    rw [KeyCall.eq_preimage hpair hm, KeyCall.eq_preimage hpair' hm']
    refine ⟨preimage_eq_iff, fun hfree => ⟨fun hkey => ?_, ?_⟩⟩
    · exact hfree.key_inj (by simp) (by simp) hkey
    · rintro ⟨rfl, rfl⟩
      rfl

/-- A report of `alice`, her first, and data received for the first accident of `bob`. -/
theorem composite_keys_separate_alice_bob :
    let m := (runtime false).preimage alice 0
    let m' := (runtime false).preimage bob 1
    Asks ((keyCall alice 0 hash1 .renaultReport).run (runtime false)
        (keyStorage (0 : UInt32) alice 0 hash1)) m ∧
      Asks ((keyCall bob 1 hash1 .receiveData).run (runtime false)
        (keyStorage (0 : UInt32) bob 1 hash1)) m' ∧
      m ≠ m' ∧ (runtime false).sha256 m ≠ (runtime false).sha256 m' := by
  intro m m'
  have hm : Asks ((keyCall alice 0 hash1 .renaultReport).run (runtime false)
      (keyStorage (0 : UInt32) alice 0 hash1)) m := keyCall_asks 0 alice 0 hash1 (by simp)
  have hm' : Asks ((keyCall bob 1 hash1 .receiveData).run (runtime false)
      (keyStorage (0 : UInt32) bob 1 hash1)) m' := keyCall_asks 0 bob 1 hash1 (by simp)
  have hne : ¬ (alice = bob ∧ (0 : UInt32) = 1) := by decide
  obtain ⟨hstr, hkey⟩ := (composite_keys_separate (runtime false) (0 : UInt32)).2.1 _ _ _ _ m m' _ _ _ _
    (keyCall_pair 0 alice 0 hash1 (by simp)) (keyCall_pair 0 bob 1 hash1 (by simp)) hm hm'
  have hfree := (runtime_collisionFree.mono (by simp) : (runtime false).CollisionFree [(alice, 0), (bob, 1)])
  exact ⟨hm, hm', mt hstr.mp hne, mt (hkey hfree).mp hne⟩

end SIM.Proof
