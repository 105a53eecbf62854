import SimMultichain.Proof.AccidentLedger

/-!
# Reports of a vehicle

When `reportAccident` accepts: an initialised vehicle is refused only if its next
key is taken, and without collisions that is so exactly when it has made `2³²`
reports and its counter has started over (`nextKey_free_iff`).
`report_goes_through_iff` says for which reports the counter goes up and the data
can be read back.
-/

namespace SIM.Proof

open SIM.Impl

variable {AccountId BlockNumber : Type} (cfg : Config AccountId)

/-- A step in which `v`, then initialised and with its next key free, reports `d`. -/
def Reports (e : ChainEntry AccountId BlockNumber) (v : AccountId) (d : DataHash) : Prop :=
  (∃ router, e.input = .call router (.signed v) (.renault (.reportAccident d))) ∧
    SimRenault.isVehicle e.before v = true ∧
    e.before.accidents.containsKey (SimRenaultAccident.createCompositeKey cfg
      [cfg.encode v, toLeBytes ((e.before.accidentCount.get v).getD 0)]) = false

variable [DecidableEq AccountId]

/-- The call of a vehicle. -/
theorem dispatch_report (router : SendXcm AccountId) (s : Storage AccountId BlockNumber)
    (v : AccountId) (d : DataHash) :
    let r := dispatch cfg router (.signed v) (.renault (.reportAccident d)) s
    (r.2.result, r.1) =
      if SimRenault.isVehicle s v then
        if s.accidents.containsKey (cfg.key v (accidents s v)) then
          (.error (.simRenaultAccident .accidentAlreadyStored), s)
        else (.ok (), reported cfg s v d)
      else (.error (.simRenaultAccident .unknownVehicle), s) := by
  simp only [dispatch, Call.exec, Call.body, reportAccident_exec]
  cases SimRenault.isVehicle s v with
  | false => cases cfg.transactional <;> rfl
  | true =>
    cases s.accidents.containsKey (cfg.key v (accidents s v)) with
    | true => cases cfg.transactional <;> rfl
    | false => rfl

theorem accidents_reported (s : Storage AccountId BlockNumber) (v : AccountId) (d : DataHash) :
    accidents (reported cfg s v d) v = accidents s v + 1 := by
  simp [accidents, reported]

/-- The report that a step of a chain accepts. -/
theorem reports_iff {s : Storage AccountId BlockNumber} {i : Input AccountId BlockNumber}
    {v : AccountId} {d : DataHash} :
    Reports cfg ((chain cfg).entry s i) v d ↔ reportOf v ((chain cfg).entry s i) = some d := by
  rw [reportOf_eq_some]
  constructor
  · rintro ⟨⟨router, hi⟩, vehicle, free⟩
    simp only [Machine.entry_input, Machine.entry_before, renault_key] at hi vehicle free
    subst hi
    have hr := dispatch_report cfg router s v d
    simp only [vehicle, free, if_true, Bool.false_eq_true, if_false, Prod.mk.injEq] at hr
    rw [chain_entry_call]
    generalize dispatch cfg router (.signed v) (.renault (.reportAccident d)) s = r at hr ⊢
    obtain ⟨s', res, ev, sent⟩ := r
    obtain ⟨rfl, -⟩ := hr
    simp
  · intro h
    cases i with
    | newBlock n => cases h
    | call router o call =>
      rw [chain_entry_call] at h
      obtain ⟨rfl, rfl, ev, sent, hr⟩ := accepted_eq_some h
      have hd := dispatch_report cfg router s v d
      have hok := congrArg Receipt.result (Option.some.inj hr)
      refine ⟨⟨router, rfl⟩, ?_⟩
      rw [Machine.entry_before, renault_key]
      simp only [Prod.ext_iff, hok] at hd
      split at hd <;> rename_i vehicle
      · split at hd <;> rename_i taken
        · exact absurd hd.1 nofun
        · exact ⟨vehicle, by simpa using taken⟩
      · exact absurd hd.1 nofun

/-! ## Room for a report -/

section Room

variable {cfg} {h : List (ChainEntry AccountId BlockNumber)} {s : Storage AccountId BlockNumber}
  {v : AccountId} {ks : List (AccountId × UInt32)}

/-- Without collisions, a vehicle's next key is free until the counter has started over. -/
theorem AccidentLedger.nextKey_free_iff (hl : AccidentLedger cfg h s) (hcf : cfg.CollisionFree ks)
    (hu : usedIn h ⊆ ks) (hv : (v, accidents s v) ∈ ks) :
    s.accidents.containsKey (cfg.key v (accidents s v)) = false ↔ (reports v h).length < 2 ^ 32 := by
  rw [StorageMap.containsKey_eq_false]
  constructor
  · intro hf
    rw [accidents, hl.represents.count_getD v] at hf
    exact hl.represents.length_lt_of_fresh hf
  · exact hl.represents.get_key_count hcf.injOn (hl.used.mono (fun _ => rfl) fun _ hp => hu hp) hv

end Room

/-- A report of `v` is accepted, raises its counter by one as a number, and is what the data query
returns for the new count. -/
structure GoesThrough (router : SendXcm AccountId) (s : Storage AccountId BlockNumber)
    (v : AccountId) (d : DataHash) : Prop where
  accepted : (dispatch cfg router (.signed v) (.renault (.reportAccident d)) s).2.result = .ok ()
  counted : (accidents (dispatch cfg router (.signed v) (.renault (.reportAccident d)) s).1 v).toNat =
    (accidents s v).toNat + 1
  readable : SimRenaultAccident.getAccidentData cfg
    (dispatch cfg router (.signed v) (.renault (.reportAccident d)) s).1 v
    (accidents (dispatch cfg router (.signed v) (.renault (.reportAccident d)) s).1 v) = .ok d

/-- The counter of a vehicle after its report, as a number, is one more, unless it starts over. -/
theorem toNat_succ_eq_iff (n : UInt32) : (n + 1).toNat = n.toNat + 1 ↔ n.toNat + 1 < 2 ^ 32 := by
  have hn := n.toNat_lt
  rw [UInt32.toNat_add, show (1 : UInt32).toNat = 1 from rfl]
  omega

/-- After every run, a report of an initialised vehicle goes through exactly if the vehicle has made
fewer than `2³² - 1` accepted reports. -/
theorem report_goes_through_iff (g : Genesis AccountId BlockNumber)
    (is : List (Input AccountId BlockNumber)) (router : SendXcm AccountId) (v : AccountId)
    (d : DataHash) :
    let h := (chain cfg).trace g.storage is
    let s := (chain cfg).run g.storage is
    let i := Input.call router (.signed v) (.renault (.reportAccident d))
    cfg.CollisionFree (usedIn (h ++ [(chain cfg).entry s i])) → SimRenault.isVehicle s v = true →
    (GoesThrough cfg router s v d ↔ (reports v h).length + 1 < 2 ^ 32) := by
  intro h s i hcf vehicle
  have hl : AccidentLedger cfg h s := accidentLedger_run cfg g is
  have hfree := hl.nextKey_free_iff hcf (fun _ hp => usedIn_subset h _ hp) (v := v)
    (by rw [usedIn_snoc]; simp [i, keysUsed, vehicle])
  have hcount : accidents s v = UInt32.ofNat (reports v h).length := hl.represents.count_getD v
  have hr := dispatch_report cfg router s v d
  rw [if_pos vehicle] at hr
  constructor
  · intro hgo
    have hok := hgo.accepted
    have hc := hgo.counted
    simp only [Prod.ext_iff, hok] at hr
    split at hr <;> rename_i taken
    · cases hr.1
    · have hlt := hfree.mp (by simpa using taken)
      rwa [hr.2, accidents_reported, toNat_succ_eq_iff, hcount, ofNat_toNat_of_lt hlt] at hc
  · intro hlt
    have free := hfree.mpr (by omega)
    simp only [free, Bool.false_eq_true, if_false, Prod.ext_iff] at hr
    have hn : (accidents s v + 1).toNat = (accidents s v).toNat + 1 := by
      rw [toNat_succ_eq_iff, hcount, ofNat_toNat_of_lt (by omega)]
      exact hlt
    refine ⟨hr.1, ?_, ?_⟩
    · rw [hr.2, accidents_reported, hn]
    · rw [hr.2, accidents_reported, getAccidentData_eq_ok, UInt32.add_sub_cancel]
      refine ⟨fun h0 => ?_, StorageMap.get_insert_self⟩
      rw [h0] at hn
      exact absurd hn (Nat.succ_ne_zero _).symm

/-- A report of the genesis vehicle. -/
def report (d : DataHash) : Input AccountId32 UInt32 :=
  .call (fun _ => .ok ()) (.signed alice) (.renault (.reportAccident d))

theorem report_goes_through_second :
    let h := (chain (runtime false)).trace renaultGenesis.storage [report hash1]
    let s := (chain (runtime false)).run renaultGenesis.storage [report hash1]
    (runtime false).CollisionFree (usedIn (h ++ [(chain (runtime false)).entry s (report hash2)])) ∧
      SimRenault.isVehicle s alice = true ∧
      GoesThrough (runtime false) (fun _ => .ok ()) s alice hash2 := by
  intro h s
  have hu : usedIn (h ++ [(chain (runtime false)).entry s (report hash2)]) =
      [(alice, 0), (alice, 1)] := by decide +kernel
  have hcf : (runtime false).CollisionFree
      (usedIn (h ++ [(chain (runtime false)).entry s (report hash2)])) := by
    rw [hu]; exact runtime_collisionFree.mono (by simp)
  have hv : SimRenault.isVehicle s alice = true := by decide +kernel
  have hr : reports alice h = [hash1] := by decide +kernel
  exact ⟨hcf, hv, (report_goes_through_iff (runtime false) renaultGenesis [report hash1]
    (fun _ => .ok ()) alice hash2 hcf hv).mpr (by rw [hr]; decide)⟩

/-! ## A vehicle at the limit -/

/-- The genesis vehicle reports `n` times. -/
def manyReports (n : Nat) : List (Input AccountId32 UInt32) := List.replicate n (report hash1)

section Limit

variable (cfg : Config AccountId32)

theorem fst_of_mem_keysUsed {s : Storage AccountId32 UInt32} {d : DataHash}
    {p : AccountId32 × UInt32} (hp : p ∈ keysUsed s (report d)) : p.1 = alice := by
  simp only [report, keysUsed] at hp
  cases hv : SimRenault.isVehicle s alice <;> simp_all

theorem usedIn_manyReports (s : Storage AccountId32 UInt32) (n : Nat) :
    ∀ p ∈ usedIn ((chain cfg).trace s (manyReports n)), p.1 = alice := by
  induction n generalizing s with
  | zero => simp [manyReports, usedIn]
  | succ n ih =>
    intro p hp
    simp only [manyReports, List.replicate_succ, Machine.trace_cons, usedIn, List.flatMap_cons,
      List.mem_append] at hp
    rcases hp with hp | hp
    · exact fst_of_mem_keysUsed hp
    · exact ih _ p hp

theorem isVehicle_manyReports (n : Nat) :
    SimRenault.isVehicle ((chain cfg).run renaultGenesis.storage (manyReports n)) alice = true :=
  have hg : SimRenault.isVehicle renaultGenesis.storage alice = true := by decide +kernel
  (evidence_run cfg renaultGenesis.storage (manyReports n)).2.2.2.2.2 alice hg

variable {cfg} (hinj : Function.Injective (cfg.key alice))
include hinj

theorem collisionFree_of_alice {ks : List (AccountId32 × UInt32)} (h : ∀ p ∈ ks, p.1 = alice) :
    cfg.CollisionFree ks := by
  apply Config.CollisionFree.of_pairs
  rintro ⟨a, m⟩ hp ⟨b, n⟩ hq hk
  obtain rfl : a = alice := h _ hp
  obtain rfl : b = alice := h _ hq
  exact congrArg (Prod.mk alice) (hinj hk)

/-- Whether the vehicle's next key is free, after `n` reports. -/
theorem free_manyReports (n : Nat) :
    let h := (chain cfg).trace renaultGenesis.storage (manyReports n)
    let s := (chain cfg).run renaultGenesis.storage (manyReports n)
    s.accidents.containsKey (cfg.key alice (accidents s alice)) = false ↔
      (reports alice h).length < 2 ^ 32 := by
  intro h s
  have hl : AccidentLedger cfg h s := accidentLedger_run cfg renaultGenesis _
  have hcf : cfg.CollisionFree (usedIn h ++ [(alice, accidents s alice)]) := by
    refine collisionFree_of_alice hinj fun p hp => ?_
    rcases List.mem_append.mp hp with hp | hp
    · exact usedIn_manyReports cfg _ n p hp
    · rw [List.mem_singleton.mp hp]
  exact hl.nextKey_free_iff hcf (List.subset_append_left _ _) (by simp)

/-- Up to the limit, every report is accepted. -/
theorem length_manyReports {n : Nat} (hn : n ≤ 2 ^ 32) :
    (reports alice ((chain cfg).trace renaultGenesis.storage (manyReports n))).length = n := by
  induction n with
  | zero => rfl
  | succ n ih =>
    have hlen := ih (by omega)
    have hnew : reportOf alice ((chain cfg).entry
        ((chain cfg).run renaultGenesis.storage (manyReports n)) (report hash1)) = some hash1 :=
      (reports_iff cfg).mp
        ⟨⟨_, rfl⟩, isVehicle_manyReports cfg n, (free_manyReports hinj n).mpr (by omega)⟩
    rw [manyReports, List.replicate_succ', Machine.trace_snoc, reports_snoc, ← manyReports, hnew]
    simp [hlen]

/-- With keys that do not collide, a vehicle that has made `2³²` reports is refused. -/
theorem refused_manyReports {n : Nat} (hn : n = 2 ^ 32) :
    let h := (chain cfg).trace renaultGenesis.storage (manyReports n)
    let s := (chain cfg).run renaultGenesis.storage (manyReports n)
    cfg.CollisionFree (usedIn (h ++ [(chain cfg).entry s (report hash2)])) ∧
      s.accidentCount.get alice = some 0 ∧
      (dispatch cfg (fun _ => .ok ()) (.signed alice) (.renault (.reportAccident hash2)) s).2.result =
        .error (.simRenaultAccident .accidentAlreadyStored) := by
  intro h s
  have hv : SimRenault.isVehicle s alice = true := isVehicle_manyReports cfg n
  have hlen : (reports alice h).length = n := length_manyReports hinj hn.le
  have hl : AccidentLedger cfg h s := accidentLedger_run cfg renaultGenesis _
  have htaken : s.accidents.containsKey (cfg.key alice (accidents s alice)) = true := by
    by_contra hf
    have hlt : (reports alice h).length < 2 ^ 32 := (free_manyReports hinj n).mp (by simpa using hf)
    omega
  have hr := dispatch_report cfg (fun _ => .ok ()) s alice hash2
  simp only [hv, htaken, if_true, Prod.mk.injEq] at hr
  refine ⟨collisionFree_of_alice hinj fun p hp => ?_, ?_, hr.1⟩
  · rw [usedIn_snoc] at hp
    rcases List.mem_append.mp hp with hp | hp
    · exact usedIn_manyReports cfg _ _ p hp
    · exact fst_of_mem_keysUsed hp
  · have hne : reports alice h ≠ [] := by
      intro h0
      rw [h0, List.length_nil] at hlen
      omega
    rw [hl.represents.counted alice, if_neg hne, hlen, hn]
    rfl

end Limit

/-- The last 32 bytes of a message. -/
def lastBytes (m : List UInt8) : Hash := Vector.ofFn fun i => m.getD (m.length - 32 + i) 0

/-- The runtime, with a digest under which no two keys of one account collide. -/
def lastBytesRuntime : Config AccountId32 := { runtime false with sha256 := lastBytes }

theorem lastBytes_key_inj (a : AccountId32) : Function.Injective (lastBytesRuntime.key a) := by
  intro m n h
  have hbyte : ∀ (k : UInt32) (j : Nat) (hj : j < 4),
      (lastBytesRuntime.key a k)[28 + j] = (toLeBytes k).getD j 0 := by
    intro k j hj
    have hlen : (a.toList ++ toLeBytes k).length = 36 := by simp [toLeBytes]
    show (lastBytes (a.toList ++ toLeBytes k))[28 + j] = _
    simp only [lastBytes, Vector.getElem_ofFn, hlen, List.getD_eq_getElem?_getD]
    rw [List.getElem?_append_right (by simp; omega), Vector.length_toList,
      show 36 - 32 + (28 + j) - 32 = j by omega]
  apply Config.toLeBytes_inj
  apply List.ext_getElem (by simp [toLeBytes])
  intro j hj _
  have hj' : j < 4 := by simpa [toLeBytes] using hj
  have hm := hbyte m j hj'
  rw [h, hbyte n j hj'] at hm
  simpa [List.getD_eq_getElem?_getD, toLeBytes, hj'] using hm.symm

/-- An initialised vehicle that has made `2³²` reports is refused, without a collision of keys. -/
theorem report_refused_at_limit :
    let h := (chain lastBytesRuntime).trace renaultGenesis.storage (manyReports (2 ^ 32))
    let s := (chain lastBytesRuntime).run renaultGenesis.storage (manyReports (2 ^ 32))
    lastBytesRuntime.CollisionFree
        (usedIn (h ++ [(chain lastBytesRuntime).entry s (report hash2)])) ∧
      SimRenault.isVehicle s alice = true ∧ s.accidentCount.get alice = some 0 ∧
      (dispatch lastBytesRuntime (fun _ => .ok ()) (.signed alice)
          (.renault (.reportAccident hash2)) s).2.result =
        .error (.simRenaultAccident .accidentAlreadyStored) ∧
      ¬ GoesThrough lastBytesRuntime (fun _ => .ok ()) s alice hash2 := by
  generalize hn : 2 ^ 32 = n
  intro h s
  obtain ⟨hcf, hcount, hr⟩ := refused_manyReports (lastBytes_key_inj alice) hn.symm
  refine ⟨hcf, isVehicle_manyReports lastBytesRuntime n, hcount, hr, fun hgo => ?_⟩
  rw [hgo.accepted] at hr
  exact absurd hr nofun

end SIM.Proof
