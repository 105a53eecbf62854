import SimMultichain.Proof.Completion
import SimMultichain.Proof.History
import SimMultichain.Proof.Nonces

/-!
# Set-up and measurement

The three set-up scripts cut the account files into ten pieces each, `report_accident.js` into as
many as it has workers, and each leaves out the rest of its division. What the set-up submits is
the files up to a multiple of ten (`SetUp.created_iff`, `SetUp.signedUp_iff`); a report of worker
`i` is signed with an account of its piece (`exists_position`), and each account of a piece can be
had (`exists_report`). A report of an account that is left out of the set-up is sent and counted as
any other, and the chain rejects it.
-/

namespace SIM.Proof.Benchmark

open SIM.Impl SIM.Impl.Benchmark

variable {AccountId : Type}

/-! ## The set-up -/

/-- A run of a script with given account files, from its start to its end. -/
structure Ended (script : Script) (files : Files AccountId) where
  env : Env AccountId
  files_eq : env.files = files
  inputs : List (Occurrence script)
  completed : Completed ((network env).run (.start script) inputs)

namespace Ended

variable {script : Script} {files : Files AccountId}

/-- The state at the end. -/
def state (r : Ended script files) : Network script AccountId :=
  (network r.env).run (.start script) r.inputs

variable (r : Ended script files)

/-- What the workers have submitted at the end. -/
theorem view_mem_submissions (hfiles : files.vehicles.length = files.drivers.length)
    (x : AccountId × Extrinsic AccountId) :
    (∃ tx ∈ submissions r.state, view tx = x) ↔ ∃ i : Fin script.nbProcesses,
      ∃ k < totalOf (piece files i script.nbProcesses) (r.state.worker i).transactions
          script.sendType,
        submission r.env.address (piece files i script.nbProcesses)
          (r.state.worker i).transactions script.sendType k = some x := by
  obtain ⟨env, rfl, os, hc⟩ := r
  exact Benchmark.view_mem_submissions hfiles hc x

end Ended

/-- A script whose workers find what it asks them for has a run to its end. -/
theorem exists_ended {script : Script} {env : Env AccountId} (hf : Feasible script env) :
    ∃ r : Ended script env.files, r.env = env := by
  obtain ⟨os, hc⟩ := exists_completed hf
  exact ⟨⟨env, rfl, os, hc⟩, rfl⟩

section Submissions

variable {address : AccountId → List UInt8} {accounts : AccountKind → List AccountId}
  {transactions : List (Transaction AccountId)}

theorem exists_submission_newCar (hm : 0 < (accounts .factory).length) {v : AccountId} :
    (∃ f, ∃ k < totalOf accounts transactions .newCar,
      submission address accounts transactions .newCar k = some (f, .createVehicle v)) ↔
        v ∈ accounts .vehicle := by
  constructor
  · rintro ⟨f, k, -, h⟩
    obtain ⟨factory, -, h⟩ := Option.bind_eq_some_iff.mp h
    obtain ⟨car, hcar, h⟩ := Option.bind_eq_some_iff.mp h
    cases h
    exact List.mem_of_getElem? hcar
  · intro hv
    obtain ⟨k, hk, rfl⟩ := List.mem_iff_getElem.mp hv
    have hf : k % (accounts .factory).length < (accounts .factory).length := Nat.mod_lt k hm
    refine ⟨(accounts .factory)[k % (accounts .factory).length], k, hk, ?_⟩
    simp only [submission, List.getElem?_eq_getElem hk, List.getElem?_eq_getElem hf]
    rfl

theorem exists_submission_initCar {v : AccountId} :
    (∃ k < totalOf accounts transactions .initCar,
      submission address accounts transactions .initCar k = some (v, .initVehicle v)) ↔
        v ∈ accounts .vehicle := by
  constructor
  · rintro ⟨k, -, h⟩
    obtain ⟨car, hcar, h⟩ := Option.bind_eq_some_iff.mp h
    cases h
    exact List.mem_of_getElem? hcar
  · intro hv
    obtain ⟨k, hk, rfl⟩ := List.mem_iff_getElem.mp hv
    refine ⟨k, hk, ?_⟩
    simp only [submission, List.getElem?_eq_getElem hk]
    rfl

theorem exists_submission_signup
    (hlen : (accounts .vehicle).length = (accounts .driver).length) {d : AccountId} :
    (∃ profile, ∃ k < totalOf accounts transactions .signup,
      submission address accounts transactions .signup k = some (d, .signUp profile)) ↔
        d ∈ accounts .driver := by
  constructor
  · rintro ⟨profile, k, -, h⟩
    obtain ⟨car, -, h⟩ := Option.bind_eq_some_iff.mp h
    obtain ⟨driver, hdriver, h⟩ := Option.bind_eq_some_iff.mp h
    cases h
    exact List.mem_of_getElem? hdriver
  · intro hd
    obtain ⟨k, hk, rfl⟩ := List.mem_iff_getElem.mp hd
    have hk' : k < (accounts .vehicle).length := by omega
    refine ⟨signUpProfile address (accounts .driver)[k] (accounts .vehicle)[k], k, hk, ?_⟩
    simp only [submission, List.getElem?_eq_getElem hk, List.getElem?_eq_getElem hk']
    rfl

end Submissions

/-- Account files that the scripts can be used with: accounts of their own for as many drivers as
vehicles, a factory for each worker of the set-up, and no more than an array can have. -/
structure Usable (files : Files AccountId) : Prop where
  vehicles_nodup : files.vehicles.Nodup
  drivers_nodup : files.drivers.Nodup
  equal : files.vehicles.length = files.drivers.length
  factories : 10 ≤ files.factories.length
  length_lt (kind : AccountKind) : (accountsOf files kind).length < 2 ^ 32

section Usable

variable {files : Files AccountId} (h : Usable files)
include h

/-- The set-up has pieces of a tenth. -/
theorem Usable.accountCount_ten (kind : AccountKind) :
    accountCount (accountsOf files kind).length 10 = (accountsOf files kind).length / 10 := by
  have hlt := h.length_lt kind
  rcases Nat.eq_zero_or_pos (accountsOf files kind).length with hzero | hpos
  · rw [hzero]
    exact Double.parseInt_div_zero 10
  · exact Double.parseInt_div (by decide) (by omega) (by omega)

/-- All workers of the set-up have factories. -/
theorem Usable.length_factories_pos (i : Fin 10) : 0 < (piece files i 10 .factory).length := by
  have hten : 10 ≤ (accountsOf files .factory).length := h.factories
  rw [piece, length_slice, h.accountCount_ten]
  have := i.isLt
  have hle := Nat.mul_le_mul_right ((accountsOf files .factory).length / 10)
    (show i.val ≤ 9 by omega)
  omega

/-- The pieces of the set-up are the file up to a multiple of ten. -/
theorem Usable.exists_mem_piece_iff {kind : AccountKind} {a : AccountId} :
    (∃ i : Fin 10, a ∈ piece files i 10 kind) ↔
      a ∈ (accountsOf files kind).take (10 * ((accountsOf files kind).length / 10)) := by
  rw [← h.accountCount_ten, ← exists_mem_slice_iff, Fin.exists_iff]
  simp only [piece, exists_prop]

end Usable

/-- The runs of the three set-up scripts. -/
structure SetUp (files : Files AccountId) where
  create : Ended initCreateVehicles files
  init : Ended initInitVehicles files
  signUp : Ended initSignups files

/-- The set-up scripts have runs to their ends. -/
theorem nonempty_setUp {files : Files AccountId} (h : Usable files) : Nonempty (SetUp files) := by
  let env : Env AccountId := ⟨files, fun _ => [], fun _ => none, fun _ => 0, fun _ _ => true⟩
  have hended : ∀ type, Nonempty (Ended ⟨10, .other, -1, type⟩ files) := by
    intro type
    have hf : Feasible ⟨10, .other, -1, type⟩ env :=
      ⟨Nat.succ_pos 9, h.equal, fun i => ⟨(by cases ·), (by cases ·), fun _ => h.length_factories_pos i⟩⟩
    obtain ⟨r, -⟩ := exists_ended hf
    exact ⟨r⟩
  obtain ⟨create⟩ := hended .newCar
  obtain ⟨init⟩ := hended .initCar
  obtain ⟨signUp⟩ := hended .signup
  exact ⟨⟨create, init, signUp⟩⟩

namespace SetUp

variable {files : Files AccountId} (setUp : SetUp files)

/-- `init_createVehicles.js` has submitted the vehicle to `create_vehicle`. -/
def Created (v : AccountId) : Prop :=
  ∃ tx ∈ submissions setUp.create.state, tx.call = .createVehicle v

/-- `init_initVehicles.js` has submitted the vehicle to `init_vehicle`. -/
def Initialised (v : AccountId) : Prop :=
  ∃ tx ∈ submissions setUp.init.state, tx.signer = v ∧ tx.call = .initVehicle v

/-- `init_signups.js` has submitted the driver to `sign_up`. -/
def SignedUp (d : AccountId) : Prop :=
  ∃ tx ∈ submissions setUp.signUp.state, tx.signer = d ∧ ∃ profile, tx.call = .signUp profile

section Which

variable (h : Usable files)
include h

theorem created_iff {v : AccountId} :
    setUp.Created v ↔ v ∈ files.vehicles.take (10 * (files.vehicles.length / 10)) := by
  calc setUp.Created v
      ↔ ∃ f, ∃ tx ∈ submissions setUp.create.state, view tx = (f, .createVehicle v) := by
        simp only [Created, view, Prod.mk.injEq]
        constructor
        · rintro ⟨tx, htx, hcall⟩
          exact ⟨tx.signer, tx, htx, rfl, hcall⟩
        · rintro ⟨f, tx, htx, -, hcall⟩
          exact ⟨tx, htx, hcall⟩
    _ ↔ ∃ i : Fin 10, v ∈ piece files i 10 .vehicle := by
        simp only [setUp.create.view_mem_submissions h.equal]
        rw [exists_comm]
        exact exists_congr fun i => exists_submission_newCar (h.length_factories_pos i)
    _ ↔ v ∈ files.vehicles.take (10 * (files.vehicles.length / 10)) :=
        h.exists_mem_piece_iff

theorem initialised_iff {v : AccountId} :
    setUp.Initialised v ↔ v ∈ files.vehicles.take (10 * (files.vehicles.length / 10)) := by
  calc setUp.Initialised v
      ↔ ∃ tx ∈ submissions setUp.init.state, view tx = (v, .initVehicle v) := by
        simp only [Initialised, view, Prod.mk.injEq]
    _ ↔ ∃ i : Fin 10, v ∈ piece files i 10 .vehicle := by
        rw [setUp.init.view_mem_submissions h.equal]
        exact exists_congr fun i => exists_submission_initCar
    _ ↔ v ∈ files.vehicles.take (10 * (files.vehicles.length / 10)) :=
        h.exists_mem_piece_iff

theorem signedUp_iff {d : AccountId} :
    setUp.SignedUp d ↔ d ∈ files.drivers.take (10 * (files.drivers.length / 10)) := by
  calc setUp.SignedUp d
      ↔ ∃ profile, ∃ tx ∈ submissions setUp.signUp.state, view tx = (d, .signUp profile) := by
        simp only [SignedUp, view, Prod.mk.injEq]
        constructor
        · rintro ⟨tx, htx, hsigner, profile, hcall⟩
          exact ⟨profile, tx, htx, hsigner, hcall⟩
        · rintro ⟨profile, tx, htx, hsigner, hcall⟩
          exact ⟨tx, htx, hsigner, profile, hcall⟩
    _ ↔ ∃ i : Fin 10, d ∈ piece files i 10 .driver := by
        simp only [setUp.signUp.view_mem_submissions h.equal]
        rw [exists_comm]
        exact exists_congr fun i => exists_submission_signup (length_piece_eq h.equal i 10)
    _ ↔ d ∈ files.drivers.take (10 * (files.drivers.length / 10)) :=
        h.exists_mem_piece_iff

end Which

end SetUp

/-! ## Reports -/

/-- The vehicle that a report is signed with or names. -/
def vehicleOf (tx : Transaction AccountId) : Option AccountId :=
  match tx.call with
  | .reportAccidentRenault _ => some tx.signer
  | .reportAccidentInsurance v _ => some v
  | _ => none

/-- The driver that a report is signed with. -/
def driverOf (tx : Transaction AccountId) : Option AccountId :=
  match tx.call with
  | .reportAccidentInsurance _ _ => some tx.signer
  | _ => none

/-- The accounts of a report are set up. -/
def SetUp.Covers {files : Files AccountId} (setUp : SetUp files) (tx : Transaction AccountId) : Prop :=
  (∀ v, vehicleOf tx = some v → setUp.Created v ∧ setUp.Initialised v) ∧
    ∀ d, driverOf tx = some d → setUp.SignedUp d

/-- The accounts of every report that a worker of `report_accident.js` signs are set up. -/
def ReportsCovered (files : Files AccountId) (toDataHash : List UInt8 → Option DataHash) (limit : Int)
    (nbProcesses : Nat) (transactionType : TransactionType) : Prop :=
  ∀ (setUp : SetUp files) (env : Env AccountId), env.files = files → env.toDataHash = toDataHash →
    ∀ os : List (Occurrence (reportAccident limit nbProcesses transactionType)),
      ∀ tx ∈ prepared ((network env).run (.start _) os), setUp.Covers tx

section Signers

variable {files : Files AccountId} (h : Usable files) (type : TransactionType)
include h

theorem Usable.length_accountsOf :
    (accountsOf files (signerKind type)).length = files.vehicles.length := by
  cases type with
  | reportAccidentInsurance => exact h.equal.symm
  | _ => rfl

theorem Usable.nodup_accountsOf : (accountsOf files (signerKind type)).Nodup := by
  cases type with
  | reportAccidentInsurance => exact h.drivers_nodup
  | _ => exact h.vehicles_nodup

theorem Usable.length_piece (p tot : Nat) :
    (piece files p tot (signerKind type)).length =
      min (accountCount files.vehicles.length tot)
        (files.vehicles.length - p * accountCount files.vehicles.length tot) := by
  rw [piece, length_slice, h.length_accountsOf]

theorem Usable.getElem?_piece {p tot k : Nat} (hk : k < accountCount files.vehicles.length tot) :
    (piece files p tot (signerKind type))[k]? =
      (accountsOf files (signerKind type))[p * accountCount files.vehicles.length tot + k]? := by
  rw [piece, h.length_accountsOf, getElem?_slice hk]

end Signers

section Position

variable {env : Env AccountId} {type : TransactionType} {tx : Transaction AccountId} {j : Nat}

/-- A report is covered by the position of the account that it is signed with. -/
theorem SetUp.covers_iff (setUp : SetUp env.files) (h : Usable env.files)
    (hj : (accountsOf env.files (signerKind type))[j]? = some tx.signer)
    (hr : IsReportOf env tx type) :
    setUp.Covers tx ↔ j < 10 * (env.files.vehicles.length / 10) := by
  cases type with
  | reportAccidentRenault =>
    obtain ⟨d, hcall, -⟩ := hr
    have hv : env.files.vehicles[j]? = some tx.signer := hj
    simp [Covers, vehicleOf, driverOf, hcall, setUp.created_iff h, setUp.initialised_iff h,
      mem_take_iff_lt h.vehicles_nodup hv]
  | reportAccidentInsurance =>
    obtain ⟨v, n, hcall, j', hd, hv⟩ := hr
    obtain ⟨hlt, -⟩ := List.getElem?_eq_some_iff.mp hd
    obtain rfl : j' = j := (List.getElem?_inj hlt h.drivers_nodup).mp (hd.trans hj.symm)
    simp [Covers, vehicleOf, driverOf, hcall, setUp.created_iff h, setUp.initialised_iff h,
      setUp.signedUp_iff h, mem_take_iff_lt h.vehicles_nodup hv, mem_take_iff_lt h.drivers_nodup hd,
      h.equal]
  | _ => exact hr.elim

end Position

section Run

variable [DecidableEq AccountId] {env : Env AccountId} {limit : Int} {nbProcesses : Nat}
  {type : TransactionType}

theorem planned_reportAccident (htype : isReport type = true) :
    planned (reportAccident limit nbProcesses type) = (parseIntDiv limit nbProcesses).toNat := by
  simp [planned, reportAccident, htype]

/-- Where the account that a report is signed with stands in its file. -/
theorem exists_position (h : Usable env.files) (htype : isReport type = true)
    (os : List (Occurrence (reportAccident limit nbProcesses type))) {tx : Transaction AccountId}
    (htx : tx ∈ prepared ((network env).run (.start _) os)) :
    IsReportOf env tx type ∧ ∃ i < nbProcesses,
      ∃ k < min (accountCount env.files.vehicles.length nbProcesses) (parseIntDiv limit nbProcesses).toNat,
        (accountsOf env.files (signerKind type))[
          i * accountCount env.files.vehicles.length nbProcesses + k]? = some tx.signer := by
  obtain ⟨i, -, htx⟩ := List.mem_flatMap.mp htx
  have hsigning := signing_run (h.nodup_accountsOf type) h.equal os False.elim i
  have hlength := (sound_run h.equal os i).length
  rw [planned_reportAccident htype] at hlength
  obtain ⟨k, hk, rfl⟩ := List.mem_iff_getElem.mp htx
  have hturn := hsigning.turns k (by simpa using hk)
  rw [List.getElem?_map, List.getElem?_eq_getElem hk] at hturn
  obtain ⟨hlt, -⟩ := List.getElem?_eq_some_iff.mp hturn.symm
  have hle := Nat.mod_le k (piece env.files i nbProcesses (signerKind type)).length
  have hcount : k % (piece env.files i nbProcesses (signerKind type)).length <
      accountCount env.files.vehicles.length nbProcesses :=
    hlt.trans_le ((h.length_piece type i nbProcesses).trans_le (Nat.min_le_left ..))
  refine ⟨hsigning.reports _ (List.getElem_mem hk), i, i.isLt, _, lt_min hcount (by omega), ?_⟩
  rw [← h.getElem?_piece type hcount]
  exact hturn.symm

variable (env limit type) in
/-- A worker signs with the accounts of its piece, up to its share of the limit. -/
theorem exists_report (h : Usable env.files) (htype : isReport type = true)
    (hdata : type = .reportAccidentRenault → (env.toDataHash dataSha256sum).isSome)
    {i k : Nat} (hi : i < nbProcesses)
    (hk : k < min (accountCount env.files.vehicles.length nbProcesses)
      (parseIntDiv limit nbProcesses).toNat)
    (hlt : i * accountCount env.files.vehicles.length nbProcesses + k < env.files.vehicles.length) :
    ∃ os : List (Occurrence (reportAccident limit nbProcesses type)),
      ∃ tx ∈ prepared ((network env).run (.start _) os),
        (accountsOf env.files (signerKind type))[
          i * accountCount env.files.vehicles.length nbProcesses + k]? = some tx.signer ∧
        IsReportOf env tx type := by
  obtain ⟨hcount, hlimit⟩ := lt_min_iff.mp hk
  let p : Fin (reportAccident limit nbProcesses type).nbProcesses := ⟨i, hi⟩
  have hpiece : ∀ type, k < (piece env.files i nbProcesses (signerKind type)).length := by
    intro type
    rw [h.length_piece]
    omega
  have hsup : Supplied (reportAccident limit nbProcesses type) env p := by
    refine ⟨fun _ => ?_, fun _ => hdata, fun hnew => ?_⟩
    · exact Nat.zero_lt_of_lt (hpiece .reportAccidentRenault)
    · obtain rfl : type = .newCar := hnew
      cases htype
  obtain ⟨os, hos⟩ := exists_prepared h.equal (i := p) (Nat.zero_lt_of_lt hi) hsup
  have hsigning := signing_run (h.nodup_accountsOf type) h.equal os False.elim p
  have hco : Coordinated ((network env).run (.start (reportAccident limit nbProcesses type)) os) :=
    coordinated_run .start os
  have hlength := (hco.stage p).length_transactions hos
  rw [planned_reportAccident htype] at hlength
  have hk : k < (((network env).run (.start (reportAccident limit nbProcesses type)) os).worker
    p).transactions.length := by omega
  have hturn := hsigning.turns k (by simpa using hk)
  rw [Nat.mod_eq_of_lt (hpiece type), h.getElem?_piece type hcount, List.getElem?_map,
    List.getElem?_eq_getElem hk] at hturn
  exact ⟨os, _, List.mem_flatMap.mpr ⟨p, List.mem_finRange p, List.getElem_mem hk⟩, hturn.symm,
    hsigning.reports _ (List.getElem_mem hk)⟩

omit [DecidableEq AccountId] in
/-- A run of `report_accident.js` that has ended has sent every report, and has counted it. -/
theorem counted_of_completed (hfiles : env.files.vehicles.length = env.files.drivers.length)
    (htype : isReport type = true)
    {os : List (Occurrence (reportAccident limit nbProcesses type))}
    (hc : Completed ((network env).run (.start (reportAccident limit nbProcesses type)) os))
    {t : Totals}
    (ht : ((network env).run (.start (reportAccident limit nbProcesses type)) os).coordinator.report =
      some t) :
    (submissions ((network env).run (.start _) os)).map view =
        (prepared ((network env).run (.start _) os)).map view ∧
      t.finished = (prepared ((network env).run (.start _) os)).length := by
  have h : Coordinated ((network env).run (.start (reportAccident limit nbProcesses type)) os) :=
    coordinated_run .start os
  have hsound := sound_run hfiles os
  constructor
  · rw [submissions, prepared, List.map_flatMap, List.map_flatMap]
    congr 1
    funext i
    exact (hsound i).submitted_reports (h.stage i) (hc.exited i) hfiles htype
  · rw [h.report t ht, h.tot, prepared, List.length_flatMap]
    simp only [totals, Fin.sum_univ_def]
    congr 1
    refine List.map_congr_left fun i _ => ?_
    rw [h.heard_eq_sent (hc.exited i)]
    exact (hsound i).finished (h.stage i) (hc.exited i) htype

end Run

/-! ## On the chain -/

section Chain

variable {BlockNumber : Type}

theorem isDriver_eq_true {s : Storage AccountId BlockNumber} {d : AccountId} :
    SimInsurance.isDriver s d = true ↔ s.subscriptions.containsKey d = true := by
  simp [SimInsurance.isDriver]

/-- Initialised vehicles and subscribed drivers are those of genesis, and those that have called
for it. -/
structure Known (g : Genesis AccountId BlockNumber) (h : List (ChainEntry AccountId BlockNumber))
    (s : Storage AccountId BlockNumber) : Prop where
  vehicle {v : AccountId} : SimRenault.isVehicle s v = true → g.initFactoryAndVehicle = some v ∨
    ∃ e ∈ h, ∃ router, e.input = .call router (.signed v) (.renault (.initVehicle v))
  driver {d : AccountId} : SimInsurance.isDriver s d = true → g.initDriver = some d ∨
    ∃ e ∈ h, ∃ router profile, e.input = .call router (.signed d) (.insurer (.signUp profile))

namespace Known

variable {g : Genesis AccountId BlockNumber} {h : List (ChainEntry AccountId BlockNumber)}
  {s s' : Storage AccountId BlockNumber}

theorem snoc (hk : Known g h s) (e : ChainEntry AccountId BlockNumber)
    (hv : ∀ v, SimRenault.isVehicle s' v = true → SimRenault.isVehicle s v = true ∨
      ∃ router, e.input = .call router (.signed v) (.renault (.initVehicle v)))
    (hd : ∀ d, SimInsurance.isDriver s' d = true → SimInsurance.isDriver s d = true ∨
      ∃ router profile, e.input = .call router (.signed d) (.insurer (.signUp profile))) :
    Known g (h ++ [e]) s' := by
  constructor
  · intro v hv'
    rcases hv v hv' with hold | hnew
    · refine (hk.vehicle hold).imp_right ?_
      rintro ⟨e', he', hcall⟩
      exact ⟨e', List.mem_append_left _ he', hcall⟩
    · exact .inr ⟨e, by simp, hnew⟩
  · intro d hd'
    rcases hd d hd' with hold | hnew
    · refine (hk.driver hold).imp_right ?_
      rintro ⟨e', he', hcall⟩
      exact ⟨e', List.mem_append_left _ he', hcall⟩
    · exact .inr ⟨e, by simp, hnew⟩

variable [DecidableEq AccountId]

theorem genesis (g : Genesis AccountId BlockNumber) : Known g [] g.storage := by
  obtain ⟨blockNumber, initFactoryAndVehicle, initDriver⟩ := g
  constructor
  · intro v hv
    cases initFactoryAndVehicle with
    | none => cases initDriver <;> cases hv
    | some a =>
      have hget : (StorageMap.empty.insert a true).get v = some true := by
        rw [isVehicle_eq_true] at hv
        cases initDriver <;> exact hv
      rcases StorageMap.get_insert_cases hget with ⟨rfl, -⟩ | ⟨-, hget⟩
      · exact .inl rfl
      · cases hget
  · intro d hd
    rw [isDriver_eq_true] at hd
    cases initDriver with
    | none => cases initFactoryAndVehicle <;> cases hd
    | some a =>
      rcases StorageMap.containsKey_insert.mp hd with rfl | hd
      · exact .inl rfl
      · cases initFactoryAndVehicle <;> cases hd

theorem step {cfg : Config AccountId} {e : ChainEntry AccountId BlockNumber} (hk : Known g h s)
    (hs : ChainStep cfg s e s') : Known g (h ++ [e]) s' := by
  cases hs with
  | newBlock n => exact hk.snoc _ (fun v hv => .inl hv) fun d hd => .inl hd
  | call effect =>
    cases effect with
    | @initVehicle w vehicle =>
      refine hk.snoc _ (fun v hv => ?_) fun d hd => .inl hd
      rw [isVehicle_eq_true] at hv ⊢
      rcases StorageMap.get_insert_cases hv with ⟨rfl, -⟩ | ⟨-, hv⟩
      · exact .inr ⟨_, rfl⟩
      · exact .inl hv
    | @signUp who profile =>
      refine hk.snoc _ (fun v hv => .inl hv) fun d hd => ?_
      rw [isDriver_eq_true] at hd ⊢
      rcases StorageMap.containsKey_insert.mp hd with rfl | hd
      · exact .inr ⟨_, _, rfl⟩
      · exact .inl hd
    | _ => exact hk.snoc _ (fun v hv => .inl hv) fun d hd => .inl hd

theorem run (cfg : Config AccountId) (g : Genesis AccountId BlockNumber)
    (is : List (Input AccountId BlockNumber)) :
    Known g ((chain cfg).trace g.storage is) ((chain cfg).run g.storage is) :=
  chain_invariant cfg (Known g) (fun _ => True) (genesis g)
    (fun _ _ _ _ hs _ hk => hk.step hs) fun _ _ => trivial

end Known

variable [DecidableEq AccountId]

theorem input_mem_of_mem_trace {cfg : Config AccountId} {s : Storage AccountId BlockNumber}
    {is : List (Input AccountId BlockNumber)} {e : ChainEntry AccountId BlockNumber}
    (he : e ∈ (chain cfg).trace s is) : e.input ∈ is := by
  obtain ⟨ps, i, qs, rfl, rfl⟩ := ((chain cfg).mem_trace).mp he
  simp

/-- A call that fails is reported with its error, whether or not it is undone. -/
theorem result_of_exec_error {cfg : Config AccountId} {router : SendXcm AccountId}
    {o : Origin AccountId} {call : Call AccountId} {s : Storage AccountId BlockNumber}
    {e : DispatchError} {c : Context AccountId BlockNumber}
    (h : call.exec cfg router o s = (.error e, c)) :
    (dispatch cfg router o call s).2.result = .error e := by
  simp only [dispatch, h]
  split <;> rfl

/-- The call of the chain that an extrinsic of the benchmark is. -/
def toCall : Extrinsic AccountId → Call AccountId
  | .createVehicle v => .renault (.createVehicle v)
  | .initVehicle v => .renault (.initVehicle v)
  | .signUp profile => .insurer (.signUp profile)
  | .reportAccidentRenault d => .renault (.reportAccident d)
  | .reportAccidentInsurance v n => .insurer (.reportAccident v n)

/-- The error of a report of an account that is not set up. -/
def rejection : Extrinsic AccountId → DispatchError
  | .reportAccidentInsurance _ _ => .simInsuranceAccident .unknownDriver
  | _ => .simRenaultAccident .unknownVehicle

variable {files : Files AccountId}

/-- The vehicles and drivers that call a chain to be registered do so in the set-up. -/
def SetUp.Registers (setUp : SetUp files) (is : List (Input AccountId BlockNumber)) : Prop :=
  (∀ router a v, .call router (.signed a) (.renault (.initVehicle v)) ∈ is →
    ∃ tx ∈ submissions setUp.init.state, tx.signer = a ∧ tx.call = .initVehicle v) ∧
  ∀ router a profile, .call router (.signed a) (.insurer (.signUp profile)) ∈ is →
    ∃ tx ∈ submissions setUp.signUp.state, tx.signer = a ∧ tx.call = .signUp profile

/-- A chain on which no one is registered but in the set-up and at genesis rejects the
transaction. -/
def SetUp.Rejects (setUp : SetUp files) (tx : Transaction AccountId) : Prop :=
  ∀ {BlockNumber : Type} (cfg : Config AccountId) (g : Genesis AccountId BlockNumber)
    (is : List (Input AccountId BlockNumber)), g.initFactoryAndVehicle ≠ some tx.signer →
    g.initDriver ≠ some tx.signer → setUp.Registers is →
    ∀ router, (dispatch cfg router (.signed tx.signer) (toCall tx.call)
        ((chain cfg).run g.storage is)).2.result = .error (rejection tx.call)

/-- The reports of a vehicle that is not initialised are rejected. -/
theorem SetUp.rejects_vehicle (setUp : SetUp files) {tx : Transaction AccountId} {d : DataHash}
    (hcall : tx.call = .reportAccidentRenault d) (hnot : ¬ setUp.Initialised tx.signer) :
    setUp.Rejects tx := by
  intro BlockNumber cfg g is hvehicle _ hregisters router
  have hfalse : SimRenault.isVehicle ((chain cfg).run g.storage is) tx.signer = false := by
    rw [Bool.eq_false_iff]
    intro htrue
    rcases (Known.run cfg g is).vehicle htrue with hgenesis | ⟨e, he, router', hinput⟩
    · exact hvehicle hgenesis
    · exact hnot (hregisters.1 router' _ _ (hinput ▸ input_mem_of_mem_trace he))
  rw [hcall]
  refine result_of_exec_error (c := ⟨(chain cfg).run g.storage is, [], []⟩) ?_
  simp only [toCall, Call.exec, Call.body, reportAccident_exec, hfalse, Bool.false_eq_true, if_false]
  rfl

/-- The declarations of a driver who is not signed up are rejected. -/
theorem SetUp.rejects_driver (setUp : SetUp files) {tx : Transaction AccountId} {v : AccountId}
    {n : UInt32} (hcall : tx.call = .reportAccidentInsurance v n)
    (hnot : ¬ setUp.SignedUp tx.signer) : setUp.Rejects tx := by
  intro BlockNumber cfg g is _ hdriver hregisters router
  have hfalse : SimInsurance.isDriver ((chain cfg).run g.storage is) tx.signer = false := by
    rw [Bool.eq_false_iff]
    intro htrue
    rcases (Known.run cfg g is).driver htrue with hgenesis | ⟨e, he, router', profile, hinput⟩
    · exact hdriver hgenesis
    · obtain ⟨tx', htx', hsigner, hcall'⟩ :=
        hregisters.2 router' _ _ (hinput ▸ input_mem_of_mem_trace he)
      exact hnot ⟨tx', htx', hsigner, profile, hcall'⟩
  rw [hcall]
  refine result_of_exec_error (c := ⟨(chain cfg).run g.storage is, [], []⟩) ?_
  simp only [toCall, Call.exec, Call.body, declare_exec, hfalse, Bool.false_eq_true, if_false]
  rfl

end Chain

/-! ## Coverage -/

section Coverage

variable [DecidableEq AccountId]

section Files

variable {files : Files AccountId} {toDataHash : List UInt8 → Option DataHash} {limit : Int}
  {nbProcesses : Nat} {transactionType : TransactionType} (h : Usable files)
  (htype : isReport transactionType = true)
include h htype

theorem reportsCovered_of_positions (hbound : ∀ i < nbProcesses,
      ∀ k < min (accountCount files.vehicles.length nbProcesses) (parseIntDiv limit nbProcesses).toNat,
        i * accountCount files.vehicles.length nbProcesses + k < files.vehicles.length →
          i * accountCount files.vehicles.length nbProcesses + k <
            10 * (files.vehicles.length / 10)) :
    ReportsCovered files toDataHash limit nbProcesses transactionType := by
  rintro setUp env rfl - os tx htx
  obtain ⟨hr, i, hi, k, hk, hj⟩ := exists_position h htype os htx
  rw [setUp.covers_iff h hj hr]
  obtain ⟨hlt, -⟩ := List.getElem?_eq_some_iff.mp hj
  rw [h.length_accountsOf] at hlt
  exact hbound i hi k hk hlt

/-- A report that is signed with an account beyond the set-up is not covered. -/
theorem not_reportsCovered
    (hdata : transactionType = .reportAccidentRenault → (toDataHash dataSha256sum).isSome)
    {i k : Nat} (hi : i < nbProcesses)
    (hk : k < min (accountCount files.vehicles.length nbProcesses)
      (parseIntDiv limit nbProcesses).toNat)
    (hbeyond : 10 * (files.vehicles.length / 10) ≤
      i * accountCount files.vehicles.length nbProcesses + k)
    (hlt : i * accountCount files.vehicles.length nbProcesses + k < files.vehicles.length) :
    ¬ ReportsCovered files toDataHash limit nbProcesses transactionType := by
  intro hcovered
  obtain ⟨setUp⟩ := nonempty_setUp h
  obtain ⟨env, rfl, rfl⟩ : ∃ env : Env AccountId, env.files = files ∧ env.toDataHash = toDataHash :=
    ⟨⟨files, fun _ => [], toDataHash, fun _ => 0, fun _ _ => true⟩, rfl, rfl⟩
  obtain ⟨os, tx, htx, hj, hr⟩ := exists_report env limit _ h htype hdata hi hk hlt
  have hposition := (setUp.covers_iff h hj hr).mp (hcovered setUp env rfl rfl os tx htx)
  exact absurd hposition (not_lt.mpr hbeyond)

end Files

/-- Whether the accounts that `report_accident.js` uses are those of the set-up depends on how the
numbers of accounts and workers divide: on the accounts up to the last that the last worker with
accounts uses. A report of an account that is left out is rejected by the chain, and is counted. -/
theorem reports_covered_iff (files : Files AccountId) (toDataHash : List UInt8 → Option DataHash)
    (limit : Int) (nbProcesses : Nat) (transactionType : TransactionType) (h : Usable files)
    (hprocesses : 1 ≤ nbProcesses) (htype : isReport transactionType = true) :
    let count := accountCount files.vehicles.length nbProcesses
    let share := (parseIntDiv limit nbProcesses).toNat
    let last := min (nbProcesses - 1) ((files.vehicles.length - 1) / count)
    (ReportsCovered files toDataHash limit nbProcesses transactionType ↔
      transactionType = .reportAccidentRenault ∧ toDataHash dataSha256sum = none ∨ share = 0 ∨
        min files.vehicles.length (last * count + min count share) ≤
          10 * (files.vehicles.length / 10)) ∧
    ∀ (setUp : SetUp files) (env : Env AccountId), env.files = files →
      ∀ os : List (Occurrence (reportAccident limit nbProcesses transactionType)),
        let s := (network env).run (.start _) os
        (∀ tx ∈ prepared s, ¬ setUp.Covers tx → setUp.Rejects tx) ∧
        (Completed s → ∀ t, s.coordinator.report = some t →
          (submissions s).map view = (prepared s).map view ∧
            t.finished = (prepared s).length) := by
  intro count share last
  refine ⟨⟨fun hcovered => ?_, ?_⟩, ?_⟩
  · by_contra hnot
    simp only [not_or, not_and, not_le] at hnot
    obtain ⟨hdata, hshare, hbeyond⟩ := hnot
    obtain ⟨i, hi, k, hk, hbeyond, hlt⟩ :=
      (exists_beyond_iff hprocesses (Nat.pos_of_ne_zero hshare)).mpr hbeyond
    refine not_reportsCovered h htype (fun ht => ?_) hi hk hbeyond hlt hcovered
    exact Option.isSome_iff_ne_none.mpr (hdata ht)
  · rintro (⟨rfl, hnone⟩ | hshare | hle)
    · -- no data, no report
      rintro setUp env rfl rfl os tx htx
      obtain ⟨⟨d, -, hd⟩, -⟩ := exists_position h htype os htx
      simp [hnone] at hd
    · refine reportsCovered_of_positions h htype fun i _ k hk => ?_
      simp only [share] at hshare
      omega
    · refine reportsCovered_of_positions h htype fun i hi k hk hlt => ?_
      by_contra hbeyond
      have := (exists_beyond_iff hprocesses (by omega)).mp ⟨i, hi, k, hk, not_lt.mp hbeyond, hlt⟩
      exact absurd hle (not_le.mpr this)
  · rintro setUp env rfl os s
    refine ⟨fun tx htx hnot => ?_, fun hc t ht => counted_of_completed h.equal htype hc ht⟩
    obtain ⟨hr, i, hi, k, hk, hj⟩ := exists_position h htype os htx
    rw [setUp.covers_iff h hj hr] at hnot
    cases transactionType with
    | reportAccidentRenault =>
      obtain ⟨d, hcall, -⟩ := hr
      refine setUp.rejects_vehicle hcall ?_
      rwa [setUp.initialised_iff h, mem_take_iff_lt h.vehicles_nodup hj]
    | reportAccidentInsurance =>
      obtain ⟨v, n, hcall, -⟩ := hr
      refine setUp.rejects_driver hcall ?_
      rwa [setUp.signedUp_iff h, mem_take_iff_lt h.drivers_nodup hj, ← h.equal]
    | _ => exact hr.elim

/-- Ten factories, and as many vehicles and drivers as one likes. -/
def numberedFiles (n : Nat) : Files Nat := ⟨List.range 10, List.range' 100 n, List.range' 200 n⟩

theorem usable_numberedFiles {n : Nat} (h : n < 2 ^ 32) : Usable (numberedFiles n) where
  vehicles_nodup := List.nodup_range'
  drivers_nodup := List.nodup_range'
  equal := by simp [numberedFiles]
  factories := by simp [numberedFiles]
  length_lt kind := by
    cases kind with
    | factory => simp [numberedFiles, accountsOf]
    | vehicle => simpa [numberedFiles, accountsOf] using h
    | driver => simpa [numberedFiles, accountsOf] using h

theorem reports_covered_ten_vehicles :
    Nonempty (SetUp (numberedFiles 10)) ∧
      ReportsCovered (numberedFiles 10) (fun _ => none) 10 2 .reportAccidentInsurance :=
  ⟨nonempty_setUp (usable_numberedFiles (by decide)),
    (reports_covered_iff (numberedFiles 10) (fun _ => none) 10 2 .reportAccidentInsurance
      (usable_numberedFiles (by decide)) (by decide) rfl).1.mpr (by decide +kernel)⟩

/-- The last of eleven drivers is in no piece of the set-up, and declares an accident, which the chain
rejects. -/
theorem eleventh_driver_uncovered :
    ¬ ReportsCovered (numberedFiles 11) (fun _ => none) 11 1 .reportAccidentInsurance ∧
      ∃ env : Env Nat, env.files = numberedFiles 11 ∧
        ∃ os : List (Occurrence (reportAccident 11 1 .reportAccidentInsurance)),
          ∃ tx ∈ prepared ((network env).run (.start _) os), tx.signer = 210 ∧
            ∀ setUp : SetUp (numberedFiles 11), ¬ setUp.SignedUp 210 ∧ setUp.Rejects tx := by
  have h : Usable (numberedFiles 11) := usable_numberedFiles (by decide)
  have hk : 10 < min (accountCount (numberedFiles 11).vehicles.length 1) (parseIntDiv 11 1).toNat := by
    decide +kernel
  refine ⟨not_reportsCovered h rfl (by simp) (i := 0) (by decide) hk (by decide +kernel)
    (by decide +kernel), ?_⟩
  obtain ⟨env, hfiles⟩ : ∃ env : Env Nat, env.files = numberedFiles 11 :=
    ⟨⟨numberedFiles 11, fun _ => [], fun _ => none, fun _ => 0, fun _ _ => true⟩, rfl⟩
  rw [← hfiles] at h hk
  obtain ⟨os, tx, htx, hj, v, n, hcall, -⟩ :=
    exists_report env 11 .reportAccidentInsurance h rfl (by simp) (i := 0) (by decide) hk
      (by rw [hfiles]; decide +kernel)
  have hsigner : tx.signer = 210 := by
    rw [Nat.zero_mul, Nat.zero_add, hfiles] at hj
    exact (Option.some_inj.mp hj).symm
  refine ⟨env, hfiles, os, tx, htx, hsigner, fun setUp => ?_⟩
  have hnot : ¬ setUp.SignedUp 210 := by
    rw [setUp.signedUp_iff (hfiles ▸ h)]
    decide
  exact ⟨hnot, setUp.rejects_driver hcall (hsigner ▸ hnot)⟩

end Coverage

end SIM.Proof.Benchmark
