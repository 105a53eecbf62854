import SimMultichain.Framework.Sharing
import SimMultichain.Proof.SenderProcess

/-!
# The accounts of a worker

A worker loads its pieces of the account files once, when it is initialised. From then on it only
changes the nonces, so that its arrays keep the addresses of these pieces (`Step.accounts`).
-/

namespace SIM.Proof.Benchmark

open SIM.Impl.Benchmark

variable {AccountId : Type}

/-- The account file of a kind. -/
def accountsOf (files : Files AccountId) : AccountKind → List AccountId
  | .factory => files.factories
  | .vehicle => files.vehicles
  | .driver => files.drivers

/-- The addresses of an array. -/
def addresses (arrays : Arrays AccountId) (kind : AccountKind) : List AccountId :=
  (arrays.pairs kind).map (·.address)

theorem length_addresses (arrays : Arrays AccountId) (kind : AccountKind) :
    (addresses arrays kind).length = (arrays.pairs kind).length := List.length_map ..

/-- The accounts of a worker. -/
def piece (files : Files AccountId) (p tot : Nat) (kind : AccountKind) : List AccountId :=
  slice (accountsOf files kind) (accountCount (accountsOf files kind).length tot) p

theorem length_piece_eq {files : Files AccountId}
    (hfiles : files.vehicles.length = files.drivers.length) (p tot : Nat) :
    (piece files p tot .vehicle).length = (piece files p tot .driver).length := by
  simp [piece, slice, accountsOf, hfiles]

/-- The arrays that a worker loads. -/
theorem pairs_makeAll (files : Files AccountId) (p tot : Nat) (kind : AccountKind) :
    (makeAll files (some (p, tot))).pairs kind = (piece files p tot kind).map fun a => ⟨a, 0⟩ := by
  have hfile : ∀ file : List AccountId, makeAllOf file (some (p, tot)) =
      (slice file (accountCount file.length tot) p).map fun a => ⟨a, 0⟩ := by
    intro file
    simp only [makeAllOf]
    rw [slice, ← filterMap_range'_getElem?, List.map_filterMap]
  cases kind <;> exact hfile _

theorem addresses_makeAll (files : Files AccountId) (p tot : Nat) (kind : AccountKind) :
    addresses (makeAll files (some (p, tot))) kind = piece files p tot kind := by
  simp [addresses, pairs_makeAll, Function.comp_def]

/-! ## Nonces only -/

section Arrays

variable (arrays : Arrays AccountId)

theorem pairs_modify_self (kind : AccountKind) (i : Nat) (f : Pair AccountId → Pair AccountId) :
    (arrays.modify kind i f).pairs kind = (arrays.pairs kind).modify i f := by
  cases kind <;> rfl

theorem pairs_modify_of_ne {kind kind' : AccountKind} (hne : kind' ≠ kind) (i : Nat)
    (f : Pair AccountId → Pair AccountId) :
    (arrays.modify kind i f).pairs kind' = arrays.pairs kind' := by
  cases kind <;> cases kind' <;> first | rfl | exact absurd rfl hne

theorem addresses_modify (kind : AccountKind) (i : Nat) {f : Pair AccountId → Pair AccountId}
    (hf : ∀ pair, (f pair).address = pair.address) :
    addresses (arrays.modify kind i f) = addresses arrays := by
  funext kind'
  unfold addresses
  by_cases hne : kind' = kind
  · subst hne
    rw [pairs_modify_self]
    refine List.ext_getElem? fun j => ?_
    rw [List.getElem?_map, List.getElem?_map, List.getElem?_modify, Option.map_eq_map,
      Option.map_map]
    congr 1
    funext pair
    by_cases hj : i = j <;> simp [hj, hf]
  · rw [pairs_modify_of_ne arrays hne]

theorem addresses_countNonce (i : Nat) (type : TransactionType) :
    addresses (countNonce arrays i type) = addresses arrays := by
  cases type with
  | reportAccidentRenault => exact addresses_modify _ _ _ fun _ => rfl
  | reportAccidentInsurance => exact addresses_modify _ _ _ fun _ => rfl
  | _ => rfl

theorem map_countNonce (pairs : Option (Arrays AccountId)) (i : Nat) (type : TransactionType) :
    (pairs.map (countNonce · i type)).map addresses = pairs.map addresses := by
  rw [Option.map_map]
  congr 1
  funext arrays
  exact addresses_countNonce arrays i type

theorem addresses_newCarRound (i : Nat) :
    (newCarRound arrays i).pairs.map addresses = some (addresses arrays) := by
  refine congrArg some (funext fun kind => ?_)
  cases kind with
  | factory => simp [addresses, Arrays.pairs, Pair.next, Function.comp_def]
  | vehicle => rfl
  | driver => rfl

end Arrays

/-! ## Steps -/

variable {env : Env AccountId} {w w' : Worker AccountId}

theorem arrays_eq_some {arrays : Arrays AccountId} :
    w.arrays = some arrays ↔ w.assigned = true ∧ w.pairs = some arrays := by
  unfold Worker.arrays
  split <;> simp [*]

theorem round_accounts {i : Nat} {type : TransactionType} {r : Round AccountId}
    (h : round env w i type = some r) : r.pairs.map addresses = w.pairs.map addresses := by
  cases type with
  | newCar =>
    obtain ⟨arrays, ha, rfl⟩ := Option.map_eq_some_iff.mp h
    rw [(arrays_eq_some.mp ha).2, addresses_newCarRound]
    rfl
  | initCar =>
    obtain ⟨arrays, ha, rfl⟩ := Option.map_eq_some_iff.mp h
    rw [(arrays_eq_some.mp ha).2]
    exact congrArg some (addresses_modify _ _ _ fun _ => rfl)
  | signup =>
    obtain ⟨arrays, ha, hr⟩ := Option.bind_eq_some_iff.mp h
    obtain ⟨car, -, hr⟩ := Option.bind_eq_some_iff.mp hr
    cases hr
    rw [(arrays_eq_some.mp ha).2]
    exact congrArg some (addresses_modify _ _ _ fun _ => rfl)
  | reportAccidentRenault => cases h; rfl
  | reportAccidentInsurance => cases h; rfl
  | other => cases h

theorem sendFrom_accounts (w : Worker AccountId) (call : SendCall) (i : Nat) :
    (sendFrom env w call i).worker.pairs.map addresses = w.pairs.map addresses := by
  unfold sendFrom
  split
  · split
    · rename_i hr
      exact round_accounts hr
    · rfl
  · rw [waitAll_worker]

theorem prepareFrom_pairs (w : Worker AccountId) (job : Job) (i : Nat) :
    (prepareFrom env w job i).worker.pairs = w.pairs := by
  obtain ⟨exited, hw⟩ := prepareFrom_worker env w job i
  rw [hw]

variable (env) in
/-- A nonce that is read changes nonces only. -/
theorem onNextIndex_worker (w : Worker AccountId) (kind : AccountKind) (i : Nat)
    (reads : List (AccountKind × Nat)) (job : Job) (read : Bool) :
    ∃ pairs, (onNextIndex env w kind i reads job read).worker = { w with pairs := pairs } ∧
      pairs.map addresses = w.pairs.map addresses := by
  unfold onNextIndex
  split
  · refine ⟨_, readFrom_worker .., ?_⟩
    rw [Option.map_map]
    congr 1
    funext arrays
    exact addresses_modify _ _ _ fun _ => rfl
  · exact ⟨_, readFrom_worker .., rfl⟩

variable {script : Script} {p tot : Nat} {ok : Event → Prop} {received received' : List Command}
  {sent out : List Reply}

/-- A worker that loads its accounts loads its pieces of the files; no other step changes them. -/
theorem Step.accounts (h : Step script env p tot ok w received sent w' received' out) :
    w'.pairs.map addresses = w.pairs.map addresses ∨
      w'.pairs = some (makeAll env.files (some (p, tot))) := by
  cases h with
  | idle => exact .inl rfl
  | crash => exact .inl rfl
  | init => exact .inl rfl
  | notLoaded => exact .inl rfl
  | loaded => exact .inr rfl
  | unequal => exact .inl rfl
  | prepare => left; simp [Turn.after]
  | @nextIndex w kind i reads n read =>
    obtain ⟨pairs, hw, haddresses⟩ := onNextIndex_worker env w kind i reads (jobOf script) read
    left
    simp only [Turn.after, hw, haddresses]
  | rested => left; simp only [Turn.after, prepareFrom_pairs]
  | notSigned => exact .inl rfl
  | signed hp hw =>
    left
    simp only [Turn.after, prepareFrom_pairs, hw, map_countNonce]
  | send =>
    left
    simp only [Turn.after, Script.send, onMessage]
    split
    · rfl
    · exact sendFrom_accounts ..
  | slept => left; simp only [Turn.after, sendFrom_accounts]
  | settled => exact .inl rfl
  | settledLate => exact .inl rfl
  | waited => left; simp only [Turn.after, waitAll_worker]
  | finished => exact .inl rfl
  | exit => exact .inl rfl

/-- The arrays of a worker, if there are any, are its pieces of the files. -/
def Loaded (files : Files AccountId) (p tot : Nat) (w : Worker AccountId) : Prop :=
  ∀ arrays, w.pairs = some arrays →
    ∀ kind, addresses arrays kind = piece files p tot kind

theorem loaded_start (files : Files AccountId) (p tot : Nat) :
    Loaded files p tot (.start : Worker AccountId) := by
  intro arrays h
  cases h

theorem loaded_of_accounts {files : Files AccountId} (h : Loaded files p tot w)
    (hw : w'.pairs.map addresses = w.pairs.map addresses) : Loaded files p tot w' := by
  intro arrays' ha' kind
  rw [ha'] at hw
  obtain ⟨arrays, ha, heq⟩ := Option.map_eq_some_iff.mp hw.symm
  rw [← heq]
  exact h arrays ha kind

theorem Step.loads (h : Step script env p tot ok w received sent w' received' out)
    (hw : Loaded env.files p tot w) : Loaded env.files p tot w' := by
  rcases h.accounts with heq | heq
  · exact loaded_of_accounts hw heq
  · intro arrays ha kind
    rw [heq] at ha
    cases ha
    exact addresses_makeAll ..

end SIM.Proof.Benchmark
