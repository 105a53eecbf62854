import SimMultichain.Proof.Accounts

/-!
# Sending

`send` goes through its submissions in rounds of a fixed size: one submission for most types, one
for each factory for `new_car`. A round is counted as a whole, when it has settled. `Accounted` says
what the counters are after some rounds, whatever has settled by then, and `SendingAt` what has
been submitted.
-/

namespace SIM.Proof.Benchmark

open SIM.Impl.Benchmark

variable {AccountId : Type}

/-! ## Submissions -/

/-- Who signs a transaction, and what it calls. -/
def view (tx : Transaction AccountId) : AccountId × Extrinsic AccountId := (tx.signer, tx.call)

section Submissions

variable (address : AccountId → List UInt8) (accounts : AccountKind → List AccountId)
  (transactions : List (Transaction AccountId))

/-- Submission `k` of a type, by the accounts of the worker. -/
def submission (type : TransactionType) (k : Nat) : Option (AccountId × Extrinsic AccountId) :=
  match type with
  | .newCar => do
    let factory ← (accounts .factory)[k % (accounts .factory).length]?
    let car ← (accounts .vehicle)[k]?
    return (factory, .createVehicle car)
  | .initCar => do
    let car ← (accounts .vehicle)[k]?
    return (car, .initVehicle car)
  | .signup => do
    let car ← (accounts .vehicle)[k]?
    let driver ← (accounts .driver)[k]?
    return (driver, .signUp (signUpProfile address driver car))
  | .reportAccidentRenault | .reportAccidentInsurance => transactions[k]?.map view
  | .other => none

/-- The number of submissions of a round. -/
def strideOf : TransactionType → Nat
  | .newCar => (accounts .factory).length
  | _ => 1

/-- The number of submissions of a type. -/
def totalOf : TransactionType → Nat
  | .newCar | .initCar => (accounts .vehicle).length
  | .signup => (accounts .driver).length
  | .reportAccidentRenault | .reportAccidentInsurance => transactions.length
  | .other => 0

variable {accounts} in
theorem isSome_submission_iff {type : TransactionType} (hd : 0 < strideOf accounts type)
    (hlen : type = .signup → (accounts .vehicle).length = (accounts .driver).length) (k : Nat) :
    (submission address accounts transactions type k).isSome ↔
      k < totalOf accounts transactions type := by
  have hat : ∀ l : List AccountId, l[k]?.isSome ↔ k < l.length := fun l => by simp
  have hcar := hat (accounts .vehicle)
  cases type with
  | newCar =>
    have hk : k % (accounts .factory).length < (accounts .factory).length := Nat.mod_lt _ hd
    simp only [submission, totalOf, List.getElem?_eq_getElem hk, ← hcar]
    cases (accounts .vehicle)[k]? <;> rfl
  | initCar =>
    simp only [submission, totalOf, ← hcar]
    cases (accounts .vehicle)[k]? <;> rfl
  | signup =>
    have hdriver := hat (accounts .driver)
    rw [hlen rfl, ← hdriver] at hcar
    simp only [submission, totalOf, ← hdriver]
    revert hcar
    cases (accounts .vehicle)[k]? <;> cases (accounts .driver)[k]? <;> simp
  | reportAccidentRenault => simp [submission, totalOf]
  | reportAccidentInsurance => simp [submission, totalOf]
  | other => simp [submission, totalOf]

end Submissions

/-! ## Rounds -/

/-- A round of `d` submissions from number `i` on. -/
structure IsRound (d i : Nat) (sub : Nat → Option (AccountId × Extrinsic AccountId))
    (r : Round AccountId) : Prop where
  size : r.size = d
  numbers : r.submissions.map Prod.fst = List.range' i d
  views : r.submissions.map (fun s => s.2.map view) = (List.range' i d).map sub

namespace IsRound

variable {d i : Nat} {sub : Nat → Option (AccountId × Extrinsic AccountId)} {r : Round AccountId}

theorem one {tx : Option (Transaction AccountId)} (h : tx.map view = sub i)
    (pairs : Option (Arrays AccountId)) :
    IsRound 1 i sub ⟨1, [(i, tx)], pairs⟩ := ⟨rfl, rfl, by simp [h]⟩

/-- What a round submits. -/
theorem submitted (h : IsRound d i sub r) :
    (r.submissions.filterMap (·.2)).map view = (List.range' i d).filterMap sub := by
  have := congrArg (List.filterMap id) h.views
  rwa [List.filterMap_map, List.filterMap_map, Function.id_comp, Function.id_comp,
    ← List.map_filterMap] at this

theorem any_isNone (h : IsRound d i sub r) :
    (r.submissions.any fun s => s.2.isNone) = (List.range' i d).any fun k => (sub k).isNone := by
  have := congrArg (List.any · Option.isNone) h.views
  simpa [List.any_map, Function.comp_def] using this

end IsRound

section Rounds

variable {env : Env AccountId} {w : Worker AccountId} {arrays : Arrays AccountId}

theorem getElem?_addresses (arrays : Arrays AccountId) (kind : AccountKind) (k : Nat) :
    (addresses arrays kind)[k]? = (arrays.pairs kind)[k]?.map (·.address) := List.getElem?_map ..

theorem newCarRound_isRound {i : Nat} (hi : arrays.factories.length ∣ i) :
    IsRound arrays.factories.length i
      (submission env.address (addresses arrays) w.transactions .newCar) (newCarRound arrays i) := by
  have hlen : (addresses arrays .factory).length = arrays.factories.length := length_addresses ..
  refine ⟨rfl, ?_, ?_⟩
  · simp only [newCarRound, List.map_map, List.range'_eq_map_range]
    rfl
  · simp only [newCarRound, List.map_map, List.range'_eq_map_range]
    refine List.map_congr_left fun j hj => ?_
    have hmod : (i + j) % arrays.factories.length = j := by
      rw [Nat.add_mod, Nat.mod_eq_zero_of_dvd hi, Nat.zero_add, Nat.mod_mod,
        Nat.mod_eq_of_lt (List.mem_range.mp hj)]
    simp only [Function.comp_apply, submission, hlen, hmod, getElem?_addresses, Arrays.pairs]
    cases arrays.factories[j]? <;> cases arrays.vehicles[i + j]? <;> rfl

theorem round_isRound (ha : w.arrays = some arrays) {type : TransactionType} {i : Nat}
    (hi : strideOf (addresses arrays) type ∣ i) {r : Round AccountId}
    (hr : round env w i type = some r) :
    IsRound (strideOf (addresses arrays) type) i
      (submission env.address (addresses arrays) w.transactions type) r := by
  cases type with
  | newCar =>
    have hlen : strideOf (addresses arrays) .newCar = arrays.factories.length :=
      length_addresses arrays .factory
    simp only [Impl.Benchmark.round, ha, Option.map_some, Option.some.injEq] at hr
    subst hr
    rw [hlen] at hi ⊢
    exact newCarRound_isRound hi
  | initCar =>
    simp only [Impl.Benchmark.round, ha, Option.map_some, Option.some.injEq] at hr
    subst hr
    refine .one ?_ _
    simp only [submission, getElem?_addresses, Arrays.pairs]
    cases arrays.vehicles[i]? <;> rfl
  | signup =>
    simp only [Impl.Benchmark.round, ha, Option.bind_some] at hr
    obtain ⟨car, hcar, hr⟩ := Option.bind_eq_some_iff.mp hr
    cases hr
    refine .one ?_ _
    simp only [submission, getElem?_addresses, Arrays.pairs, hcar]
    cases arrays.drivers[i]? <;> rfl
  | reportAccidentRenault => cases hr; exact .one rfl _
  | reportAccidentInsurance => cases hr; exact .one rfl _
  | other => cases hr

theorem exists_round (ha : w.arrays = some arrays) {type : TransactionType} {i : Nat}
    (hlen : type = .signup → arrays.vehicles.length = arrays.drivers.length)
    (hi : i < totalOf (addresses arrays) w.transactions type) :
    ∃ r, round env w i type = some r := by
  cases type with
  | newCar => exact ⟨newCarRound arrays i, by simp only [Impl.Benchmark.round, ha, Option.map_some]⟩
  | initCar => exact ⟨initCarRound arrays i, by simp only [Impl.Benchmark.round, ha, Option.map_some]⟩
  | signup =>
    have hlen := hlen rfl
    have hi : i < arrays.vehicles.length := by
      simp only [totalOf, length_addresses, Arrays.pairs] at hi
      omega
    exact ⟨_, by
      simp only [Impl.Benchmark.round, ha, Option.bind_some, signupRound,
        List.getElem?_eq_getElem hi]
      rfl⟩
  | reportAccidentRenault => exact ⟨_, rfl⟩
  | reportAccidentInsurance => exact ⟨_, rfl⟩
  | other => cases hi

theorem waitTotalOf_eq (ha : w.arrays = some arrays) (type : TransactionType) :
    waitTotalOf w type = some (totalOf (addresses arrays) w.transactions type) := by
  cases type <;> simp [waitTotalOf, totalOf, ha, length_addresses, Arrays.pairs]

theorem stride_eq (ha : w.arrays = some arrays) (type : TransactionType) :
    stride w type = strideOf (addresses arrays) type := by
  cases type <;> simp [stride, strideOf, ha, length_addresses, Arrays.pairs]

end Rounds

/-! ## Counters -/

section Counters

variable (accepts : Nat → Bool) (d n : Nat)

/-- Whether all submissions of a round are there and accepted. -/
def goodRound (b : Nat) : Bool := decide (b * d + d ≤ n) && (List.range' (b * d) d).all accepts

/-- The promise of one of the first `R` rounds. What has settled of it was accepted. -/
structure Pending (R : Nat) (x : Batch) : Prop where
  size : x.size = d
  round : ∃ b < R, x.first = b * d
  fits : x.first + d ≤ n
  sublist : x.submissions.Sublist (List.range' x.first d)
  nonempty : x.submissions ≠ []
  accepted : ∀ k ∈ List.range' x.first d, k ∉ x.submissions → accepts k = true

/-- The counters after `R` rounds, with what is still pending of them. -/
structure Accounted (R : Nat) (call : SendCall) : Prop where
  waitTotalOf : call.waitTotalOf = n
  finished : call.finished = call.success + call.failed
  counted : call.finished + d * call.batches.length = d * R
  success : call.success + d * call.batches.countP (fun x => (List.range' x.first d).all accepts) =
    d * (List.range R).countP (goodRound accepts d n)
  pending : ∀ x ∈ call.batches, Pending accepts d n R x
  ordered : call.batches.Pairwise fun x y => x.first + d ≤ y.first

/-- Submission `k` has not settled. -/
def Awaited (call : SendCall) (k : Nat) : Prop := ∃ x ∈ call.batches, k ∈ x.submissions

/-- The number of submissions that have not settled. -/
def outstanding (call : SendCall) : Nat := (call.batches.map (·.submissions.length)).sum

variable {accepts d n} {R : Nat} {call : SendCall}

theorem Pending.mono {x : Batch} (h : Pending accepts d n R x) : Pending accepts d n (R + 1) x := by
  obtain ⟨b, hb, hx⟩ := h.round
  exact { h with round := ⟨b, Nat.lt_succ_of_lt hb, hx⟩ }

theorem Pending.lt {x : Batch} (h : Pending accepts d n R x) {k : Nat} (hk : k ∈ x.submissions) :
    x.first ≤ k ∧ k < x.first + d := by
  have := h.sublist.subset hk
  rw [List.mem_range'_1] at this
  exact this

theorem Accounted.start (type : TransactionType) : Accounted accepts d n 0 ⟨type, n, 0, 0, 0, []⟩ where
  waitTotalOf := rfl
  finished := rfl
  counted := rfl
  success := rfl
  pending x hx := by cases hx
  ordered := .nil

section Promise

variable {sub : Nat → Option (AccountId × Extrinsic AccountId)} {r : Round AccountId}

theorem countP_goodRound_succ (R : Nat) :
    (List.range (R + 1)).countP (goodRound accepts d n) =
      (List.range R).countP (goodRound accepts d n) +
        if goodRound accepts d n R = true then 1 else 0 := by
  rw [List.range_succ, List.countP_append, List.countP_singleton]

/-- The counters once a round is rejected at once, because a submission of it is missing. -/
theorem Accounted.rejectedAtOnce (h : Accounted accepts d n R call) (hlast : n < R * d + d) :
    Accounted accepts d n (R + 1) (call.rejected d) := by
  have hgood : goodRound accepts d n R = false := by simp [goodRound]; omega
  have hcounted := h.counted
  have hsuccess := h.success
  refine ⟨h.waitTotalOf, ?_, ?_, ?_, fun x hx => (h.pending x hx).mono, h.ordered⟩
  · have := h.finished
    simp only [SendCall.rejected]
    omega
  · simp only [SendCall.rejected, Nat.mul_succ]
    omega
  · rw [countP_goodRound_succ, hgood]
    exact hsuccess

/-- The counters once a round is launched. -/
theorem Accounted.launched (h : Accounted accepts d n R call) (hd : 0 < d) (hfits : R * d + d ≤ n) :
    Accounted accepts d n (R + 1)
      { call with batches := call.batches ++ [⟨R * d, d, List.range' (R * d) d⟩] } := by
  have hcounted := h.counted
  refine ⟨h.waitTotalOf, h.finished, ?_, ?_, fun x hx => ?_, ?_⟩
  · simp only [List.length_append, List.length_singleton, Nat.mul_succ]
    omega
  · have hgood : goodRound accepts d n R = (List.range' (R * d) d).all accepts := by
      simp [goodRound, hfits]
    rw [countP_goodRound_succ, hgood, List.countP_append, List.countP_singleton, Nat.mul_add,
      Nat.mul_add, ← Nat.add_assoc, h.success]
  · rcases List.mem_append.mp hx with hx | hx
    · exact (h.pending x hx).mono
    · cases List.mem_singleton.mp hx
      exact ⟨rfl, ⟨R, Nat.lt_succ_self R, rfl⟩, hfits, List.Sublist.refl _, by simpa using hd.ne',
        fun k hk hk' => absurd hk hk'⟩
  · rw [List.pairwise_append]
    refine ⟨h.ordered, List.pairwise_singleton .., fun x hx y hy => ?_⟩
    cases List.mem_singleton.mp hy
    obtain ⟨b, hb, hfirst⟩ := (h.pending x hx).round
    calc x.first + d = (b + 1) * d := by rw [hfirst, Nat.add_one_mul]
      _ ≤ R * d := Nat.mul_le_mul_right d hb

/-- One round more. -/
theorem Accounted.promise (h : Accounted accepts d n R call) (hr : IsRound d (R * d) sub r)
    (hsub : 0 < d → ∀ k, (sub k).isSome ↔ k < n) :
    Accounted accepts d n (R + 1) (call.promise (R * d) r) := by
  unfold SendCall.promise
  rw [hr.any_isNone, hr.numbers, hr.size]
  rcases Nat.eq_zero_or_pos d with rfl | hd
  · -- a promise of nothing, which counts nothing
    have hnil : r.submissions = [] := List.map_eq_nil_iff.mp hr.numbers
    simp only [List.range'_zero, List.any_nil, Bool.false_eq_true, if_false, hnil, if_true]
    refine ⟨h.waitTotalOf, h.finished, ?_, ?_, fun x hx => (h.pending x hx).mono, h.ordered⟩
    · simpa [SendCall.resolved] using h.counted
    · simpa [SendCall.resolved] using h.success
  have hne : r.submissions ≠ [] := by
    intro hnil
    have := hr.numbers
    rw [hnil] at this
    have := congrArg List.length this
    simp at this
    omega
  by_cases hfits : R * d + d ≤ n
  · have hall : ((List.range' (R * d) d).any fun k => (sub k).isNone) = false := by
      rw [List.any_eq_false]
      intro k hk
      rw [List.mem_range'_1] at hk
      have := (hsub hd k).mpr (by omega)
      simpa [Option.isSome_iff_ne_none] using this
    rw [hall]
    simpa only [Bool.false_eq_true, if_false, hne] using h.launched hd hfits
  · have hany : ((List.range' (R * d) d).any fun k => (sub k).isNone) = true := by
      rw [List.any_eq_true]
      refine ⟨R * d + d - 1, by rw [List.mem_range'_1]; omega, ?_⟩
      have := (hsub hd (R * d + d - 1)).not.mpr (by omega)
      simpa using this
    rw [hany]
    simpa only [if_true] using h.rejectedAtOnce (by omega)

end Promise

/-! ### Settling -/

theorem settled_of_not_awaited {k : Nat} (h : ¬ Awaited call k) : call.settled accepts k = call := by
  have hnone : (call.batches.find? fun batch => k ∈ batch.submissions) = none := by
    rw [List.find?_eq_none]
    intro x hx hk
    exact h ⟨x, hx, by simpa using hk⟩
  simp only [SendCall.settled, hnone]

/-- An awaited submission is one of a single batch. -/
theorem Accounted.split (h : Accounted accepts d n R call) {k : Nat} (hk : Awaited call k) :
    ∃ l₁ x l₂, call.batches = l₁ ++ x :: l₂ ∧ k ∈ x.submissions ∧
      ∀ y ∈ l₁ ++ l₂, k ∉ y.submissions := by
  obtain ⟨x, hx, hkx⟩ := hk
  obtain ⟨l₁, l₂, hl⟩ := List.append_of_mem hx
  refine ⟨l₁, x, l₂, hl, hkx, fun y hy hky => ?_⟩
  have hpx := (h.pending x hx).lt hkx
  have hmem : y ∈ call.batches := by
    rw [hl]
    rcases List.mem_append.mp hy with hy | hy
    · exact List.mem_append_left _ hy
    · exact List.mem_append_right _ (List.mem_cons_of_mem _ hy)
  have hpy := (h.pending y hmem).lt hky
  have hordered := h.ordered
  rw [hl, List.pairwise_append, List.pairwise_cons] at hordered
  rcases List.mem_append.mp hy with hy | hy
  · have := hordered.2.2 y hy x List.mem_cons_self
    omega
  · have := hordered.2.1.1 y hy
    omega

/-- What settling a submission of a batch does. -/
theorem settled_split {l₁ l₂ : List Batch} {x : Batch} {k : Nat} (hl : call.batches = l₁ ++ x :: l₂)
    (hk : k ∈ x.submissions) (hne : ∀ y ∈ l₁ ++ l₂, k ∉ y.submissions) :
    call.settled accepts k =
      if accepts k then
        if x.submissions.erase k = [] then { call with batches := l₁ ++ l₂ }.resolved x.size
        else { call with
          batches := l₁ ++ { x with submissions := x.submissions.erase k } :: l₂ }
      else { call with batches := l₁ ++ l₂ }.rejected x.size := by
  have hl₁ : ∀ y ∈ l₁, k ∉ y.submissions := fun y hy => hne y (List.mem_append_left _ hy)
  have hl₂ : ∀ y ∈ l₂, k ∉ y.submissions := fun y hy => hne y (List.mem_append_right _ hy)
  have hfind : (call.batches.find? fun batch => k ∈ batch.submissions) = some x := by
    rw [hl, List.find?_append, List.find?_eq_none.mpr (by simpa using hl₁)]
    simp [hk]
  have hfilter : (call.batches.filter fun batch => k ∉ batch.submissions) = l₁ ++ l₂ := by
    rw [hl, List.filter_append, List.filter_cons_of_neg (by simpa using hk),
      List.filter_eq_self.mpr (by simpa using hl₁), List.filter_eq_self.mpr (by simpa using hl₂)]
  have hmap : ∀ l : List Batch, (∀ y ∈ l, k ∉ y.submissions) →
      (l.map fun b => { b with submissions := b.submissions.erase k }) = l := by
    intro l hl
    refine (List.map_congr_left fun y hy => ?_).trans (List.map_id l)
    rw [List.erase_of_not_mem (hl y hy)]
    rfl
  have hbatches : (call.batches.map fun b => { b with submissions := b.submissions.erase k }) =
      l₁ ++ { x with submissions := x.submissions.erase k } :: l₂ := by
    rw [hl, List.map_append, List.map_cons, hmap l₁ hl₁, hmap l₂ hl₂]
  simp only [SendCall.settled, hfind, hfilter, hbatches]

/-- The counters without a batch, which is counted once more as `success` and `failed` say. -/
theorem Accounted.without (h : Accounted accepts d n R call) {l₁ l₂ : List Batch} {x : Batch}
    (hl : call.batches = l₁ ++ x :: l₂) {success failed : Nat} (hsum : success + failed = d)
    (hsuccess : success = if (List.range' x.first d).all accepts = true then d else 0) :
    Accounted accepts d n R
      { call with
        batches := l₁ ++ l₂, finished := call.finished + d, success := call.success + success
        failed := call.failed + failed } := by
  have hcounted := h.counted
  have hgood := h.success
  have hfinished := h.finished
  have hsub : (l₁ ++ l₂).Sublist call.batches := by
    rw [hl]
    exact List.Sublist.append_left (List.sublist_cons_self x l₂) l₁
  refine ⟨h.waitTotalOf, ?_, ?_, ?_, fun y hy => h.pending y (hsub.subset hy),
    h.ordered.sublist hsub⟩
  · simp only
    omega
  · rw [hl] at hcounted
    simp only [List.length_append, List.length_cons] at hcounted ⊢
    rw [← Nat.add_assoc, Nat.mul_succ] at hcounted
    omega
  · rw [hl, List.countP_append, List.countP_cons] at hgood
    rw [List.countP_append]
    simp only at hgood ⊢
    rw [← hgood, hsuccess]
    split <;> ring

/-- The counters with one submission of a batch accepted and others of it awaited. -/
theorem Accounted.accepted (h : Accounted accepts d n R call) {l₁ l₂ : List Batch} {x : Batch}
    {k : Nat} (hl : call.batches = l₁ ++ x :: l₂) (ha : accepts k = true)
    (herase : x.submissions.erase k ≠ []) :
    Accounted accepts d n R
      { call with batches := l₁ ++ { x with submissions := x.submissions.erase k } :: l₂ } := by
  have hlen : (l₁ ++ { x with submissions := x.submissions.erase k } :: l₂).length =
      call.batches.length := by rw [hl]; simp
  refine ⟨h.waitTotalOf, h.finished, ?_, ?_, fun y hy => ?_, ?_⟩
  · simp only [hlen]
    exact h.counted
  · have hsuccess := h.success
    rw [hl, List.countP_append, List.countP_cons] at hsuccess
    rw [List.countP_append, List.countP_cons]
    exact hsuccess
  · rcases List.mem_append.mp hy with hy | hy
    · exact h.pending y (by rw [hl]; exact List.mem_append_left _ hy)
    · rcases List.mem_cons.mp hy with rfl | hy
      · have hp := h.pending x (by rw [hl]; exact List.mem_append_right _ List.mem_cons_self)
        refine { hp with
          sublist := (List.erase_sublist ..).trans hp.sublist
          nonempty := herase
          accepted := fun j hj hj' => ?_ }
        by_cases hjk : j = k
        · rw [hjk, ha]
        · exact hp.accepted j hj fun hjx => hj' ((List.mem_erase_of_ne hjk).mpr hjx)
      · exact h.pending y (by rw [hl]; exact List.mem_append_right _ (List.mem_cons_of_mem _ hy))
  · have hordered := h.ordered
    rw [hl, List.pairwise_append, List.pairwise_cons] at hordered
    rw [List.pairwise_append, List.pairwise_cons]
    refine ⟨hordered.1, hordered.2.1, fun y hy z hz => ?_⟩
    rcases List.mem_cons.mp hz with rfl | hz
    · exact hordered.2.2 y hy x List.mem_cons_self
    · exact hordered.2.2 y hy z (List.mem_cons_of_mem _ hz)

theorem Accounted.settled (h : Accounted accepts d n R call) (k : Nat) :
    Accounted accepts d n R (call.settled accepts k) := by
  by_cases hk : Awaited call k
  swap
  · rwa [settled_of_not_awaited hk]
  obtain ⟨l₁, x, l₂, hl, hkx, hne⟩ := h.split hk
  have hx : x ∈ call.batches := by rw [hl]; exact List.mem_append_right _ List.mem_cons_self
  have hp := h.pending x hx
  rw [settled_split hl hkx hne]
  cases ha : accepts k with
  | true =>
    simp only [if_true]
    split
    · -- the last one of its batch
      rename_i herase
      rw [hp.size]
      refine h.without hl (Nat.add_zero d) (if_pos ?_).symm
      rw [List.all_eq_true]
      intro j hj
      by_cases hjk : j = k
      · rw [hjk, ha]
      · refine hp.accepted j hj fun hjx => ?_
        have := (List.mem_erase_of_ne hjk).mpr hjx
        rw [herase] at this
        cases this
    · rename_i herase
      exact h.accepted hl ha herase
  | false =>
    simp only [Bool.false_eq_true, if_false, hp.size]
    refine h.without hl (Nat.zero_add d) (if_neg ?_).symm
    rw [List.all_eq_true]
    intro hall
    have := hall k (hp.sublist.subset hkx)
    rw [ha] at this
    cases this

theorem Accounted.exists_awaited (h : Accounted accepts d n R call) (hlt : call.finished < d * R) :
    ∃ k, Awaited call k := by
  have hcounted := h.counted
  have hne : call.batches ≠ [] := by
    intro hnil
    rw [hnil, List.length_nil, Nat.mul_zero] at hcounted
    omega
  obtain ⟨x, hx⟩ := List.exists_mem_of_ne_nil _ hne
  obtain ⟨k, hk⟩ := List.exists_mem_of_ne_nil _ (h.pending x hx).nonempty
  exact ⟨k, x, hx, hk⟩

theorem Accounted.outstanding_settled (h : Accounted accepts d n R call) {k : Nat}
    (hk : Awaited call k) : outstanding (call.settled accepts k) < outstanding call := by
  obtain ⟨l₁, x, l₂, hl, hkx, hne⟩ := h.split hk
  have hpos := List.length_pos_of_mem hkx
  have hfull : outstanding call = (l₁.map (·.submissions.length)).sum + (x.submissions.length +
      (l₂.map (·.submissions.length)).sum) := by
    simp only [outstanding, hl, List.map_append, List.map_cons, List.sum_append, List.sum_cons]
  have hrest : ((l₁ ++ l₂).map (·.submissions.length)).sum < outstanding call := by
    rw [hfull, List.map_append, List.sum_append]
    omega
  rw [settled_split hl hkx hne]
  split
  · split
    · exact hrest
    · rw [hfull]
      simp only [outstanding, List.map_append, List.map_cons, List.sum_append, List.sum_cons,
        List.length_erase_of_mem hkx]
      omega
  · exact hrest

theorem outstanding_promise {i : Nat} {sub : Nat → Option (AccountId × Extrinsic AccountId)}
    {r : Round AccountId} (hr : IsRound d i sub r) :
    outstanding (call.promise i r) ≤ outstanding call + d := by
  unfold SendCall.promise
  split
  · exact Nat.le_add_right _ _
  · split
    · exact Nat.le_add_right _ _
    · simp only [outstanding, List.map_append, List.sum_append, hr.numbers, List.map_cons,
        List.length_range', List.map_nil, List.sum_singleton, Nat.le_refl]

/-- When the rounds fit in exactly, a call that has finished has counted each submission once. -/
theorem Accounted.exact (h : Accounted accepts d n R call) (hd : d ∣ n)
    (hstarted : ∀ b < R, b * d < n) (hR : n ≤ R * d) (hfinished : n ≤ call.finished) :
    call.finished = n ∧ call.success = d * (List.range (n / d)).countP (goodRound accepts d n) := by
  obtain ⟨q, rfl⟩ := hd
  have hcounted := h.counted
  rcases Nat.eq_zero_or_pos d with rfl | hd
  · have hsuccess := h.success
    simp only [Nat.zero_mul, Nat.add_zero] at hcounted hsuccess ⊢
    exact ⟨hcounted, hsuccess⟩
  have hRq : R = q := by
    refine le_antisymm ?_ (Nat.le_of_mul_le_mul_left (by rwa [Nat.mul_comm d R]) hd)
    by_contra hlt
    have := hstarted q (by omega)
    rw [Nat.mul_comm] at this
    exact lt_irrefl _ this
  subst hRq
  have hzero : d * call.batches.length = 0 := by omega
  have hnil : call.batches = [] := by
    rcases Nat.mul_eq_zero.mp hzero with h0 | h0
    · omega
    · exact List.length_eq_zero_iff.mp h0
  have hsuccess := h.success
  rw [hnil, List.countP_nil, Nat.mul_zero, Nat.add_zero] at hsuccess
  exact ⟨by omega, by rw [hsuccess, Nat.mul_div_cancel_left R hd]⟩

end Counters

/-! ## The worker -/

section Worker

variable (env : Env AccountId) (p : Nat) (accounts : AccountKind → List AccountId)
  (base : List (Transaction AccountId))

/-- A worker with these accounts that had submitted `base` is `R` rounds into a call of `send`. -/
structure SendingAt (w : Worker AccountId) (call : SendCall) (R : Nat) : Prop where
  arrays : w.arrays.map addresses = some accounts
  accounted : Accounted (env.accepts p) (strideOf accounts call.transactionType)
    (totalOf accounts w.transactions call.transactionType) R call
  started : ∀ b < R, b * strideOf accounts call.transactionType <
    totalOf accounts w.transactions call.transactionType
  submitted : ∃ new, w.submitted = base ++ new ∧ new.map view =
    (List.range (R * strideOf accounts call.transactionType)).filterMap
      (submission env.address accounts w.transactions call.transactionType)

namespace SendingAt

variable {env p accounts base} {w : Worker AccountId} {call : SendCall} {R : Nat}

theorem start (ha : w.arrays.map addresses = some accounts) (type : TransactionType) :
    SendingAt env p accounts w.submitted w
      ⟨type, totalOf accounts w.transactions type, 0, 0, 0, []⟩ 0 where
  arrays := ha
  accounted := .start type
  started b hb := by cases hb
  submitted := ⟨[], by simp, by simp⟩

theorem with_handlers (h : SendingAt env p accounts base w call R)
    (hs : List (Handler AccountId)) :
    SendingAt env p accounts base { w with handlers := hs } call R :=
  ⟨h.arrays, h.accounted, h.started, h.submitted⟩

theorem onMessage_send (ha : w.arrays.map addresses = some accounts) (type : TransactionType) :
    onMessage env w (.send type) =
      sendFrom env w ⟨type, totalOf accounts w.transactions type, 0, 0, 0, []⟩ 0 := by
  obtain ⟨arrays, harrays, rfl⟩ := Option.map_eq_some_iff.mp ha
  simp only [onMessage, waitTotalOf_eq harrays]

theorem stride_eq (h : SendingAt env p accounts base w call R) (type : TransactionType) :
    stride w type = strideOf accounts type := by
  obtain ⟨arrays, harrays, rfl⟩ := Option.map_eq_some_iff.mp h.arrays
  exact Benchmark.stride_eq harrays type

theorem settled (h : SendingAt env p accounts base w call R) (k : Nat) :
    SendingAt env p accounts base w (call.settled (env.accepts p) k) R := by
  have htype := settled_transactionType (env.accepts p) call k
  refine ⟨h.arrays, ?_, ?_, ?_⟩
  · rw [htype]; exact h.accounted.settled k
  · rw [htype]; exact h.started
  · rw [htype]; exact h.submitted

/-- One round more. -/
theorem next (h : SendingAt env p accounts base w call R)
    (hlen : call.transactionType = .signup →
      (accounts .vehicle).length = (accounts .driver).length)
    (hlt : R * strideOf accounts call.transactionType <
      totalOf accounts w.transactions call.transactionType) :
    ∃ w' call', sendFrom env w call (R * strideOf accounts call.transactionType) =
        ⟨w', [], some (.send call' (R * strideOf accounts call.transactionType))⟩ ∧
      SendingAt env p accounts base w' call' (R + 1) ∧ w'.transactions = w.transactions ∧
      w'.exited = w.exited ∧ call'.transactionType = call.transactionType ∧
      outstanding call' ≤ outstanding call + strideOf accounts call.transactionType := by
  obtain ⟨arrays, harrays, rfl⟩ := Option.map_eq_some_iff.mp h.arrays
  simp only [length_addresses, Arrays.pairs] at hlen
  obtain ⟨r, hr⟩ : ∃ r, Impl.Benchmark.round env w
      (R * strideOf (addresses arrays) call.transactionType) call.transactionType = some r :=
    exists_round harrays hlen hlt
  have hround := round_isRound harrays (Nat.dvd_mul_left _ _) hr
  have htype := promise_transactionType call (R * strideOf (addresses arrays) call.transactionType) r
  obtain ⟨hassigned, hpairs⟩ := arrays_eq_some.mp harrays
  have haccounts := round_accounts hr
  refine ⟨{ w with
      pairs := r.pairs
      submitted := w.submitted ++ r.submissions.filterMap (·.2) },
    call.promise (R * strideOf (addresses arrays) call.transactionType) r, ?_, ⟨?_, ?_, ?_, ?_⟩,
    rfl, rfl, htype, outstanding_promise hround⟩
  · simp only [sendFrom, h.accounted.waitTotalOf, hlt, if_true, hr]
  · simp only [Worker.arrays, hassigned, if_true, haccounts, hpairs, Option.map_some]
  · rw [htype]
    refine h.accounted.promise hround fun hd k => ?_
    exact isSome_submission_iff env.address w.transactions hd
      (by simpa only [length_addresses, Arrays.pairs] using hlen) k
  · rw [htype]
    intro b hb
    rcases Nat.lt_succ_iff_lt_or_eq.mp hb with hb | rfl
    · exact h.started b hb
    · exact hlt
  · rw [htype]
    obtain ⟨new, hnew, hview⟩ := h.submitted
    refine ⟨new ++ r.submissions.filterMap (·.2), ?_, ?_⟩
    · simp only [hnew, List.append_assoc]
    · rw [List.map_append, hview, hround.submitted, ← List.filterMap_append, Nat.add_one_mul,
        List.range_add, List.range'_eq_map_range]

theorem sendFrom_of_le (h : SendingAt env p accounts base w call R)
    (hle : totalOf accounts w.transactions call.transactionType ≤
      R * strideOf accounts call.transactionType) :
    sendFrom env w call (R * strideOf accounts call.transactionType) = waitAll w call := by
  simp only [sendFrom, h.accounted.waitTotalOf, Nat.not_lt.mpr hle, if_false]

/-- When the rounds are over, each submission was made once, in order. -/
theorem submitted_all (h : SendingAt env p accounts base w call R)
    (hlen : call.transactionType = .signup →
      (accounts .vehicle).length = (accounts .driver).length)
    (hle : totalOf accounts w.transactions call.transactionType ≤
      R * strideOf accounts call.transactionType) :
    ∃ new, w.submitted = base ++ new ∧ new.map view =
      (List.range (totalOf accounts w.transactions call.transactionType)).filterMap
        (submission env.address accounts w.transactions call.transactionType) := by
  obtain ⟨new, hnew, hview⟩ := h.submitted
  refine ⟨new, hnew, ?_⟩
  obtain ⟨rest, hrest⟩ := Nat.exists_eq_add_of_le hle
  rw [hview, hrest, List.range_add, List.filterMap_append]
  suffices hnone :
      ((List.range rest).map (totalOf accounts w.transactions call.transactionType + ·)).filterMap
        (submission env.address accounts w.transactions call.transactionType) = [] by
    rw [hnone, List.append_nil]
  rw [List.filterMap_eq_nil_iff]
  intro k hk
  obtain ⟨j, hj, rfl⟩ := List.mem_map.mp hk
  have hj := List.mem_range.mp hj
  have hd : 0 < strideOf accounts call.transactionType := by
    by_contra hzero
    rw [Nat.eq_zero_of_not_pos hzero, Nat.mul_zero] at hrest
    omega
  have := (isSome_submission_iff env.address w.transactions hd hlen
    (totalOf accounts w.transactions call.transactionType + j)).not.mpr (by omega)
  simpa using this

end SendingAt

/-- How far a worker is in a call of `send`, by the messages it has sent since. -/
inductive SendRun (type : TransactionType) (w : Worker AccountId) : List Reply → Prop
  | sending (call : SendCall) (R : Nat) : call.transactionType = type →
      SendingAt env p accounts base w call (R + 1) →
      w.handlers = [.send call (R * strideOf accounts type)] → SendRun type w []
  | waiting (call : SendCall) (R : Nat) : call.transactionType = type →
      SendingAt env p accounts base w call R →
      totalOf accounts w.transactions type ≤ R * strideOf accounts type →
      w.handlers = [.wait call] → SendRun type w []
  | reported (call : SendCall) (R : Nat) : call.transactionType = type →
      SendingAt env p accounts base w call R →
      totalOf accounts w.transactions type ≤ R * strideOf accounts type →
      totalOf accounts w.transactions type ≤ call.finished → w.handlers = [.finish] →
      SendRun type w [.sendStats call.success call.failed call.finished]
  | done (call : SendCall) (R : Nat) : call.transactionType = type →
      SendingAt env p accounts base w call R →
      totalOf accounts w.transactions type ≤ R * strideOf accounts type →
      totalOf accounts w.transactions type ≤ call.finished → w.handlers = [] →
      SendRun type w [.sendStats call.success call.failed call.finished, .sendOk]

variable {env p accounts base} {w : Worker AccountId} {call : SendCall} {R : Nat}

theorem sendRun_waitAll (h : SendingAt env p accounts base w call R)
    (hle : totalOf accounts w.transactions call.transactionType ≤
      R * strideOf accounts call.transactionType) :
    SendRun env p accounts base call.transactionType (Turn.after (waitAll w call))
      (waitAll w call).sent := by
  unfold waitAll
  rw [h.accounted.waitTotalOf]
  split
  · exact .waiting call R rfl (h.with_handlers _) hle rfl
  · rename_i hfinished
    exact .reported call R rfl (h.with_handlers _) hle (Nat.not_lt.mp hfinished) rfl

theorem sendRun_sendFrom (h : SendingAt env p accounts base w call R)
    (hlen : call.transactionType = .signup →
      (accounts .vehicle).length = (accounts .driver).length) :
    SendRun env p accounts base call.transactionType
      (Turn.after (sendFrom env w call (R * strideOf accounts call.transactionType)))
      (sendFrom env w call (R * strideOf accounts call.transactionType)).sent := by
  by_cases hlt : R * strideOf accounts call.transactionType <
      totalOf accounts w.transactions call.transactionType
  · obtain ⟨w', call', heq, h', htx, -, htype, -⟩ := h.next hlen hlt
    rw [heq]
    exact .sending call' R htype (h'.with_handlers _) rfl
  · rw [h.sendFrom_of_le (Nat.not_lt.mp hlt)]
    exact sendRun_waitAll h (Nat.not_lt.mp hlt)

/-! ## What is left -/

/-- What a handler of `send` has still to do, for `n` submissions in rounds of `d`. -/
def sendSize (d n : Nat) : Handler AccountId → Nat
  | .send call i => (n - i) * (d + 1) + outstanding call + 2
  | .wait call => outstanding call + 2
  | .finish => 1
  | _ => 0

theorem waitAll_next (h : SendingAt env p accounts base w call R) :
    (waitAll w call).next = some (.wait call) ∧
        call.finished < totalOf accounts w.transactions call.transactionType ∨
      (waitAll w call).next = some .finish ∧
        totalOf accounts w.transactions call.transactionType ≤ call.finished := by
  unfold waitAll
  rw [h.accounted.waitTotalOf]
  split
  · rename_i hlt
    exact .inl ⟨rfl, hlt⟩
  · rename_i hlt
    exact .inr ⟨rfl, Nat.not_lt.mp hlt⟩

theorem rounds_left_lt {n R d c c' : Nat} (hd : 0 < d) (hlt : (R + 1) * d < n) (hc : c' ≤ c + d) :
    (n - (R + 1) * d) * (d + 1) + c' < (n - R * d) * (d + 1) + c := by
  have hsplit : n - R * d = (n - (R + 1) * d) + d := by
    rw [Nat.add_one_mul] at hlt ⊢
    omega
  have hround : d < d * (d + 1) := by nlinarith
  rw [hsplit, Nat.add_mul (n - (R + 1) * d) d (d + 1)]
  omega

/-- An iteration of `send` leaves less to do. -/
theorem sendSize_sendFrom (h : SendingAt env p accounts base w call (R + 1))
    (hlen : call.transactionType = .signup →
      (accounts .vehicle).length = (accounts .driver).length)
    (hd : 0 < strideOf accounts call.transactionType) {next : Handler AccountId}
    (hnext : (sendFrom env w call ((R + 1) * strideOf accounts call.transactionType)).next =
      some next) :
    sendSize (strideOf accounts call.transactionType)
        (totalOf accounts w.transactions call.transactionType) next <
      sendSize (strideOf accounts call.transactionType)
        (totalOf accounts w.transactions call.transactionType)
        (.send call (R * strideOf accounts call.transactionType) : Handler AccountId) := by
  by_cases hlt : (R + 1) * strideOf accounts call.transactionType <
      totalOf accounts w.transactions call.transactionType
  · obtain ⟨w', call', heq, -, -, -, -, hout⟩ := h.next hlen hlt
    rw [heq] at hnext
    cases hnext
    exact Nat.add_lt_add_right (rounds_left_lt hd hlt hout) 2
  · rw [h.sendFrom_of_le (Nat.not_lt.mp hlt)] at hnext
    have hpos : 0 < (totalOf accounts w.transactions call.transactionType -
        R * strideOf accounts call.transactionType) *
          (strideOf accounts call.transactionType + 1) :=
      Nat.mul_pos (Nat.sub_pos_of_lt (h.started R (Nat.lt_succ_self R))) (Nat.succ_pos _)
    rcases waitAll_next h with ⟨heq, -⟩ | ⟨heq, -⟩
    · rw [heq] at hnext
      cases hnext
      simp only [sendSize]
      omega
    · rw [heq] at hnext
      cases hnext
      simp only [sendSize]
      omega

variable (accounts) in
/-- What a worker that runs `send` has still to do. -/
def sendLeft (type : TransactionType) (w : Worker AccountId) : Nat :=
  (w.handlers.map (sendSize (strideOf accounts type) (totalOf accounts w.transactions type))).sum

theorem sendLeft_of_handlers {type : TransactionType} {h : Handler AccountId}
    (hh : w.handlers = [h]) : sendLeft accounts type w =
      sendSize (strideOf accounts type) (totalOf accounts w.transactions type) h := by
  simp [sendLeft, hh]

theorem eq_of_handlers {hs : List (Handler AccountId)} (hh : w.handlers = hs) :
    { w with handlers := hs } = w := by
  rw [← hh]

theorem length_sent_waitAll (w : Worker AccountId) (call : SendCall) :
    (waitAll w call).sent.length ≤ 1 := by
  unfold waitAll
  split <;> simp

theorem length_sent_sendFrom (w : Worker AccountId) (call : SendCall) (i : Nat) :
    (sendFrom env w call i).sent.length ≤ 1 := by
  unfold sendFrom
  split
  · split <;> simp
  · exact length_sent_waitAll w call

theorem SendingAt.exited_sendFrom (h : SendingAt env p accounts base w call R)
    (hlen : call.transactionType = .signup →
      (accounts .vehicle).length = (accounts .driver).length) :
    (sendFrom env w call (R * strideOf accounts call.transactionType)).worker.exited = w.exited := by
  by_cases hlt : R * strideOf accounts call.transactionType <
      totalOf accounts w.transactions call.transactionType
  · obtain ⟨w', call', heq, -, -, hx, -, -⟩ := h.next hlen hlt
    rw [heq]
    exact hx
  · rw [h.sendFrom_of_le (Nat.not_lt.mp hlt), waitAll_worker]

variable {tot : Nat} {type : TransactionType} {out : List Reply}

variable (env p accounts base type tot w out) in
/-- An answer that is not awaited does nothing; any other leads on in the call, with less to do. -/
def LeadsOn (n : Nat) (a : Answer) : Prop :=
  (senderProcess env p tot).step w (.resume n a) = (w, []) ∨
    ∃ w' more, (senderProcess env p tot).step w (.resume n a) = (w', more) ∧
      SendRun env p accounts base type w' (out ++ more) ∧ more.length ≤ 1 ∧ w'.exited = none ∧
      w'.transactions = w.transactions ∧
      (0 < strideOf accounts type → sendLeft accounts type w' < sendLeft accounts type w)

theorem leadsOn_slept (hx : w.exited = none)
    (hlen : call.transactionType = .signup →
      (accounts .vehicle).length = (accounts .driver).length)
    (hs : SendingAt env p accounts base w call (R + 1))
    (hh : w.handlers = [.send call (R * strideOf accounts call.transactionType)]) :
    let turn := sendFrom env w call ((R + 1) * strideOf accounts call.transactionType)
    SendRun env p accounts base call.transactionType (Turn.after turn) turn.sent ∧
      turn.sent.length ≤ 1 ∧ (Turn.after turn).exited = none ∧
      (Turn.after turn).transactions = w.transactions ∧
      (0 < strideOf accounts call.transactionType →
        sendLeft accounts call.transactionType (Turn.after turn) <
          sendLeft accounts call.transactionType w) := by
  intro turn
  have htx : (Turn.after turn).transactions = w.transactions := sendFrom_transactions ..
  refine ⟨sendRun_sendFrom hs hlen, length_sent_sendFrom .., (hs.exited_sendFrom hlen).trans hx,
    htx, fun hd => ?_⟩
  rw [sendLeft_of_handlers hh]
  cases hnext : turn.next with
  | none =>
    have : (Turn.after turn).handlers = [] := by simp [Turn.after, hnext]
    simp [sendLeft, this, sendSize]
  | some next =>
    have : (Turn.after turn).handlers = [next] := by simp [Turn.after, hnext]
    rw [sendLeft_of_handlers this, htx]
    exact sendSize_sendFrom hs hlen hd hnext

/-- A submission that settles leads on if it is awaited, and does nothing if it is not. -/
theorem leadsOn_settled (handler : SendCall → Handler AccountId) {n k : Nat}
    (hx : w.exited = none) (hs : SendingAt env p accounts base w call R)
    (hh : w.handlers = [handler call])
    (heq : (senderProcess env p tot).step w (.resume n (.settled k)) =
      ({ w with handlers := [handler (call.settled (env.accepts p) k)] }, []))
    (hrun : ∀ call', call'.transactionType = call.transactionType →
      SendingAt env p accounts base { w with handlers := [handler call'] } call' R →
      SendRun env p accounts base call.transactionType { w with handlers := [handler call'] } out)
    (hsize : ∀ d n call', outstanding call' < outstanding call →
      sendSize d n (handler call') < sendSize d n (handler call)) :
    LeadsOn env p accounts base w tot call.transactionType out n (.settled k) := by
  by_cases hk : Awaited call k
  · refine .inr ⟨_, _, heq, ?_, Nat.zero_le 1, hx, rfl, fun _ => ?_⟩
    · rw [List.append_nil]
      exact hrun _ (settled_transactionType ..) ((hs.settled k).with_handlers _)
    · rw [sendLeft_of_handlers hh, sendLeft_of_handlers rfl]
      exact hsize _ _ _ (hs.accounted.outstanding_settled hk)
  · left
    rw [heq, settled_of_not_awaited hk]
    exact Prod.ext (eq_of_handlers hh) rfl

theorem SendRun.answer (h : SendRun env p accounts base type w out) (hx : w.exited = none)
    (hlen : type = .signup → (accounts .vehicle).length = (accounts .driver).length) (n : Nat)
    (a : Answer) : LeadsOn env p accounts base w tot type out n a := by
  cases h with
  | sending call R hcall hs hh =>
    subst hcall
    rcases step_resume hx hh n a with heq | ⟨turn, ha, heq⟩
    · exact .inl heq
    cases a with
    | timer =>
      cases ha
      rw [hs.stride_eq, ← Nat.add_one_mul] at heq
      exact .inr ⟨_, _, heq, leadsOn_slept hx hlen hs hh⟩
    | settled k =>
      cases ha
      exact leadsOn_settled (fun call' => .send call' _) hx hs hh heq
        (fun call' htype hs' => .sending call' R htype hs' rfl)
        fun d n call' hless => by simpa only [sendSize, Nat.add_lt_add_iff_right,
          Nat.add_lt_add_iff_left] using hless
    | _ => cases ha
  | waiting call R hcall hs hle hh =>
    subst hcall
    rcases step_resume hx hh n a with heq | ⟨turn, ha, heq⟩
    · exact .inl heq
    cases a with
    | timer =>
      cases ha
      rcases waitAll_next hs with ⟨hnext, hlt⟩ | ⟨hnext, hfin⟩
      · left
        rw [heq]
        have : waitAll w call = ⟨w, [], some (.wait call)⟩ := by
          simp only [waitAll, hs.accounted.waitTotalOf, hlt, if_true]
        rw [this]
        exact Prod.ext (eq_of_handlers hh) rfl
      · refine .inr ⟨_, _, heq, sendRun_waitAll hs hle, length_sent_waitAll .., ?_, ?_, fun _ => ?_⟩
        · simpa only [Turn.after, waitAll_worker] using hx
        · simp only [Turn.after, waitAll_worker]
        · simp only [sendLeft, hh, Turn.after, hnext, Option.toList, List.map_cons, List.map_nil,
            List.sum_singleton, sendSize]
          omega
    | settled k =>
      cases ha
      exact leadsOn_settled .wait hx hs hh heq
        (fun call' htype hs' => .waiting call' R htype hs' hle rfl)
        fun d n call' hless => Nat.add_lt_add_right hless 2
    | _ => cases ha
  | reported call R hcall hs hle hfin hh =>
    rcases step_resume hx hh n a with heq | ⟨turn, ha, heq⟩
    · exact .inl heq
    cases a with
    | timer =>
      cases ha
      refine .inr ⟨_, _, heq, .done call R hcall (hs.with_handlers _) hle hfin rfl, Nat.le_refl 1,
        hx, rfl, fun _ => ?_⟩
      simp [sendLeft, hh, Turn.after, sendSize]
    | _ => cases ha
  | done call R hcall hs hle hfin hh => exact .inl (step_resume_nil hh n a)

/-- What a handler of `send` awaits: the end of a `sleep`, and each submission that has not
settled. -/
def AwaitsAnswer : Handler AccountId → Answer → Prop
  | .send call _, .settled k => Awaited call k
  | .wait call, .settled k => Awaited call k
  | .send _ _, .timer => True
  | .wait _, .timer => True
  | .finish, .timer => True
  | _, _ => False

variable (tot) in
/-- Until a call is done, it awaits an answer that leads on. -/
theorem SendRun.exists_answer (h : SendRun env p accounts base type w out) (hx : w.exited = none)
    (hlen : type = .signup → (accounts .vehicle).length = (accounts .driver).length)
    (hd : 0 < strideOf accounts type) (hne : w.handlers ≠ []) :
    ∃ handler a, w.handlers = [handler] ∧ AwaitsAnswer handler a ∧
      sendLeft accounts type ((senderProcess env p tot).step w (.resume 0 a)).1 <
        sendLeft accounts type w := by
  cases h with
  | sending call R hcall hs hh =>
    subst hcall
    refine ⟨_, .timer, hh, trivial, ?_⟩
    rw [next_answer hx hh rfl, hs.stride_eq, ← Nat.add_one_mul]
    exact (leadsOn_slept hx hlen hs hh).2.2.2.2 hd
  | waiting call R hcall hs hle hh =>
    subst hcall
    rcases waitAll_next hs with ⟨-, hlt⟩ | ⟨hnext, hfin⟩
    · obtain ⟨k, hk⟩ := hs.accounted.exists_awaited (by rw [Nat.mul_comm]; omega)
      refine ⟨_, .settled k, hh, hk, ?_⟩
      rw [next_answer hx hh rfl]
      have hless := hs.accounted.outstanding_settled hk
      simp only [sendLeft, hh, Turn.after, Option.toList, List.map_cons, List.map_nil,
        List.sum_singleton, sendSize]
      omega
    · refine ⟨_, .timer, hh, trivial, ?_⟩
      rw [next_answer hx hh rfl]
      simp only [sendLeft, hh, Turn.after, hnext, Option.toList, List.map_cons, List.map_nil,
        List.sum_singleton, sendSize]
      omega
  | reported call R hcall hs hle hfin hh =>
    refine ⟨_, .timer, hh, trivial, ?_⟩
    rw [next_answer hx hh rfl]
    simp [sendLeft, hh, Turn.after, sendSize]
  | done call R hcall hs hle hfin hh => exact absurd hh hne

end Worker

end SIM.Proof.Benchmark
