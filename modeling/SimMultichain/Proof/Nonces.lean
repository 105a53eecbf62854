import SimMultichain.Proof.Accounts
import SimMultichain.Proof.PhaseBarrier

/-!
# The nonces of the prepared transactions

A worker reads the next nonces of its accounts, then signs with them in turn and counts each nonce
up. While it does, the nonce of every account that it signs with is the next one after those it has
used (`Counted`), so that the transactions of one account are numbered in order. The pieces of the
account file that the workers have share nothing, which carries this over to all workers together.
-/

namespace SIM.Proof.Benchmark

open SIM.Impl.Benchmark

variable {AccountId : Type}

/-! ## Reading -/

section Reading

variable (env : Env AccountId)

/-- The nonces are read, but for those of `pending`. -/
def ReadBut (pending : List (AccountKind × Nat)) (arrays : Arrays AccountId) : Prop :=
  ∀ kind j pair, (arrays.pairs kind)[j]? = some pair →
    (kind, j) ∈ pending ∨ pair.nonce = env.nextIndex pair.address

theorem readBut_nonceReads (arrays : Arrays AccountId) : ReadBut env (nonceReads arrays) arrays := by
  intro kind j pair h
  obtain ⟨hlt, -⟩ := List.getElem?_eq_some_iff.mp h
  left
  cases kind with
  | factory => simpa [nonceReads, Arrays.pairs] using hlt
  | vehicle => simpa [nonceReads, Arrays.pairs] using hlt
  | driver => simpa [nonceReads, Arrays.pairs] using hlt

variable {env} in
theorem ReadBut.read {kind : AccountKind} {i : Nat} {reads : List (AccountKind × Nat)}
    {arrays : Arrays AccountId} (h : ReadBut env ((kind, i) :: reads) arrays) :
    ReadBut env reads
      (arrays.modify kind i fun pair => { pair with nonce := env.nextIndex pair.address }) := by
  intro kind' j pair hpair
  by_cases hk : kind' = kind
  · subst hk
    rw [pairs_modify_self, List.getElem?_modify] at hpair
    obtain ⟨old, hold, rfl⟩ := Option.map_eq_some_iff.mp hpair
    by_cases hj : i = j
    · right
      simp [hj]
    · simp only [hj, if_false]
      refine (h kind' j old hold).imp_left fun hmem => ?_
      rcases List.mem_cons.mp hmem with heq | hmem
      · cases heq
        exact absurd rfl hj
      · exact hmem
  · rw [pairs_modify_of_ne arrays hk] at hpair
    refine (h kind' j pair hpair).imp_left fun hmem => ?_
    rcases List.mem_cons.mp hmem with heq | hmem
    · cases heq
      exact absurd rfl hk
    · exact hmem

end Reading

/-! ## Signing -/

/-- The accounts that reports of a type are signed with. -/
def signerKind : TransactionType → AccountKind
  | .reportAccidentInsurance => .driver
  | _ => .vehicle

/-- A report of a type. A declaration names the vehicle of the driver who signs it. -/
def IsReportOf (env : Env AccountId) (tx : Transaction AccountId) : TransactionType → Prop
  | .reportAccidentRenault => ∃ d, tx.call = .reportAccidentRenault d ∧
      env.toDataHash dataSha256sum = some d
  | .reportAccidentInsurance => ∃ v n, tx.call = .reportAccidentInsurance v n ∧
      ∃ j : Nat, env.files.drivers[j]? = some tx.signer ∧ env.files.vehicles[j]? = some v
  | _ => False

theorem IsReportOf.paired {env : Env AccountId} {tx : Transaction AccountId}
    {type : TransactionType} (h : IsReportOf env tx type) {v : AccountId} {n : UInt32}
    (hcall : tx.call = .reportAccidentInsurance v n) :
    ∃ j : Nat, env.files.drivers[j]? = some tx.signer ∧ env.files.vehicles[j]? = some v := by
  cases type with
  | reportAccidentRenault =>
    obtain ⟨d, hcall', -⟩ := h
    rw [hcall] at hcall'
    cases hcall'
  | reportAccidentInsurance =>
    obtain ⟨v', n', hcall', hpair⟩ := h
    rw [hcall] at hcall'
    cases hcall'
    exact hpair
  | _ => exact h.elim

section NewTransaction

variable {env : Env AccountId} {arrays : Arrays AccountId} {i : Nat} {type : TransactionType}
  {tx : Transaction AccountId}

/-- A transaction is signed by the account whose turn it is, with its nonce. -/
theorem signer_of_newTransaction (h : newTransaction env arrays i type = some tx) :
    ∃ pair, (arrays.pairs (signerKind type))[i % (arrays.pairs (signerKind type)).length]? =
      some pair ∧ tx.signer = pair.address ∧ tx.nonce = pair.nonce := by
  cases type with
  | reportAccidentRenault =>
    obtain ⟨car, hcar, htx⟩ := Option.bind_eq_some_iff.mp h
    obtain ⟨d, -, htx⟩ := Option.bind_eq_some_iff.mp htx
    cases htx
    exact ⟨car, hcar, rfl, rfl⟩
  | reportAccidentInsurance =>
    obtain ⟨driver, hdriver, htx⟩ := Option.bind_eq_some_iff.mp h
    obtain ⟨car, -, htx⟩ := Option.bind_eq_some_iff.mp htx
    cases htx
    exact ⟨driver, hdriver, rfl, rfl⟩
  | _ => cases h

theorem countNonce_of_newTransaction (h : newTransaction env arrays i type = some tx) :
    countNonce arrays i type =
      arrays.modify (signerKind type) (i % (arrays.pairs (signerKind type)).length) .next := by
  cases type with
  | reportAccidentRenault => rfl
  | reportAccidentInsurance => rfl
  | _ => cases h

theorem isReportOf_newTransaction {p tot : Nat}
    (hfiles : env.files.vehicles.length = env.files.drivers.length)
    (ha : ∀ kind, addresses arrays kind = piece env.files p tot kind)
    (h : newTransaction env arrays i type = some tx) : IsReportOf env tx type := by
  cases type with
  | reportAccidentRenault =>
    obtain ⟨car, -, htx⟩ := Option.bind_eq_some_iff.mp h
    obtain ⟨d, hd, htx⟩ := Option.bind_eq_some_iff.mp htx
    cases htx
    exact ⟨d, rfl, hd⟩
  | reportAccidentInsurance =>
    obtain ⟨driver, hdriver, htx⟩ := Option.bind_eq_some_iff.mp h
    obtain ⟨car, hcar, htx⟩ := Option.bind_eq_some_iff.mp htx
    cases htx
    -- both are at the same place of their pieces, and the pieces start at the same place
    have hd : (piece env.files p tot .driver)[i % arrays.drivers.length]? = some driver.address := by
      rw [← ha .driver]
      simpa [addresses, Arrays.pairs] using ⟨driver, hdriver, rfl⟩
    have hv : (piece env.files p tot .vehicle)[i % arrays.drivers.length]? = some car.address := by
      rw [← ha .vehicle]
      simpa [addresses, Arrays.pairs] using ⟨car, hcar, rfl⟩
    simp only [piece, accountsOf] at hd hv
    have hlt : i % arrays.drivers.length < accountCount env.files.drivers.length tot := by
      obtain ⟨hlt, -⟩ := List.getElem?_eq_some_iff.mp hd
      rw [length_slice] at hlt
      omega
    rw [getElem?_slice hlt] at hd
    rw [hfiles, getElem?_slice hlt] at hv
    exact ⟨_, _, rfl, _, hd, hv⟩
  | _ => cases h

end NewTransaction

section Counting

variable [DecidableEq AccountId] (env : Env AccountId) (type : TransactionType)

/-- The nonce of an account is the next one after those of the transactions that it has signed. -/
def Counted (transactions : List (Transaction AccountId)) (arrays : Arrays AccountId) : Prop :=
  ∀ pair ∈ arrays.pairs (signerKind type),
    pair.nonce = env.nextIndex pair.address + transactions.countP (·.signer = pair.address)

variable {env type} {transactions : List (Transaction AccountId)} {arrays : Arrays AccountId}
  {tx : Transaction AccountId} {i : Nat}

theorem Counted.nonce (h : Counted env type transactions arrays)
    (htx : newTransaction env arrays i type = some tx) :
    tx.nonce = env.nextIndex tx.signer + transactions.countP (·.signer = tx.signer) := by
  obtain ⟨pair, hpair, hsigner, hnonce⟩ := signer_of_newTransaction htx
  rw [hnonce, hsigner]
  exact h pair (List.mem_of_getElem? hpair)

theorem Counted.signed (h : Counted env type transactions arrays)
    (hnd : (addresses arrays (signerKind type)).Nodup)
    (htx : newTransaction env arrays i type = some tx) :
    Counted env type (transactions ++ [tx]) (countNonce arrays i type) := by
  obtain ⟨signer, hsigner, haddress, -⟩ := signer_of_newTransaction htx
  intro pair hpair
  rw [countNonce_of_newTransaction htx, pairs_modify_self] at hpair
  obtain ⟨j, hj⟩ := List.mem_iff_getElem?.mp hpair
  rw [List.getElem?_modify] at hj
  obtain ⟨old, hold, rfl⟩ := Option.map_eq_some_iff.mp hj
  have hcount := h old (List.mem_of_getElem? hold)
  rw [List.countP_append, List.countP_singleton]
  by_cases hi : i % (arrays.pairs (signerKind type)).length = j
  · subst hi
    rw [hsigner] at hold
    cases hold
    simp [Pair.next, haddress, hcount, Nat.add_assoc]
  · -- another account, as no address is there twice
    have hne : tx.signer ≠ old.address := by
      intro heq
      obtain ⟨hlt, -⟩ := List.getElem?_eq_some_iff.mp hsigner
      refine hi ((List.getElem?_inj (by simpa [addresses] using hlt) hnd).mp ?_)
      simp [addresses, hsigner, hold, ← heq, haddress]
    simpa [hi, hne] using hcount

end Counting

/-! ## The worker -/

section Worker

variable [DecidableEq AccountId] (env : Env AccountId) (type : TransactionType) (p tot : Nat)
  (read : Prop)

/-- What a handler that reads nonces or signs with them finds. The nonces are known if all reads
succeed (`read`). -/
def NoncesAt (w : Worker AccountId) : Handler AccountId → Prop
  | .readNonces kind i reads _ =>
    read → ∀ arrays, w.pairs = some arrays → ReadBut env ((kind, i) :: reads) arrays
  | .rest _ => read → ∀ arrays, w.pairs = some arrays → ReadBut env [] arrays
  | .sign _ i tx => ∃ arrays, w.pairs = some arrays ∧ newTransaction env arrays i type = some tx ∧
      (read → Counted env type w.transactions arrays)
  | _ => True

/-- The transactions that a worker has signed, and what it has for the next. -/
structure Signing (w : Worker AccountId) : Prop where
  loaded : Loaded env.files p tot w
  numbered : read → Numbered Transaction.signer Transaction.nonce env.nextIndex w.transactions
  turns : TakesTurns (piece env.files p tot (signerKind type))
    (w.transactions.map Transaction.signer)
  reports : ∀ tx ∈ w.transactions, IsReportOf env tx type
  nonces : ∀ h ∈ w.handlers, NoncesAt env type read w h

variable {env type p tot read} {w w' : Worker AccountId}

theorem Signing.start : Signing env type p tot read (.start : Worker AccountId) where
  loaded := loaded_start _ _ _
  numbered _ := .nil
  turns := .nil
  reports tx htx := by cases htx
  nonces h hh := by cases hh

theorem Signing.keep (h : Signing env type p tot read w) (hloaded : Loaded env.files p tot w')
    (htx : w'.transactions = w.transactions) (hn : ∀ h ∈ w'.handlers, NoncesAt env type read w' h) :
    Signing env type p tot read w' := by
  refine ⟨hloaded, ?_, ?_, ?_, hn⟩
  · rw [htx]; exact h.numbered
  · rw [htx]; exact h.turns
  · rw [htx]; exact h.reports

theorem noncesAt_readFrom (job : Job) {reads : List (AccountKind × Nat)}
    (h : read → ∀ arrays, w.pairs = some arrays → ReadBut env reads arrays) :
    ∀ hd ∈ (Turn.after (readFrom w job reads)).handlers,
      NoncesAt env type read (Turn.after (readFrom w job reads)) hd := by
  cases reads with
  | nil => simpa [Turn.after, readFrom, NoncesAt] using h
  | cons r reads => simpa [Turn.after, readFrom, NoncesAt] using h

theorem noncesAt_prepareFrom {limit : Int}
    (h : read → ∀ arrays, w.pairs = some arrays → Counted env type w.transactions arrays) (i : Nat) :
    ∀ hd ∈ (Turn.after (prepareFrom env w ⟨type, limit⟩ i)).handlers,
      NoncesAt env type read (Turn.after (prepareFrom env w ⟨type, limit⟩ i)) hd := by
  cases hr : isReport type with
  | true =>
    rw [prepareFrom_report hr]
    split
    · split
      · rename_i tx htx
        obtain ⟨arrays, ha, htx⟩ := Option.bind_eq_some_iff.mp htx
        have hpairs := (arrays_eq_some.mp ha).2
        simpa [Turn.after, NoncesAt] using ⟨arrays, hpairs, htx, fun hread => h hread arrays hpairs⟩
      · simp [Turn.after]
    · simp [Turn.after]
  | false =>
    rw [prepareFrom_other hr]
    simp [Turn.after]

theorem noncesAt_waitAll (w : Worker AccountId) (call : SendCall) :
    ∀ hd ∈ (Turn.after (waitAll w call)).handlers,
      NoncesAt env type read (Turn.after (waitAll w call)) hd := by
  unfold waitAll
  split <;> simp [Turn.after, NoncesAt]

theorem noncesAt_sendFrom (w : Worker AccountId) (call : SendCall) (i : Nat) :
    ∀ hd ∈ (Turn.after (sendFrom env w call i)).handlers,
      NoncesAt env type read (Turn.after (sendFrom env w call i)) hd := by
  unfold sendFrom
  split
  · split <;> simp [Turn.after, NoncesAt]
  · exact noncesAt_waitAll w call

/-- A worker that has signed a transaction goes on. -/
theorem Signing.signed (h : Signing env type p tot read w)
    (hnd : (accountsOf env.files (signerKind type)).Nodup)
    (hfiles : env.files.vehicles.length = env.files.drivers.length) {limit : Int}
    {tx : Transaction AccountId}
    (hn : NoncesAt env type read w (.sign ⟨type, limit⟩ w.transactions.length tx))
    (hw : w' = { w with
      transactions := w.transactions ++ [tx]
      pairs := w.pairs.map (countNonce · w.transactions.length type) })
    (hloaded : Loaded env.files p tot
      (Turn.after (prepareFrom env w' ⟨type, limit⟩ w'.transactions.length))) :
    Signing env type p tot read
      (Turn.after (prepareFrom env w' ⟨type, limit⟩ w'.transactions.length)) := by
  obtain ⟨arrays, hpairs, htx, hcounted⟩ := hn
  have haddresses := h.loaded arrays hpairs
  have htxs : (Turn.after (prepareFrom env w' ⟨type, limit⟩ w'.transactions.length)).transactions =
      w.transactions ++ [tx] := by
    simp only [Turn.after, prepareFrom_transactions, hw]
  refine ⟨hloaded, ?_, ?_, ?_, ?_⟩
  · rw [htxs]
    exact fun hread => (h.numbered hread).snoc ((hcounted hread).nonce htx)
  · rw [htxs, List.map_append]
    refine h.turns.snoc ?_
    obtain ⟨pair, hpair, hsigner, -⟩ := signer_of_newTransaction htx
    rw [← haddresses, List.length_map, length_addresses, addresses, List.getElem?_map, hpair, hsigner]
    rfl
  · rw [htxs]
    intro t ht
    rcases List.mem_append.mp ht with ht | ht
    · exact h.reports t ht
    · cases List.mem_singleton.mp ht
      exact isReportOf_newTransaction hfiles haddresses htx
  · refine noncesAt_prepareFrom (fun hread arrays' harrays' => ?_) _
    rw [hw] at harrays' ⊢
    simp only [hpairs, Option.map_some, Option.some.injEq] at harrays'
    subst harrays'
    exact (hcounted hread).signed (by rw [haddresses]; exact nodup_slice hnd) htx

variable {script : Script} {received received' : List Command} {sent out : List Reply}

variable (read) in
/-- All reads succeed, if `read`. -/
def Reads (event : Event) : Prop := read → ∀ n, event ≠ .resume n (.nextIndex false)

/-- Every step of a worker keeps its transactions in order. -/
theorem Step.signing (hnd : (accountsOf env.files (signerKind script.prepareType)).Nodup)
    (hfiles : env.files.vehicles.length = env.files.drivers.length)
    (hs : Step script env p tot (Reads read) w received sent w' received' out)
    (h : Signing env script.prepareType p tot read w) :
    Signing env script.prepareType p tot read w' := by
  have hloaded := hs.loads h.loaded
  cases hs with
  | idle => exact h
  | crash => exact h.keep hloaded rfl h.nonces
  | init => exact h.keep hloaded rfl (by simp [NoncesAt])
  | notLoaded => exact h.keep hloaded rfl (by simp [Worker.start])
  | loaded => exact h.keep hloaded rfl (by simp [Worker.start])
  | unequal => exact h.keep hloaded rfl (by simp [Worker.start])
  | @prepare arrays =>
    refine h.keep hloaded (by simp [Turn.after]) (noncesAt_readFrom _ fun _ arrays' ha' => ?_)
    cases ha'
    exact readBut_nonceReads env arrays
  | @nextIndex _ kind i reads n success hp hok =>
    have hn := h.nonces _ (by rw [hp.handlers]; exact List.mem_singleton_self _)
    refine h.keep hloaded ?_ ?_
    · obtain ⟨pairs, hw, -⟩ := onNextIndex_worker env w kind i reads (jobOf script) success
      simp only [Turn.after, hw]
    · unfold onNextIndex
      split
      · refine noncesAt_readFrom _ fun hread arrays' ha' => ?_
        obtain ⟨arrays, ha, rfl⟩ := Option.map_eq_some_iff.mp ha'
        exact (hn hread arrays ha).read
      · rename_i hfailed
        obtain rfl : success = false := by simpa using hfailed
        exact noncesAt_readFrom _ fun hread => absurd rfl (hok hread n)
  | rested hp =>
    refine h.keep hloaded (by simp only [Turn.after, prepareFrom_transactions])
      (noncesAt_prepareFrom (fun hread arrays ha pair hpair => ?_) 0)
    have hn := h.nonces _ (by rw [hp.handlers]; exact List.mem_singleton_self _)
    obtain ⟨⟨_, _, _, hh⟩, -⟩ | ⟨-, htx⟩ | ⟨tx, hh, -⟩ := hp.progress
    · cases hh
    · obtain ⟨j, hj⟩ := List.mem_iff_getElem?.mp hpair
      simpa [htx] using hn hread arrays ha _ j pair hj
    · cases hh
  | notSigned => exact h.keep hloaded rfl (by simp)
  | signed hp hw =>
    have hn := h.nonces _ (by rw [hp.handlers]; exact List.mem_singleton_self _)
    exact h.signed hnd hfiles hn hw hloaded
  | send =>
    refine h.keep hloaded (by simp only [Turn.after, onMessage_transactions]) ?_
    simp only [Script.send, onMessage]
    split
    · simp [Turn.after]
    · exact noncesAt_sendFrom _ _ _
  | slept =>
    exact h.keep hloaded (by simp only [Turn.after, sendFrom_transactions]) (noncesAt_sendFrom _ _ _)
  | settled => exact h.keep hloaded rfl (by simp [NoncesAt])
  | settledLate => exact h.keep hloaded rfl (by simp [NoncesAt])
  | waited =>
    exact h.keep hloaded (by simp only [Turn.after, waitAll_worker]) (noncesAt_waitAll _ _)
  | finished => exact h.keep hloaded rfl (by simp)
  | exit => exact h.keep hloaded rfl (by simp)

end Worker

/-! ## All workers -/

/-- The accounts that a worker of `report_accident.js` signs with. -/
def signers (files : Files AccountId) (type : TransactionType) (p tot : Nat) : List AccountId :=
  addresses (makeAll files (some (p, tot))) (signerKind type)

/-- The prepared transactions of all workers. -/
def prepared {script : Script} (s : Network script AccountId) : List (Transaction AccountId) :=
  (List.finRange script.nbProcesses).flatMap fun i => (s.worker i).transactions

/-- What the workers of `report_accident.js` sign, whatever happens. -/
theorem signing_run [DecidableEq AccountId] {env : Env AccountId} {limit : Int} {nbProcesses : Nat}
    {type : TransactionType} {read : Prop}
    (hnd : (accountsOf env.files (signerKind type)).Nodup)
    (hfiles : env.files.vehicles.length = env.files.drivers.length)
    (os : List (Occurrence (reportAccident limit nbProcesses type)))
    (hread : read → ∀ i n, .resume i n (.nextIndex false) ∉ os) (i : Fin nbProcesses) :
    Signing env type i nbProcesses read
      (((network env).run (.start (reportAccident limit nbProcesses type)) os).worker i) := by
  have hkeeps : Keeps env (Reads read)
      fun (i : Fin (reportAccident limit nbProcesses type).nbProcesses) w _ _ =>
        Signing env type i nbProcesses read w :=
    fun i w received sent w' received' out _ hstep h => hstep.signing hnd hfiles h
  refine hkeeps.run .start (fun _ => .start) (fun o ho => ?_) i
  cases o with
  | resume i n a =>
    intro hr n' heq
    cases heq
    exact hread hr i n ho
  | crash i =>
    intro _ n heq
    cases heq
  | _ => trivial

/-- No two prepared transactions of a `report_accident.js` run collide, and every account's nonces
follow on from its next one on the chain. -/
theorem prepared_do_not_collide [DecidableEq AccountId] (env : Env AccountId) (limit : Int)
    (nbProcesses : Nat) (transactionType : TransactionType)
    (hvehicles : env.files.vehicles.Nodup) (hdrivers : env.files.drivers.Nodup)
    (hfiles : env.files.vehicles.length = env.files.drivers.length)
    (os : List (Occurrence (reportAccident limit nbProcesses transactionType)))
    (hread : ∀ i n, .resume i n (.nextIndex false) ∉ os) :
    let s := (network env).run (.start (reportAccident limit nbProcesses transactionType)) os
    ((prepared s).map fun tx => (tx.signer, tx.nonce)).Nodup ∧
    (∀ a, ((prepared s).filter (·.signer = a)).map (·.nonce) =
      List.range' (env.nextIndex a) ((prepared s).countP (·.signer = a))) ∧
    (∀ i : Fin nbProcesses,
      (∀ tx ∈ (s.worker i).transactions,
        tx.signer ∈ signers env.files transactionType i nbProcesses) ∧
      ∀ a ∈ signers env.files transactionType i nbProcesses,
        ∀ b ∈ signers env.files transactionType i nbProcesses,
          (s.worker i).transactions.countP (·.signer = a) ≤
            (s.worker i).transactions.countP (·.signer = b) + 1) ∧
    ∀ tx ∈ prepared s, ∀ v n, tx.call = .reportAccidentInsurance v n →
      ∃ j : Nat, env.files.drivers[j]? = some tx.signer ∧ env.files.vehicles[j]? = some v := by
  intro s
  have hnd : (accountsOf env.files (signerKind transactionType)).Nodup := by
    cases transactionType with
    | reportAccidentInsurance => exact hdrivers
    | _ => exact hvehicles
  have hsigning := signing_run hnd hfiles os fun _ : True => hread
  have hnumbered : Numbered Transaction.signer Transaction.nonce env.nextIndex (prepared s) := by
    refine .flatMap (fun i _ => (hsigning i).numbered trivial) ?_
    refine (List.nodup_finRange nbProcesses).imp fun {i j} hij t ht t' ht' => ?_
    exact ne_of_mem_slice hnd (fun heq => hij (Fin.ext heq))
      ((hsigning i).turns.mem (List.mem_map_of_mem ht))
      ((hsigning j).turns.mem (List.mem_map_of_mem ht'))
  refine ⟨hnumbered.nodup, hnumbered, fun i => ⟨fun tx htx => ?_, fun a ha b hb => ?_⟩, ?_⟩
  · rw [signers, addresses_makeAll]
    exact (hsigning i).turns.mem (List.mem_map_of_mem htx)
  · rw [signers, addresses_makeAll] at ha hb
    have := (hsigning i).turns.count_le (nodup_slice hnd) ha hb
    simpa only [List.count_eq_countP, List.countP_map, Function.comp_def, beq_eq_decide] using this
  · intro tx htx v n hcall
    obtain ⟨i, -, htx⟩ := List.mem_flatMap.mp htx
    exact ((hsigning i).reports tx htx).paired hcall

/-- Four vehicles and four drivers. -/
def fourAccounts : Env Nat where
  files := ⟨[1, 2], [10, 11, 12, 13], [20, 21, 22, 23]⟩
  address a := [a.toUInt8]
  toDataHash _ := none
  nextIndex a := 5 * (a % 10)
  accepts _ _ := true

/-- The same for every worker. -/
def everyone {script : Script} (f : Fin script.nbProcesses → List (Occurrence script)) :
    List (Occurrence script) := (List.finRange script.nbProcesses).flatMap f

/-- Two workers prepare three declarations each, one worker after the other. -/
def sixDeclarations : List (Occurrence (reportAccident 6 2 .reportAccidentInsurance)) :=
  List.flatten [
    everyone fun i => [.reply i],
    everyone fun i => [.command i, .resume i 0 (.apiReady true), .reply i],
    everyone fun i => .command i :: List.replicate 5 (.resume i 0 (.nextIndex true)),
    everyone fun i => .resume i 0 .timer :: List.replicate 3 (.resume i 0 (.signed true))]

theorem reads_sixDeclarations (i : Fin 2) (n : Nat) :
    .resume i n (.nextIndex false) ∉ sixDeclarations := by
  intro h
  obtain ⟨a, h⟩ | ⟨a, h⟩ | ⟨a, h | h⟩ := by simpa [sixDeclarations, everyone] using h
  all_goals cases h

theorem prepared_do_not_collide_sixDeclarations :
    let s := (network fourAccounts).run (.start _) sixDeclarations
    (prepared s).map (fun tx => (tx.signer, tx.nonce)) =
        [(20, 0), (21, 5), (20, 1), (22, 10), (23, 15), (22, 11)] ∧
      ((prepared s).map fun tx => (tx.signer, tx.nonce)).Nodup := by
  intro s
  have hvalue : (prepared s).map (fun tx => (tx.signer, tx.nonce)) =
      [(20, 0), (21, 5), (20, 1), (22, 10), (23, 15), (22, 11)] := by decide +kernel
  have hnd := prepared_do_not_collide fourAccounts 6 2 .reportAccidentInsurance (by decide)
    (by decide) rfl sixDeclarations reads_sixDeclarations
  exact ⟨hvalue, hnd.1⟩

end SIM.Proof.Benchmark
