import SimMultichain.Proof.Effect

/-!
# Histories of a chain

How a chain's history grows with a step (`reports_snoc`, `declarations_snoc`,
`usedIn_snoc`), and the one way a chain steps: a new block changes the block
number, and a call has an `Effect` (`chain_step`).
-/

namespace SIM.Proof

open SIM.Impl

variable {AccountId BlockNumber : Type}

/-! ## Keys in use and successful calls -/

theorem usedIn_append (h h' : List (ChainEntry AccountId BlockNumber)) :
    usedIn (h ++ h') = usedIn h ++ usedIn h' := List.flatMap_append

theorem usedIn_snoc (h : List (ChainEntry AccountId BlockNumber))
    (e : ChainEntry AccountId BlockNumber) :
    usedIn (h ++ [e]) = usedIn h ++ keysUsed e.before e.input := by
  simp [usedIn]

/-- A step only adds keys. -/
theorem usedIn_subset (h : List (ChainEntry AccountId BlockNumber))
    (e : ChainEntry AccountId BlockNumber) :
    {p | p ∈ usedIn h} ⊆ {p | p ∈ usedIn (h ++ [e])} := by
  intro p hp
  rw [usedIn_snoc]
  exact List.mem_append_left _ hp

theorem successes_snoc (h : List (ChainEntry AccountId BlockNumber))
    (e : ChainEntry AccountId BlockNumber) :
    successes (h ++ [e]) = successes h ++ e.successful.toList := by
  rw [successes, List.filterMap_append]
  cases he : e.successful <;> simp [successes, he]

/-- A call that returned `Ok`. -/
def Succeeded (e : ChainEntry AccountId BlockNumber) : Prop :=
  ∃ r, e.output = some r ∧ r.result = .ok ()

variable [DecidableEq AccountId]

/-! ## Accepted calls -/

@[simp] theorem accepted_error (who : AccountId) (s : Storage AccountId BlockNumber)
    (i : Input AccountId BlockNumber) (e : DispatchError) (ev : List (Event AccountId BlockNumber))
    (sent : List (Transact AccountId)) :
    ChainEntry.accepted who ⟨s, i, some ⟨.error e, ev, sent⟩⟩ = none := by
  rcases i with n | ⟨router, o, c⟩
  · rfl
  · cases o <;> rfl

@[simp] theorem accepted_signed (who a : AccountId) (s : Storage AccountId BlockNumber)
    (router : SendXcm AccountId) (call : Call AccountId) (ev : List (Event AccountId BlockNumber))
    (sent : List (Transact AccountId)) :
    ChainEntry.accepted who ⟨s, .call router (.signed a) call, some ⟨.ok (), ev, sent⟩⟩ =
      if a = who then some call else none := rfl

/-- An accepted call is the call that was made. -/
theorem accepted_eq_some {who : AccountId} {s : Storage AccountId BlockNumber}
    {router : SendXcm AccountId} {o : Origin AccountId} {call call' : Call AccountId}
    {r : Option (Receipt AccountId BlockNumber)}
    (h : ChainEntry.accepted who ⟨s, .call router o call, r⟩ = some call') :
    o = .signed who ∧ call' = call ∧ ∃ ev sent, r = some ⟨.ok (), ev, sent⟩ := by
  cases o with
  | signed a =>
    rcases r with _ | ⟨e | ⟨⟩, ev, sent⟩
    · cases h
    · cases h
    · rw [accepted_signed] at h
      split at h <;> cases h
      rename_i ha; subst ha
      exact ⟨rfl, rfl, ev, sent, rfl⟩
  | _ => cases h

theorem reportOf_eq_some {v : AccountId} {e : ChainEntry AccountId BlockNumber} {d : DataHash} :
    reportOf v e = some d ↔ e.accepted v = some (.renault (.reportAccident d)) := by
  unfold reportOf
  split <;> simp_all

theorem declarationOf_eq_some {d : AccountId} {e : ChainEntry AccountId BlockNumber}
    {x : AccountId × UInt32} :
    declarationOf d e = some x ↔ e.accepted d = some (.insurer (.reportAccident x.1 x.2)) := by
  unfold declarationOf
  split <;> simp_all [Prod.ext_iff]

/-- Another call is no report. -/
theorem reportOf_of_ne {v : AccountId} {s : Storage AccountId BlockNumber}
    {router : SendXcm AccountId} {o : Origin AccountId} {call : Call AccountId}
    {r : Option (Receipt AccountId BlockNumber)} (hc : ∀ d, call ≠ .renault (.reportAccident d)) :
    reportOf v ⟨s, .call router o call, r⟩ = none := by
  rw [Option.eq_none_iff_forall_ne_some]
  intro d hd
  exact hc d (accepted_eq_some (reportOf_eq_some.mp hd)).2.1.symm

/-- Another call is no declaration. -/
theorem declarationOf_of_ne {d : AccountId} {s : Storage AccountId BlockNumber}
    {router : SendXcm AccountId} {o : Origin AccountId} {call : Call AccountId}
    {r : Option (Receipt AccountId BlockNumber)}
    (hc : ∀ v k, call ≠ .insurer (.reportAccident v k)) :
    declarationOf d ⟨s, .call router o call, r⟩ = none := by
  rw [Option.eq_none_iff_forall_ne_some]
  intro x hx
  exact hc x.1 x.2 (accepted_eq_some (declarationOf_eq_some.mp hx)).2.1.symm

/-- A call that failed is no report. -/
@[simp] theorem reportOf_error {v : AccountId} {s : Storage AccountId BlockNumber}
    {i : Input AccountId BlockNumber} {e : DispatchError} {ev : List (Event AccountId BlockNumber)}
    {sent : List (Transact AccountId)} :
    reportOf v ⟨s, i, some ⟨.error e, ev, sent⟩⟩ = none := by simp [reportOf]

/-- An accepted report is one of the account that signed it. -/
theorem reportOf_report (v w : AccountId) (s : Storage AccountId BlockNumber)
    (router : SendXcm AccountId) (d : DataHash) (ev : List (Event AccountId BlockNumber))
    (sent : List (Transact AccountId)) :
    reportOf w ⟨s, .call router (.signed v) (.renault (.reportAccident d)), some ⟨.ok (), ev, sent⟩⟩ =
      if v = w then some d else none := by
  by_cases h : v = w <;> simp [reportOf, h]

/-- A call that failed is no declaration. -/
@[simp] theorem declarationOf_error {d : AccountId} {s : Storage AccountId BlockNumber}
    {i : Input AccountId BlockNumber} {e : DispatchError} {ev : List (Event AccountId BlockNumber)}
    {sent : List (Transact AccountId)} :
    declarationOf d ⟨s, i, some ⟨.error e, ev, sent⟩⟩ = none := by simp [declarationOf]

theorem reports_append (v : AccountId) (h h' : List (ChainEntry AccountId BlockNumber)) :
    reports v (h ++ h') = reports v h ++ reports v h' := List.filterMap_append

theorem reports_snoc (v : AccountId) (h : List (ChainEntry AccountId BlockNumber))
    (e : ChainEntry AccountId BlockNumber) :
    reports v (h ++ [e]) = reports v h ++ (reportOf v e).toList := by
  rw [reports_append]
  cases he : reportOf v e <;> simp [reports, he]

theorem declarations_snoc (d : AccountId) (h : List (ChainEntry AccountId BlockNumber))
    (e : ChainEntry AccountId BlockNumber) :
    declarations d (h ++ [e]) = declarations d h ++ (declarationOf d e).toList := by
  rw [declarations, List.filterMap_append]
  cases he : declarationOf d e <;> simp [declarations, he]

/-! ## Genesis -/

/-- A storage without reports, declarations and received data. -/
structure Unwritten (s : Storage AccountId BlockNumber) : Prop where
  accidents : s.accidents = .empty
  accidentCount : s.accidentCount = .empty
  declaredAccidents : s.declaredAccidents = .empty
  declaredAccidentsCount : s.declaredAccidentsCount = .empty
  accidentsData : s.accidentsData = .empty

/-- The genesis accounts are registered, and nothing else is stored. -/
theorem genesis_unwritten (g : Genesis AccountId BlockNumber) : Unwritten g.storage := by
  simp only [Genesis.storage, SimInsurance.build, SimRenault.build]
  cases g.initDriver <;> cases g.initFactoryAndVehicle <;> exact ⟨rfl, rfl, rfl, rfl, rfl⟩

/-! ## Steps -/

section Step

variable (cfg : Config AccountId)

@[simp] theorem chain_next_call (s : Storage AccountId BlockNumber) (router : SendXcm AccountId)
    (o : Origin AccountId) (call : Call AccountId) :
    (chain cfg).next s (.call router o call) = (dispatch cfg router o call s).1 := rfl

theorem chain_entry_newBlock (s : Storage AccountId BlockNumber) (n : BlockNumber) :
    (chain cfg).entry s (.newBlock n) = ⟨s, .newBlock n, none⟩ := rfl

theorem chain_entry_call (s : Storage AccountId BlockNumber) (router : SendXcm AccountId)
    (o : Origin AccountId) (call : Call AccountId) :
    (chain cfg).entry s (.call router o call) =
      ⟨s, .call router o call, some (dispatch cfg router o call s).2⟩ := rfl

/-- What a step of a chain can be: its history entry and the storage after it. -/
inductive ChainStep (s : Storage AccountId BlockNumber) :
    ChainEntry AccountId BlockNumber → Storage AccountId BlockNumber → Prop where
  | newBlock (n : BlockNumber) : ChainStep s ⟨s, .newBlock n, none⟩ { s with blockNumber := n }
  | call {router : SendXcm AccountId} {o : Origin AccountId} {call : Call AccountId}
      {result : Except DispatchError Unit} {events : List (Event AccountId BlockNumber)}
      {sent : List (Transact AccountId)} {s' : Storage AccountId BlockNumber}
      (effect : Effect cfg router s o call result s' sent) :
    ChainStep s ⟨s, .call router o call, some ⟨result, events, sent⟩⟩ s'

theorem chain_step (s : Storage AccountId BlockNumber) (i : Input AccountId BlockNumber) :
    ChainStep cfg s ((chain cfg).entry s i) ((chain cfg).next s i) := by
  cases i with
  | newBlock n => exact .newBlock n
  | call router o call => exact .call (dispatch_effect cfg router s o call)

/-- What the first storage satisfies with no history, and every allowed step of a chain keeps,
holds after every run of the chain whose steps are allowed. -/
theorem chain_invariant
    (P : List (ChainEntry AccountId BlockNumber) → Storage AccountId BlockNumber → Prop)
    (ok : ChainEntry AccountId BlockNumber → Prop) {s : Storage AccountId BlockNumber}
    (hinit : P [] s)
    (hstep : ∀ h t e t', ChainStep cfg t e t' → ok e → P h t → P (h ++ [e]) t')
    {is : List (Input AccountId BlockNumber)} (hok : ∀ e ∈ (chain cfg).trace s is, ok e) :
    P ((chain cfg).trace s is) ((chain cfg).run s is) :=
  (chain cfg).invariant P ok hinit (fun h t i => hstep h t _ _ (chain_step cfg t i)) hok

end Step

end SIM.Proof
