import Mathlib
import SimMultichain.Impl.Runtime
import SimMultichain.Proof.WriteOnce

/-!
# The registration chain

A vehicle that reports has been initialised by itself, after a factory created
it, after Root opened that factory or genesis named it. `Registered` says how the
maps of the two Renault pallets lean on each other in a state, and `Provenance`
what the successful calls of the run must be for the entries of a state to
exist, in their order.
-/

namespace SIM.Proof

open SIM.Impl

variable {AccountId BlockNumber : Type}

/-- The maps a registration goes through. -/
def registry (s : Storage AccountId BlockNumber) :
    StorageMap AccountId BlockNumber × StorageMap AccountId (AccountId × BlockNumber) ×
      StorageMap AccountId Bool × StorageMap Hash DataHash × StorageMap AccountId UInt32 :=
  (s.factories, s.vehicles, s.vehiclesStatus, s.accidents, s.accidentCount)

/-- No new block of the history has a number below the one before it. -/
def BlocksInOrder [LE BlockNumber] (h : List (ChainEntry AccountId BlockNumber)) : Prop :=
  ∀ e ∈ h, ∀ n, e.input = .newBlock n → e.before.blockNumber ≤ n

/-- The registry at genesis: empty, or one account that is a factory and its own vehicle. -/
theorem registry_genesis [DecidableEq AccountId] (g : Genesis AccountId BlockNumber) :
    registry g.storage =
      match g.initFactoryAndVehicle with
      | some a => (StorageMap.empty.insert a g.blockNumber,
          StorageMap.empty.insert a (a, g.blockNumber), StorageMap.empty.insert a true, .empty, .empty)
      | none => (.empty, .empty, .empty, .empty, .empty) := by
  simp only [Genesis.storage, SimInsurance.build, SimRenault.build]
  cases g.initDriver <;> cases g.initFactoryAndVehicle <;> rfl

/-! ## The maps of a state -/

/-- An initialised vehicle was created, by a factory opened before it; who has reported is
initialised; and no block number recorded is above the current one. -/
structure Registered [LE BlockNumber] (s : Storage AccountId BlockNumber) : Prop where
  opened {f : AccountId} {b : BlockNumber} : s.factories.get f = some b → b ≤ s.blockNumber
  created {v f : AccountId} {b : BlockNumber} : s.vehicles.get v = some (f, b) →
    ∃ b₀, s.factories.get f = some b₀ ∧ b₀ ≤ b ∧ b ≤ s.blockNumber
  initialised {v : AccountId} : s.vehiclesStatus.get v = some true →
    ∃ f b, s.vehicles.get v = some (f, b)
  reporting {v : AccountId} : s.accidentCount.containsKey v = true →
    s.vehiclesStatus.get v = some true

namespace Registered

variable [Preorder BlockNumber] {s s' : Storage AccountId BlockNumber}

/-- A step that leaves the registry alone keeps it, also in a later block. -/
theorem frame (hr : Registered s) (hs : registry s' = registry s)
    (hb : s.blockNumber ≤ s'.blockNumber) : Registered s' := by
  simp only [registry, Prod.mk.injEq] at hs
  obtain ⟨hf, hv, hi, -, hc⟩ := hs
  refine ⟨fun {f b} h => ?_, fun {v f b} h => ?_, fun {v} h => ?_, fun {v} h => ?_⟩
  · rw [hf] at h; exact (hr.opened h).trans hb
  · rw [hv] at h
    obtain ⟨b₀, h₀, hle, hle'⟩ := hr.created h
    exact ⟨b₀, by rw [hf, h₀], hle, hle'.trans hb⟩
  · rw [hi] at h; rw [hv]; exact hr.initialised h
  · rw [hc] at h; rw [hi]; exact hr.reporting h

variable [DecidableEq AccountId] {cfg : Config AccountId}

theorem effect {router : SendXcm AccountId} {o : Origin AccountId} {call : Call AccountId}
    {r : Except DispatchError Unit} {sent : List (Transact AccountId)} (hr : Registered s)
    (he : Effect cfg router s o call r s' sent) : Registered s' := by
  cases he with
  | @createFactory f free =>
    refine ⟨fun {f' b} h => ?_, fun {v f' b} h => ?_, hr.initialised, hr.reporting⟩
    · rcases StorageMap.get_insert_cases h with ⟨-, rfl⟩ | ⟨-, h⟩
      · exact le_rfl
      · exact hr.opened h
    · obtain ⟨b₀, h₀, hle⟩ := hr.created h
      exact ⟨b₀, StorageMap.le_insert _ free _ _ h₀, hle⟩
  | @createVehicle who v factory free =>
    refine ⟨hr.opened, fun {w f b} h => ?_, fun {w} h => ?_, hr.reporting⟩
    · rcases StorageMap.get_insert_cases h with ⟨-, hfb⟩ | ⟨-, h⟩
      · cases hfb
        obtain ⟨b₀, h₀⟩ := StorageMap.containsKey_eq_true.mp factory
        exact ⟨b₀, h₀, hr.opened h₀, le_rfl⟩
      · exact hr.created h
    · obtain ⟨f, b, hfb⟩ := hr.initialised h
      exact ⟨f, b, StorageMap.le_insert _ free _ _ hfb⟩
  | @initVehicle v vehicle =>
    refine ⟨hr.opened, hr.created, fun {w} h => ?_, fun {w} h => ?_⟩
    · rcases StorageMap.get_insert_cases h with ⟨rfl, -⟩ | ⟨-, h⟩
      · obtain ⟨⟨f, b⟩, hfb⟩ := StorageMap.containsKey_eq_true.mp vehicle
        exact ⟨f, b, hfb⟩
      · exact hr.initialised h
    · rw [← isVehicle_eq_true]
      exact isVehicle_insert ((isVehicle_eq_true s).mpr (hr.reporting h))
  | @reportAccident v d vehicle free =>
    refine ⟨hr.opened, hr.created, hr.initialised, fun {w} h => ?_⟩
    obtain ⟨n, hn⟩ := StorageMap.containsKey_eq_true.mp h
    rcases StorageMap.get_insert_cases hn with ⟨rfl, -⟩ | ⟨-, hn⟩
    · exact (isVehicle_eq_true s).mp vehicle
    · exact hr.reporting (StorageMap.containsKey_eq_true.mpr ⟨n, hn⟩)
  | requestData _ _ _ => exact hr.frame rfl le_rfl
  | setIpfsStatus _ => exact hr.frame rfl le_rfl
  | signUp => exact hr.frame rfl le_rfl
  | declare _ _ _ => exact hr.frame rfl le_rfl
  | undelivered _ _ _ => exact hr.frame rfl le_rfl
  | receiveData _ => exact hr.frame rfl le_rfl
  | failed => exact hr

theorem genesis (g : Genesis AccountId BlockNumber) : Registered g.storage := by
  have hb : g.storage.blockNumber = g.blockNumber := by
    simp only [Genesis.storage, SimInsurance.build, SimRenault.build]
    cases g.initDriver <;> cases g.initFactoryAndVehicle <;> rfl
  have hs := registry_genesis g
  cases hg : g.initFactoryAndVehicle with
  | none =>
    simp only [registry, hg, Prod.mk.injEq] at hs
    obtain ⟨hf, hv, hi, -, hc⟩ := hs
    refine ⟨?_, ?_, ?_, ?_⟩ <;> simp [hf, hv, hi, hc, StorageMap.containsKey]
  | some a =>
    simp only [registry, hg, Prod.mk.injEq] at hs
    obtain ⟨hf, hv, hi, -, hc⟩ := hs
    refine ⟨fun {f b} h => ?_, fun {v f b} h => ?_, fun {v} h => ?_, fun {v} h => ?_⟩
    · rw [hf] at h
      rcases StorageMap.get_insert_cases h with ⟨-, rfl⟩ | ⟨-, h⟩
      · exact hb.ge
      · cases h
    · rw [hv] at h
      rcases StorageMap.get_insert_cases h with ⟨rfl, hfb⟩ | ⟨-, h⟩
      · cases hfb
        exact ⟨g.blockNumber, by rw [hf, StorageMap.get_insert_self], le_rfl, hb.ge⟩
      · cases h
    · rw [hi] at h
      rcases StorageMap.get_insert_cases h with ⟨rfl, -⟩ | ⟨-, h⟩
      · exact ⟨v, g.blockNumber, by rw [hv, StorageMap.get_insert_self]⟩
      · cases h
    · rw [hc] at h; cases h

/-- Every run whose blocks are in order keeps the maps so. -/
theorem run (g : Genesis AccountId BlockNumber) {is : List (Input AccountId BlockNumber)}
    (hb : BlocksInOrder ((chain cfg).trace g.storage is)) :
    Registered ((chain cfg).run g.storage is) := by
  refine chain_invariant cfg (fun _ => Registered)
    (fun e => ∀ n, e.input = .newBlock n → e.before.blockNumber ≤ n) (.genesis g) ?_ hb
  intro h s e s' hs ho hr
  cases hs with
  | newBlock n => exact hr.frame rfl (ho n rfl)
  | call effect => exact hr.effect effect

end Registered

/-! ## The calls behind the entries -/

/-- A successful call that opens the factory `f`. -/
abbrev opening (f : AccountId) : Origin AccountId × Call AccountId :=
  (.root, .renault (.createFactory f))

/-- A successful call of the factory `f` that creates `v`. -/
abbrev creation (f v : AccountId) : Origin AccountId × Call AccountId :=
  (.signed f, .renault (.createVehicle v))

/-- A successful call of `v` that initialises itself. -/
abbrev initialisation (v : AccountId) : Origin AccountId × Call AccountId :=
  (.signed v, .renault (.initVehicle v))

/-- A successful call of `v` that reports `d`. -/
abbrev reporting (v : AccountId) (d : DataHash) : Origin AccountId × Call AccountId :=
  (.signed v, .renault (.reportAccident d))

/-- Among the calls `l` are the calls `cs`, in this order, with the opening of `f` before them
unless `f` is the genesis account. -/
def Behind (g : Genesis AccountId BlockNumber) (f : AccountId)
    (cs l : List (Origin AccountId × Call AccountId)) : Prop :=
  (g.initFactoryAndVehicle = some f ∧ cs.Sublist l) ∨ (opening f :: cs).Sublist l

namespace Behind

variable {g : Genesis AccountId BlockNumber} {f : AccountId}
  {cs l : List (Origin AccountId × Call AccountId)}

theorem append (h : Behind g f cs l) (l' : List (Origin AccountId × Call AccountId)) :
    Behind g f cs (l ++ l') := by
  rcases h with ⟨hg, h⟩ | h
  · exact .inl ⟨hg, h.trans (List.sublist_append_left l l')⟩
  · exact .inr (h.trans (List.sublist_append_left l l'))

theorem snoc (h : Behind g f cs l) (c : Origin AccountId × Call AccountId) :
    Behind g f (cs ++ [c]) (l ++ [c]) := by
  rcases h with ⟨hg, h⟩ | h
  · exact .inl ⟨hg, h.append (List.Sublist.refl [c])⟩
  · exact .inr (h.append (List.Sublist.refl [c]))

end Behind

/-- An element of a list that grew by one is the new one, or was there with the same elements
before it. -/
theorem split_snoc {α : Type*} {l pre post : List α} {x y : α} (h : l ++ [x] = pre ++ y :: post) :
    (y = x ∧ pre = l) ∨ ∃ post', l = pre ++ y :: post' := by
  rcases List.eq_nil_or_concat' post with rfl | ⟨post', z, rfl⟩
  · obtain ⟨hl, hx⟩ := List.append_inj' h rfl
    exact .inl ⟨(List.singleton_inj.mp hx).symm, hl.symm⟩
  · rw [← List.cons_append, ← List.append_assoc] at h
    exact .inr ⟨post', (List.append_inj' h rfl).1⟩

/-- The entries of `s` come from the successful calls `l`, made in the order of a registration:
opening, creation, initialisation, reports. -/
structure Provenance (cfg : Config AccountId) (g : Genesis AccountId BlockNumber)
    (l : List (Origin AccountId × Call AccountId)) (s : Storage AccountId BlockNumber) : Prop where
  factory {f : AccountId} {b : BlockNumber} : s.factories.get f = some b → Behind g f [] l
  vehicle {v f : AccountId} {b : BlockNumber} : g.initFactoryAndVehicle ≠ some v →
    s.vehicles.get v = some (f, b) → Behind g f [creation f v] l
  status {v : AccountId} : g.initFactoryAndVehicle ≠ some v → s.vehiclesStatus.get v = some true →
    ∃ f b, s.vehicles.get v = some (f, b) ∧ Behind g f [creation f v, initialisation v] l
  report {v : AccountId} {d : DataHash} {pre post : List (Origin AccountId × Call AccountId)} :
    g.initFactoryAndVehicle ≠ some v → l = pre ++ reporting v d :: post →
    ∃ f b, s.vehicles.get v = some (f, b) ∧ Behind g f [creation f v, initialisation v] pre
  counted {v : AccountId} : s.accidentCount.containsKey v = true → ∃ d, reporting v d ∈ l
  recorded {key : Hash} {d : DataHash} : s.accidents.get key = some d →
    ∃ v i, key = cfg.key v i ∧ reporting v d ∈ l

namespace Provenance

variable {cfg : Config AccountId} {g : Genesis AccountId BlockNumber}
  {l : List (Origin AccountId × Call AccountId)} {s s' : Storage AccountId BlockNumber}

/-- Calls that are no reports may follow. -/
theorem extend (hp : Provenance cfg g l s) {c : Option (Origin AccountId × Call AccountId)}
    (hc : ∀ v d, c ≠ some (reporting v d)) : Provenance cfg g (l ++ c.toList) s := by
  refine ⟨fun h => (hp.factory h).append _, fun hv h => (hp.vehicle hv h).append _,
    fun hv h => ?_, fun {v d pre post} hv h => ?_, fun h => ?_, fun h => ?_⟩
  · obtain ⟨f, b, hfb, hB⟩ := hp.status hv h
    exact ⟨f, b, hfb, hB.append _⟩
  · cases c with
    | none => exact hp.report hv (by simpa using h)
    | some c =>
      rcases split_snoc h with ⟨rfl, -⟩ | ⟨post', h⟩
      · exact absurd rfl (hc v d)
      · exact hp.report hv h
  · obtain ⟨d, hd⟩ := hp.counted h
    exact ⟨d, List.mem_append_left _ hd⟩
  · obtain ⟨v, i, hk, hd⟩ := hp.recorded h
    exact ⟨v, i, hk, List.mem_append_left _ hd⟩

/-- A step that leaves the registry alone and is no report keeps the provenance. -/
theorem frame (hp : Provenance cfg g l s) {c : Option (Origin AccountId × Call AccountId)}
    (hc : ∀ v d, c ≠ some (reporting v d)) (hs : registry s' = registry s) :
    Provenance cfg g (l ++ c.toList) s' := by
  have hp' := hp.extend hc
  simp only [registry, Prod.mk.injEq] at hs
  obtain ⟨hf, hv, hi, ha, hn⟩ := hs
  constructor
  · rw [hf]; exact hp'.factory
  · rw [hv]; exact hp'.vehicle
  · rw [hv, hi]; exact hp'.status
  · rw [hv]; exact hp'.report
  · rw [hn]; exact hp'.counted
  · rw [ha]; exact hp'.recorded

variable [DecidableEq AccountId]

theorem createFactory (hp : Provenance cfg g l s) {f : AccountId}
    (free : s.factories.containsKey f = false) :
    Provenance cfg g (l ++ [opening f])
      { s with factories := s.factories.insert f s.blockNumber } := by
  have hp' := hp.extend (c := some (opening f)) nofun
  refine ⟨fun {f' b} h => ?_, hp'.vehicle, hp'.status, hp'.report, hp'.counted, hp'.recorded⟩
  rcases StorageMap.get_insert_cases h with ⟨rfl, -⟩ | ⟨-, h⟩
  · exact .inr (List.sublist_append_right l [opening f'])
  · exact hp'.factory h

theorem createVehicle (hp : Provenance cfg g l s) {who v : AccountId}
    (factory : s.factories.containsKey who = true) (free : s.vehicles.containsKey v = false) :
    Provenance cfg g (l ++ [creation who v])
      { s with vehicles := s.vehicles.insert v (who, s.blockNumber) } := by
  have hp' := hp.extend (c := some (creation who v)) nofun
  refine ⟨hp'.factory, fun {w f b} hw h => ?_, fun {w} hw h => ?_, fun {w d pre post} hw h => ?_,
    hp'.counted, hp'.recorded⟩
  · rcases StorageMap.get_insert_cases h with ⟨rfl, hfb⟩ | ⟨-, h⟩
    · cases hfb
      obtain ⟨b₀, h₀⟩ := StorageMap.containsKey_eq_true.mp factory
      exact (hp.factory h₀).snoc _
    · exact hp'.vehicle hw h
  · obtain ⟨f, b, hfb, hB⟩ := hp'.status hw h
    exact ⟨f, b, StorageMap.le_insert _ free _ _ hfb, hB⟩
  · obtain ⟨f, b, hfb, hB⟩ := hp'.report hw h
    exact ⟨f, b, StorageMap.le_insert _ free _ _ hfb, hB⟩

theorem initVehicle (hp : Provenance cfg g l s) {v : AccountId}
    (vehicle : s.vehicles.containsKey v = true) :
    Provenance cfg g (l ++ [initialisation v])
      { s with vehiclesStatus := s.vehiclesStatus.insert v true } := by
  have hp' := hp.extend (c := some (initialisation v)) nofun
  refine ⟨hp'.factory, hp'.vehicle, fun {w} hw h => ?_, hp'.report, hp'.counted, hp'.recorded⟩
  rcases StorageMap.get_insert_cases h with ⟨rfl, -⟩ | ⟨-, h⟩
  · obtain ⟨⟨f, b⟩, hfb⟩ := StorageMap.containsKey_eq_true.mp vehicle
    exact ⟨f, b, hfb, (hp.vehicle hw hfb).snoc _⟩
  · exact hp'.status hw h

theorem reportAccident (hp : Provenance cfg g l s) {v : AccountId} {d : DataHash}
    (vehicle : SimRenault.isVehicle s v = true) :
    Provenance cfg g (l ++ [reporting v d]) (reported cfg s v d) := by
  have hnew : reporting v d ∈ l ++ [reporting v d] := by simp
  refine ⟨fun h => (hp.factory h).append _, fun hw h => (hp.vehicle hw h).append _,
    fun {w} hw h => ?_, fun {w d' pre post} hw h => ?_, fun {w} h => ?_, fun {key d'} h => ?_⟩
  · obtain ⟨f, b, hfb, hB⟩ := hp.status hw h
    exact ⟨f, b, hfb, hB.append _⟩
  · rcases split_snoc h with ⟨he, rfl⟩ | ⟨post', h⟩
    · cases he
      exact hp.status hw ((isVehicle_eq_true s).mp vehicle)
    · exact hp.report hw h
  · obtain ⟨n, hn⟩ := StorageMap.containsKey_eq_true.mp h
    rcases StorageMap.get_insert_cases hn with ⟨rfl, -⟩ | ⟨-, hn⟩
    · exact ⟨d, hnew⟩
    · obtain ⟨d', hd⟩ := hp.counted (StorageMap.containsKey_eq_true.mpr ⟨n, hn⟩)
      exact ⟨d', List.mem_append_left _ hd⟩
  · rcases StorageMap.get_insert_cases h with ⟨rfl, rfl⟩ | ⟨-, h⟩
    · exact ⟨v, accidents s v, rfl, hnew⟩
    · obtain ⟨w, i, hk, hd⟩ := hp.recorded h
      exact ⟨w, i, hk, List.mem_append_left _ hd⟩

theorem step {h : List (ChainEntry AccountId BlockNumber)} {e : ChainEntry AccountId BlockNumber}
    (hp : Provenance cfg g (successes h) s) (hs : ChainStep cfg s e s') :
    Provenance cfg g (successes (h ++ [e])) s' := by
  rw [successes_snoc]
  cases hs with
  | newBlock n => exact hp.frame nofun rfl
  | call effect =>
    cases effect with
    | createFactory free => exact hp.createFactory free
    | createVehicle factory free => exact hp.createVehicle factory free
    | initVehicle vehicle => exact hp.initVehicle vehicle
    | reportAccident vehicle _ => exact hp.reportAccident vehicle
    | requestData _ _ _ => exact hp.frame nofun rfl
    | setIpfsStatus _ => exact hp.frame nofun rfl
    | signUp => exact hp.frame nofun rfl
    | declare _ _ _ => exact hp.frame nofun rfl
    | undelivered _ _ _ => exact hp.frame nofun rfl
    | receiveData _ => exact hp.frame nofun rfl
    | failed => exact hp.frame nofun rfl

theorem genesis (cfg : Config AccountId) (g : Genesis AccountId BlockNumber) :
    Provenance cfg g [] g.storage := by
  have hs := registry_genesis g
  cases hg : g.initFactoryAndVehicle with
  | none =>
    simp only [registry, hg, Prod.mk.injEq] at hs
    obtain ⟨hf, hv, hi, ha, hc⟩ := hs
    constructor <;> simp [hf, hv, hi, ha, hc, StorageMap.containsKey]
  | some a =>
    simp only [registry, hg, Prod.mk.injEq] at hs
    obtain ⟨hf, hv, hi, ha, hc⟩ := hs
    refine ⟨fun {f b} h => ?_, fun {v f b} hn h => ?_, fun {v} hn h => ?_, by simp,
      by simp [hc, StorageMap.containsKey], by simp [ha]⟩
    · rw [hf] at h
      rcases StorageMap.get_insert_cases h with ⟨rfl, -⟩ | ⟨-, h⟩
      · exact .inl ⟨hg, .slnil⟩
      · cases h
    · rw [hv] at h
      rcases StorageMap.get_insert_cases h with ⟨rfl, -⟩ | ⟨-, h⟩
      · exact absurd hg hn
      · cases h
    · rw [hi] at h
      rcases StorageMap.get_insert_cases h with ⟨rfl, -⟩ | ⟨-, h⟩
      · exact absurd hg hn
      · cases h

theorem run (cfg : Config AccountId) (g : Genesis AccountId BlockNumber)
    (is : List (Input AccountId BlockNumber)) :
    Provenance cfg g (successes ((chain cfg).trace g.storage is)) ((chain cfg).run g.storage is) :=
  chain_invariant cfg (fun h => Provenance cfg g (successes h)) (fun _ => True) (.genesis cfg g)
    (fun _ _ _ _ hs _ hp => hp.step hs) fun _ _ => trivial

end Provenance

/-- After every run with blocks in order, initialised vehicles were created by factories opened no
later, and only initialised vehicles have reports. Every accident recorded was reported by a
vehicle, and each report of a vehicle that genesis does not name comes after the vehicle's
initialisation by itself, that after its creation by the factory recorded for it, and that after
Root's opening of the factory, unless the factory is the genesis account. -/
theorem registration_chain [Preorder BlockNumber] [DecidableEq AccountId] (cfg : Config AccountId)
    (g : Genesis AccountId BlockNumber) (is : List (Input AccountId BlockNumber)) :
    let h := (chain cfg).trace g.storage is
    let s := (chain cfg).run g.storage is
    BlocksInOrder h →
    (∀ v, s.vehiclesStatus.get v = some true → ∃ f b, s.vehicles.get v = some (f, b)) ∧
      (∀ v f b, s.vehicles.get v = some (f, b) →
        ∃ b₀, s.factories.get f = some b₀ ∧ b₀ ≤ b ∧ b ≤ s.blockNumber) ∧
      (∀ v, s.accidentCount.containsKey v = true → SimRenault.isVehicle s v = true) ∧
      (∀ key d, s.accidents.get key = some d → ∃ v i,
        key = SimRenaultAccident.createCompositeKey cfg [cfg.encode v, toLeBytes i] ∧
          reporting v d ∈ successes h) ∧
      (∀ v, s.accidentCount.containsKey v = true → ∃ d, reporting v d ∈ successes h) ∧
      ∀ v d pre post, g.initFactoryAndVehicle ≠ some v → successes h = pre ++ reporting v d :: post →
        ∃ f b, s.vehicles.get v = some (f, b) ∧ Behind g f [creation f v, initialisation v] pre := by
  intro h s hb
  have hr : Registered s := .run g hb
  have hp : Provenance cfg g (successes h) s := .run cfg g is
  exact ⟨fun _ => hr.initialised, fun _ _ _ => hr.created,
    fun v hv => (isVehicle_eq_true s).mpr (hr.reporting hv), fun _ _ => hp.recorded,
    fun _ => hp.counted, fun _ _ _ _ => hp.report⟩

/-- Root opens a factory, which creates a vehicle, which initialises itself and reports. -/
def firstReport : List (Input AccountId32 UInt32) :=
  [.newBlock 1, .call (fun _ => .ok ()) .root (.renault (.createFactory alice)),
    .newBlock 2, .call (fun _ => .ok ()) (.signed alice) (.renault (.createVehicle bob)),
    .call (fun _ => .ok ()) (.signed bob) (.renault (.initVehicle bob)),
    .call (fun _ => .ok ()) (.signed bob) (.renault (.reportAccident hash1))]

theorem registration_chain_firstReport :
    let g : Genesis AccountId32 UInt32 := ⟨0, none, none⟩
    let h := (chain (runtime false)).trace g.storage firstReport
    let s := (chain (runtime false)).run g.storage firstReport
    let pre := [opening alice, creation alice bob, initialisation bob]
    BlocksInOrder h ∧ successes h = pre ++ [reporting bob hash1] ∧
      ∃ f b, s.vehicles.get bob = some (f, b) ∧
        Behind g f [creation f bob, initialisation bob] pre := by
  intro g h s pre
  have hb : BlocksInOrder h := by
    intro e he n hn
    simp only [h, firstReport, Machine.trace_cons, Machine.trace_nil, List.mem_cons,
      List.not_mem_nil, or_false] at he
    rcases he with rfl | rfl | rfl | rfl | rfl | rfl <;> cases hn <;> decide +kernel
  have hl : successes h = pre ++ [reporting bob hash1] := by decide +kernel
  obtain ⟨-, -, -, -, -, hreport⟩ := registration_chain (runtime false) g firstReport hb
  exact ⟨hb, hl, hreport bob hash1 pre [] nofun hl⟩

end SIM.Proof
