import SimMultichain.Proof.Declarations

/-!
# Drivers that disturb each other

Drivers and vehicles are accounts of one type and share the counter map, so a
driver that names another driver's account as the vehicle moves that driver's
counter. `SameDeclaration` compares one declaration made from two storages, and
`undisturbed_iff` says when a driver's declaration is the same before and after
another driver's: always, unless the other one is filed, names this driver, and
leaves it with another count.
-/

namespace SIM.Proof

open SIM.Impl

variable {AccountId BlockNumber : Type} [DecidableEq AccountId] (cfg : Config AccountId)

/-- The declaration of the accident `k` of `v` by `driver` has the same result from `s` and from
`s'`; if it is accepted, it stores the same value at the same key and leaves `driver` with the same
count. -/
def SameDeclaration (router : SendXcm AccountId) (s s' : Storage AccountId BlockNumber)
    (driver v : AccountId) (k : UInt32) : Prop :=
  let r := dispatch cfg router (.signed driver) (.insurer (.reportAccident v k)) s
  let r' := dispatch cfg router (.signed driver) (.insurer (.reportAccident v k)) s'
  r'.2.result = r.2.result ∧
    (r.2.result = .ok () →
      (∃ key x, r.1.declaredAccidents = s.declaredAccidents.insert key x ∧
        r'.1.declaredAccidents = s'.declaredAccidents.insert key x) ∧
      declared r'.1 driver = declared r.1 driver)

section

variable {s s' : Storage AccountId BlockNumber} {router : SendXcm AccountId} {d e v w : AccountId}
  {j k : UInt32}

/-- The count of a driver after a declaration. -/
theorem declared_filed : declared (filed cfg s d v k) e =
    if e = v then declared s d + 1 else declared s e := by
  simp only [declared, filed, StorageMap.get_insert]
  split <;> rfl

theorem declared_filed_congr (h : declared s' e = declared s e) :
    declared (filed cfg s' e v k) e = declared (filed cfg s e v k) e := by
  rw [declared_filed, declared_filed, h]

/-- A subscribed driver's declaration is the same from two storages if its next key is free in
both or in neither, and is the same key, with the same count after it, where it is free. -/
theorem sameDeclaration_iff (hs : SimInsurance.isDriver s e = true)
    (hs' : SimInsurance.isDriver s' e = true) (hr : ∀ m, router m = .ok ()) :
    SameDeclaration cfg router s s' e v k ↔
      s'.declaredAccidents.containsKey (cfg.key e (declared s' e)) =
          s.declaredAccidents.containsKey (cfg.key e (declared s e)) ∧
        (s.declaredAccidents.containsKey (cfg.key e (declared s e)) = false →
          cfg.key e (declared s' e) = cfg.key e (declared s e) ∧
            declared (filed cfg s' e v k) e = declared (filed cfg s e v k) e) := by
  have h := dispatch_declare cfg (v := v) (k := k) hs (hr _)
  have h' := dispatch_declare cfg (v := v) (k := k) hs' (hr _)
  simp only [SameDeclaration]
  generalize dispatch cfg router (.signed e) (.insurer (.reportAccident v k)) s = r at h ⊢
  generalize dispatch cfg router (.signed e) (.insurer (.reportAccident v k)) s' = r' at h' ⊢
  obtain ⟨t, res, ev, sent⟩ := r
  obtain ⟨t', res', ev', sent'⟩ := r'
  cases hk : s.declaredAccidents.containsKey (cfg.key e (declared s e)) with
  | true =>
    rw [hk] at h
    obtain ⟨rfl, rfl⟩ := Prod.mk.inj h
    cases hk' : s'.declaredAccidents.containsKey (cfg.key e (declared s' e)) with
    | true =>
      rw [hk'] at h'
      obtain ⟨rfl, rfl⟩ := Prod.mk.inj h'
      simp
    | false =>
      rw [hk'] at h'
      obtain ⟨rfl, rfl⟩ := Prod.mk.inj h'
      simp
  | false =>
    rw [hk] at h
    obtain ⟨rfl, rfl⟩ := Prod.mk.inj h
    cases hk' : s'.declaredAccidents.containsKey (cfg.key e (declared s' e)) with
    | true =>
      rw [hk'] at h'
      obtain ⟨rfl, rfl⟩ := Prod.mk.inj h'
      simp
    | false =>
      rw [hk'] at h'
      obtain ⟨rfl, rfl⟩ := Prod.mk.inj h'
      simp only [true_and, forall_const]
      refine and_congr_left fun _ => ⟨?_, fun hkey => ⟨_, (v, k), rfl, ?_⟩⟩
      · rintro ⟨key, x, hins, hins'⟩
        have hg := StorageMap.insert_inj (StorageMap.containsKey_eq_false.mp hk) hins
        have hg' := StorageMap.insert_inj (StorageMap.containsKey_eq_false.mp hk') hins'
        exact hg'.1.trans hg.1.symm
      · rw [← hkey]; rfl

/-- A filed declaration leaves another driver's next key as it was, if it does not name that
driver. -/
theorem containsKey_filed (hcf : cfg.key e k ≠ cfg.key d (declared s d)) :
    (filed cfg s d v j).declaredAccidents.containsKey (cfg.key e k) =
      s.declaredAccidents.containsKey (cfg.key e k) := by
  simp only [filed, StorageMap.containsKey, StorageMap.get_insert_of_ne hcf]

/-- A filed declaration of `d` that names another account than `e` does not disturb `e`. -/
theorem sameDeclaration_filed_of_ne (he : SimInsurance.isDriver s e = true)
    (hr : ∀ m, router m = .ok ()) (hv : v ≠ e)
    (hkey : cfg.key e (declared s e) ≠ cfg.key d (declared s d)) :
    SameDeclaration cfg router s (filed cfg s d v j) e w k := by
  have hc : declared (filed cfg s d v j) e = declared s e := by
    rw [declared_filed, if_neg (Ne.symm hv)]
  have he' : SimInsurance.isDriver (filed cfg s d v j) e = true := he
  rw [sameDeclaration_iff cfg he he' hr]
  exact ⟨by rw [hc, containsKey_filed cfg hkey], fun _ => ⟨by rw [hc], declared_filed_congr cfg hc⟩⟩

/-- A filed declaration of `d` that names `e` disturbs `e`, unless `e` has the count that it is
given, or can file nothing with either count. -/
theorem sameDeclaration_filed_self (he : SimInsurance.isDriver s e = true)
    (hr : ∀ m, router m = .ok ())
    (hkey : cfg.key e (declared s d + 1) ≠ cfg.key d (declared s d))
    (hinj : cfg.key e (declared s d + 1) = cfg.key e (declared s e) →
      declared s e = declared s d + 1) :
    SameDeclaration cfg router s (filed cfg s d e j) e w k ↔
      declared s e = declared s d + 1 ∨
        (s.declaredAccidents.containsKey (cfg.key e (declared s e)) = true ∧
          s.declaredAccidents.containsKey (cfg.key e (declared s d + 1)) = true) := by
  have hc : declared (filed cfg s d e j) e = declared s d + 1 := by
    rw [declared_filed, if_pos rfl]
  have he' : SimInsurance.isDriver (filed cfg s d e j) e = true := he
  rw [sameDeclaration_iff cfg he he' hr, hc, containsKey_filed cfg hkey]
  constructor
  · rintro ⟨hsame, hfree⟩
    cases hk : s.declaredAccidents.containsKey (cfg.key e (declared s e)) with
    | false => exact .inl (hinj (hfree hk).1)
    | true => exact .inr ⟨rfl, hsame.trans hk⟩
  · rintro (hcount | ⟨hk, hk'⟩)
    · exact ⟨by rw [hcount], fun _ => ⟨by rw [hcount],
        declared_filed_congr cfg (hc.trans hcount.symm)⟩⟩
    · exact ⟨hk'.trans hk.symm, fun hn => by rw [hk] at hn; cases hn⟩

end

/-- Let `d` and `e` be distinct subscribed drivers and let the router take every message. The
declaration of `e` is the same before and after `d` declares the accident `j` of `v`, exactly if
`d`'s declaration is not filed, or does not name `e`, or gives `e` the count it has, or `e` can file
nothing under the old count nor under the new one. -/
theorem undisturbed_iff {s : Storage AccountId BlockNumber} {router : SendXcm AccountId}
    {d e : AccountId} (v w : AccountId) (j k : UInt32) (hne : d ≠ e)
    (hd : SimInsurance.isDriver s d = true) (he : SimInsurance.isDriver s e = true)
    (hr : ∀ m, router m = .ok ()) :
    let s' := (dispatch cfg router (.signed d) (.insurer (.reportAccident v j)) s).1
    cfg.CollisionFree (keysUsed s (.call router (.signed d) (.insurer (.reportAccident v j))) ++
      keysUsed s (.call router (.signed e) (.insurer (.reportAccident w k))) ++
      keysUsed s' (.call router (.signed e) (.insurer (.reportAccident w k)))) →
    (SameDeclaration cfg router s s' e w k ↔
      s.declaredAccidents.containsKey (cfg.key d (declared s d)) = true ∨ v ≠ e ∨
        declared s e = declared s d + 1 ∨
        (s.declaredAccidents.containsKey (cfg.key e (declared s e)) = true ∧
          s.declaredAccidents.containsKey (cfg.key e (declared s d + 1)) = true)) := by
  intro s' hcf
  have hs' := congrArg Prod.snd (dispatch_declare cfg (v := v) (k := j) hd (hr _))
  change s' = _ at hs'
  cases hk : s.declaredAccidents.containsKey (cfg.key d (declared s d)) with
  | true =>
    rw [hk] at hs'
    rw [show s' = s from hs']
    simp only [true_or, iff_true]
    rw [sameDeclaration_iff cfg he he hr]
    exact ⟨rfl, fun _ => ⟨rfl, rfl⟩⟩
  | false =>
    rw [hk] at hs'
    have hs' : s' = filed cfg s d v j := hs'
    have hdrv : SimInsurance.isDriver s' e = true := by rw [hs']; exact he
    simp only [keysUsed, hd, he, hdrv, if_true] at hcf
    have hkey : cfg.key e (declared s e) ≠ cfg.key d (declared s d) := fun h =>
      hne (hcf.key_inj (by simp) (by simp) h).1.symm
    rw [hs']
    by_cases hv : v = e
    · subst hv
      have hc : declared s' v = declared s d + 1 := by rw [hs', declared_filed, if_pos rfl]
      rw [sameDeclaration_filed_self cfg he hr]
      · simp
      · intro h
        rw [← hc] at h
        exact hne (hcf.key_inj (by simp) (by simp) h).1.symm
      · intro h
        rw [← hc] at h ⊢
        exact (hcf.key_inj (by simp) (by simp) h).2.symm
    · simp only [ne_eq, hv, not_false_eq_true, true_or, or_true, iff_true]
      exact sameDeclaration_filed_of_ne cfg he hr hv hkey

/-- A second driver signs up and declares two accidents of its own vehicle. -/
def ownDeclarations : List (Input AccountId32 UInt32) :=
  [.call (fun _ => .ok ()) (.signed bob) (.insurer (.signUp (SimInsurance.initProfile bob))),
    .call (fun _ => .ok ()) (.signed bob) (.insurer (.reportAccident bob 1)),
    .call (fun _ => .ok ()) (.signed bob) (.insurer (.reportAccident bob 2))]

/-- The insurer's chain after `ownDeclarations`. -/
def twoDrivers : Storage AccountId32 UInt32 :=
  (chain (runtime false)).run insurerGenesis.storage ownDeclarations

theorem undisturbed_own_vehicle :
    let router : SendXcm AccountId32 := fun _ => .ok ()
    let s' := (dispatch (runtime false) router (.signed alice)
      (.insurer (.reportAccident alice 1)) twoDrivers).1
    alice ≠ bob ∧ SimInsurance.isDriver twoDrivers alice = true ∧
      SimInsurance.isDriver twoDrivers bob = true ∧
      SameDeclaration (runtime false) router twoDrivers s' bob bob 3 := by
  intro router s'
  obtain ⟨hne, ha, hb, hkeys⟩ : alice ≠ bob ∧ SimInsurance.isDriver twoDrivers alice = true ∧
      SimInsurance.isDriver twoDrivers bob = true ∧
      keysUsed twoDrivers (.call router (.signed alice) (.insurer (.reportAccident alice 1))) ++
        keysUsed twoDrivers (.call router (.signed bob) (.insurer (.reportAccident bob 3))) ++
        keysUsed s' (.call router (.signed bob) (.insurer (.reportAccident bob 3))) =
          [(alice, 0), (bob, 2), (bob, 2)] := by decide +kernel
  refine ⟨hne, ha, hb, ?_⟩
  refine (undisturbed_iff (runtime false) alice bob 1 3 hne ha hb (fun _ => rfl) ?_).mpr
    (.inr (.inl hne))
  rw [hkeys]
  exact runtime_collisionFree.mono (by simp)

/-- In a reachable state in which the next declaration of one driver would be accepted, another
driver names that driver's account as its vehicle: the next declaration is refused. -/
theorem declaration_disturbed :
    let router : SendXcm AccountId32 := fun _ => .ok ()
    let s' := (dispatch (runtime false) router (.signed alice)
      (.insurer (.reportAccident bob 1)) twoDrivers).1
    alice ≠ bob ∧ SimInsurance.isDriver twoDrivers alice = true ∧
      SimInsurance.isDriver twoDrivers bob = true ∧
      (runtime false).CollisionFree
        (keysUsed twoDrivers (.call router (.signed alice) (.insurer (.reportAccident bob 1))) ++
          keysUsed twoDrivers (.call router (.signed bob) (.insurer (.reportAccident bob 3))) ++
          keysUsed s' (.call router (.signed bob) (.insurer (.reportAccident bob 3)))) ∧
      (dispatch (runtime false) router (.signed bob)
        (.insurer (.reportAccident bob 3)) twoDrivers).2.result = .ok () ∧
      (dispatch (runtime false) router (.signed bob) (.insurer (.reportAccident bob 3)) s').2.result =
        .error (.simInsuranceAccident .accidentAlreadyStored) ∧
      ¬ SameDeclaration (runtime false) router twoDrivers s' bob bob 3 := by
  intro router s'
  obtain ⟨hne, ha, hb, hok, herr, hkeys⟩ : alice ≠ bob ∧
      SimInsurance.isDriver twoDrivers alice = true ∧ SimInsurance.isDriver twoDrivers bob = true ∧
      (dispatch (runtime false) router (.signed bob)
        (.insurer (.reportAccident bob 3)) twoDrivers).2.result = .ok () ∧
      (dispatch (runtime false) router (.signed bob) (.insurer (.reportAccident bob 3))
        s').2.result = .error (.simInsuranceAccident .accidentAlreadyStored) ∧
      keysUsed twoDrivers (.call router (.signed alice) (.insurer (.reportAccident bob 1))) ++
        keysUsed twoDrivers (.call router (.signed bob) (.insurer (.reportAccident bob 3))) ++
        keysUsed s' (.call router (.signed bob) (.insurer (.reportAccident bob 3))) =
          [(alice, 0), (bob, 2), (bob, 1)] := by decide +kernel
  refine ⟨hne, ha, hb, ?_, hok, herr, fun hs => ?_⟩
  · rw [hkeys]; exact runtime_collisionFree.mono (by simp)
  · have hres := hs.1
    rw [herr, hok] at hres
    cases hres

end SIM.Proof
