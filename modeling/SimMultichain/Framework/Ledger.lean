import Mathlib
import SimMultichain.Framework.StorageMap

/-!
# Ledgers under computed keys

An append-only ledger keeps, for every owner, the list of its entries. A
runtime stores it flat: the `i`-th entry of `a` at the key `key a i`, and the
number of entries of `a` in a 32-bit counter. `Represents` says that the two maps
hold exactly the ledger, with the counter modulo `2³²`.

* `Represents.append`: storing at the counter's key, when nothing is stored
  there, and advancing the counter appends to the owner's list. No assumption on
  `key` is needed: the check that the key is free also keeps the ledger below
  `2³²` entries per owner, where the counter would start over;
* `KeysIn`: the owners and indices of the ledger's entries are among those of a
  set, which an append keeps by adding its own (`KeysIn.append`);
* `Represents.unique`: a ledger is held by one pair of maps only;
* `Represents.get_key`, `Represents.get_key_count`: on keys that `key` separates,
  reading the map reads the list.
-/

namespace SIM

variable {A K V : Type*}

theorem ofNat_toNat_of_lt {n : Nat} (h : n < 2 ^ 32) : (UInt32.ofNat n).toNat = n :=
  UInt32.toNat_ofNat_of_lt' h

/-- The entries of the ledger `led` have their owners and indices in `U`. -/
def KeysIn (led : A → List V) (U : Set (A × UInt32)) : Prop :=
  ∀ a i, i < (led a).length → (a, UInt32.ofNat i) ∈ U

namespace KeysIn

variable {led led' : A → List V} {U U' : Set (A × UInt32)}

theorem mono (h : KeysIn led U) (hl : ∀ a, led' a = led a) (hU : U ⊆ U') : KeysIn led' U' := by
  intro a i hi
  rw [hl a] at hi
  exact hU (h a i hi)

/-- One more entry of `a` adds the key of its index. -/
theorem append (h : KeysIn led U) {a : A} {v : V} (ha : led' a = led a ++ [v])
    (hb : ∀ b, b ≠ a → led' b = led b) (hU : U ⊆ U')
    (hnew : (a, UInt32.ofNat (led a).length) ∈ U') : KeysIn led' U' := by
  intro b i hi
  by_cases hba : b = a
  · subst hba
    rw [ha, List.length_append, List.length_singleton] at hi
    rcases Nat.lt_succ_iff_lt_or_eq.mp hi with hi | rfl
    · exact hU (h b i hi)
    · exact hnew
  · rw [hb b hba] at hi
    exact hU (h b i hi)

end KeysIn

/-- The maps `entries` and `count` hold the ledger `led`. -/
structure Represents (key : A → UInt32 → K) (entries : StorageMap K V) (count : StorageMap A UInt32)
    (led : A → List V) : Prop where
  stored {a : A} {i : Nat} {v : V} : (led a)[i]? = some v →
    entries.get (key a (UInt32.ofNat i)) = some v
  only {k : K} {v : V} : entries.get k = some v →
    ∃ a i, (led a)[i]? = some v ∧ k = key a (UInt32.ofNat i)
  counted (a : A) : count.get a = if led a = [] then none else some (UInt32.ofNat (led a).length)
  length_le (a : A) : (led a).length ≤ 2 ^ 32

namespace Represents

variable {key : A → UInt32 → K} {entries : StorageMap K V} {count : StorageMap A UInt32}
  {led : A → List V}

/-- Empty maps hold the empty ledger. -/
theorem nil {led : A → List V} (h : ∀ a, led a = []) :
    Represents key StorageMap.empty StorageMap.empty led where
  stored {a i v} hv := by rw [h a] at hv; cases hv
  only hv := by cases hv
  counted a := by rw [h a]; rfl
  length_le a := by rw [h a]; exact Nat.zero_le _

/-- The counter, read as `0` when absent. -/
theorem count_getD (h : Represents key entries count led) (a : A) :
    (count.get a).getD 0 = UInt32.ofNat (led a).length := by
  rw [h.counted a]
  split <;> rename_i he
  · rw [he]; rfl
  · rfl

/-- A free key at the counter leaves room for one more entry. -/
theorem length_lt_of_fresh (h : Represents key entries count led) {a : A}
    (hf : entries.get (key a (UInt32.ofNat (led a).length)) = none) : (led a).length < 2 ^ 32 := by
  refine lt_of_le_of_ne (h.length_le a) fun he => ?_
  have h0 : 0 < (led a).length := by omega
  have hs := h.stored (List.getElem?_eq_getElem h0)
  rw [he] at hf
  have e : UInt32.ofNat (2 ^ 32) = UInt32.ofNat 0 := by decide
  rw [e, hs] at hf; cases hf

/-- A ledger is held by one pair of maps only. -/
theorem unique (h : Represents key entries count led) {entries' : StorageMap K V}
    {count' : StorageMap A UInt32} (h' : Represents key entries' count' led) :
    entries = entries' ∧ count = count' := by
  constructor
  · ext k v
    constructor
    · intro hk
      obtain ⟨a, i, hi, rfl⟩ := h.only hk
      exact h'.stored hi
    · intro hk
      obtain ⟨a, i, hi, rfl⟩ := h'.only hk
      exact h.stored hi
  · ext1
    funext a
    rw [h.counted a, h'.counted a]

/-- Storing at the counter's key and advancing the counter appends. -/
theorem append [DecidableEq A] [DecidableEq K] (h : Represents key entries count led) {a : A}
    {c : UInt32} {v : V} (hc : (count.get a).getD 0 = c) (hf : entries.get (key a c) = none)
    {led' : A → List V} (ha : led' a = led a ++ [v]) (hb : ∀ b, b ≠ a → led' b = led b) :
    Represents key (entries.insert (key a c) v) (count.insert a (c + 1)) led' := by
  rw [h.count_getD a] at hc
  subst hc
  have hlt := h.length_lt_of_fresh hf
  have hold : ∀ {b i w}, (led b)[i]? = some w →
      (entries.insert (key a (UInt32.ofNat (led a).length)) v).get (key b (UInt32.ofNat i)) = some w := by
    intro b i w hw
    have hs := h.stored hw
    rw [StorageMap.get_insert_of_ne, hs]
    intro e
    rw [e, hf] at hs; cases hs
  refine ⟨fun {b i w} hw => ?_, fun {k w} hw => ?_, fun b => ?_, fun b => ?_⟩
  · by_cases hba : b = a
    · subst hba
      rw [ha] at hw
      rcases lt_trichotomy i (led b).length with hi | hi | hi
      · rw [List.getElem?_append_left hi] at hw; exact hold hw
      · subst hi
        simp only [List.getElem?_concat_length, Option.some.injEq] at hw
        rw [StorageMap.get_insert_self, hw]
      · rw [List.getElem?_eq_none (by rw [List.length_append, List.length_singleton]; omega)] at hw
        cases hw
    · rw [hb b hba] at hw; exact hold hw
  · rcases StorageMap.get_insert_cases hw with ⟨rfl, rfl⟩ | ⟨-, hk⟩
    · exact ⟨a, (led a).length, by rw [ha, List.getElem?_concat_length], rfl⟩
    · obtain ⟨b, i, hi, rfl⟩ := h.only hk
      refine ⟨b, i, ?_, rfl⟩
      by_cases hba : b = a
      · subst hba
        rw [ha, List.getElem?_append_left (List.getElem?_eq_some_iff.mp hi).1, hi]
      · rw [hb b hba, hi]
  · by_cases hba : b = a
    · subst hba
      rw [StorageMap.get_insert_self, ha, if_neg (by simp), List.length_append,
        List.length_singleton, UInt32.ofNat_add]
      rfl
    · rw [StorageMap.get_insert_of_ne hba, hb b hba, h.counted b]
  · by_cases hba : b = a
    · subst hba; rw [ha, List.length_append, List.length_singleton]; omega
    · rw [hb b hba]; exact h.length_le b

/-- Where `key` separates the keys in use, reading the map reads the list. -/
theorem get_key (h : Represents key entries count led) {U : Set (A × UInt32)}
    (hinj : Set.InjOn (fun p : A × UInt32 => key p.1 p.2) U)
    (hU : KeysIn led U) {a : A} {i : UInt32} (hai : (a, i) ∈ U) : entries.get (key a i) = (led a)[i.toNat]? := by
  cases hv : (led a)[i.toNat]? with
  | some v =>
    have := h.stored hv
    rwa [UInt32.ofNat_toNat] at this
  | none =>
    rw [Option.eq_none_iff_forall_ne_some]
    intro w hw
    obtain ⟨b, j, hj, hk⟩ := h.only hw
    have hjl := (List.getElem?_eq_some_iff.mp hj).1
    have e := hinj hai (hU b j hjl) hk
    simp only [Prod.mk.injEq] at e
    obtain ⟨rfl, rfl⟩ := e
    rw [ofNat_toNat_of_lt (lt_of_lt_of_le hjl (h.length_le a)), hj] at hv
    cases hv

/-- Where `key` separates the keys in use, the counter's key is free as long as the counter has
not started over. -/
theorem get_key_count (h : Represents key entries count led) {U : Set (A × UInt32)}
    (hinj : Set.InjOn (fun p : A × UInt32 => key p.1 p.2) U)
    (hU : KeysIn led U) {a : A} (ha : (a, (count.get a).getD 0) ∈ U) (hlt : (led a).length < 2 ^ 32) :
    entries.get (key a ((count.get a).getD 0)) = none := by
  rw [h.get_key hinj hU ha, h.count_getD a, ofNat_toNat_of_lt hlt, List.getElem?_eq_none le_rfl]

end Represents

end SIM
