import LifecycleFabric.Compatibility
import LifecycleFabric.Lib.ThreeWay

/-!
# The order behind version comparison

Version comparison treats components that start with digits as numbers and all
others as bytes. Both rules together are the comparison of one key: components
that sort before every digit, then the numeric ones by value and remainder, then
those that sort after every digit. A version is compared by the keys of its
components in order.
-/

namespace LifecycleFabric

open ThreeWay

/-- What a digit run is compared by: its length without leading zeros, then its digits. -/
def magnitude (digits : Text) : ℕ ×ₗ Text :=
  toLex ((stripZeros digits).length, stripZeros digits)

/-- Where a component stands relative to those that start with a digit: `0` before, `1` among
them, `2` after. -/
def componentPlace (p : Text) : ℕ := if p < [48] then 0 else if p < [58] then 1 else 2

/-- What a component is compared by: its place, its number, and its remainder, the empty
remainder last. A component without a number is its own remainder. -/
def componentKey (p : Text) : ℕ ×ₗ (ℕ ×ₗ Text) ×ₗ (Bool ×ₗ Text) :=
  let rest := p.dropWhile isDigit
  toLex (componentPlace p,
    if componentPlace p = 1 then
      toLex (magnitude (p.takeWhile isDigit), toLex (rest.isEmpty, rest))
    else toLex (toLex (0, []), toLex (false, p)))

/-- The components of a version: what stands between its dots. -/
def components (version : Text) : List Text := version.splitOnP (· == 46)

/-- What a version is compared by: the keys of its components in order. -/
def versionOrderKey (version : Text) : List (ℕ ×ₗ (ℕ ×ₗ Text) ×ₗ (Bool ×ₗ Text)) :=
  (components version).map componentKey

/-! ## Components -/

theorem compareNumeric_eq (a b : Text) : compareNumeric a b = sign (magnitude a) (magnitude b) := by
  rw [magnitude, magnitude, sign_lex]
  by_cases hlength : (stripZeros a).length = (stripZeros b).length
  · rw [if_pos hlength]
    simp only [compareNumeric, ne_eq, hlength, not_true_eq_false, if_false]
    by_cases hsame : stripZeros a = stripZeros b
    · rw [hsame, sign_self, if_neg (not_not_intro rfl)]
    · rw [if_pos hsame, sign_of_ne hsame]
      split <;> rfl
  · rw [if_neg hlength, sign_of_ne hlength]
    simp only [compareNumeric, ne_eq, hlength, not_false_eq_true, if_true]

/-- A component stands among the numeric ones exactly when it starts with a digit. -/
theorem componentPlace_eq_one (p : Text) :
    componentPlace p = 1 ↔ (p.takeWhile isDigit).isEmpty = false := by
  cases p with
  | nil => simp [componentPlace]
  | cons c rest =>
    have hnil : ¬ rest < [] := List.not_lt_nil rest
    have hdigit : isDigit c = true ↔ 48 ≤ c.toNat ∧ c.toNat ≤ 57 := isDigit_iff
    have hbelow : c :: rest < [48] ↔ c.toNat < 48 := by
      simp [List.cons_lt_cons_iff, hnil, UInt8.lt_iff_toNat_lt]
    have habove : c :: rest < [58] ↔ c.toNat < 58 := by
      simp [List.cons_lt_cons_iff, hnil, UInt8.lt_iff_toNat_lt]
    simp only [componentPlace, hbelow, habove, List.takeWhile_cons]
    by_cases hc : isDigit c = true
    · have hrange := hdigit.mp hc
      rw [if_pos hc, if_neg (by omega), if_pos (by omega)]
      simp
    · have hrange := mt hdigit.mpr hc
      rw [if_neg hc]
      by_cases hlow : c.toNat < 48
      · simp [hlow]
      · rw [if_neg hlow, if_neg (by omega)]
        simp

/-- Components at different places compare as their bytes do. -/
theorem lt_of_componentPlace_lt {pa pb : Text} (hlt : componentPlace pa < componentPlace pb) :
    pa < pb := by
  unfold componentPlace at hlt
  by_cases ha : pa < [48]
  · by_cases hb : pb < [48]
    · simp [ha, hb] at hlt
    · exact lt_of_lt_of_le ha (not_lt.mp hb)
  · by_cases ha' : pa < [58]
    · by_cases hb : pb < [58]
      · by_cases hb' : pb < [48] <;> simp [ha, ha', hb, hb'] at hlt
      · exact lt_of_lt_of_le ha' (not_lt.mp hb)
    · rw [if_neg ha, if_neg ha'] at hlt
      split at hlt
      · omega
      · split at hlt <;> omega

/-- Where one component has no number, the keys compare as the bytes do. -/
theorem sign_componentKey_of_textual {pa pb : Text}
    (htextual : ¬ (componentPlace pa = 1 ∧ componentPlace pb = 1)) :
    sign (componentKey pa) (componentKey pb) = sign pa pb := by
  rw [componentKey, componentKey, sign_lex]
  by_cases hplace : componentPlace pa = componentPlace pb
  · have ha : componentPlace pa ≠ 1 := fun h => htextual ⟨h, hplace ▸ h⟩
    rw [if_pos hplace, if_neg ha, if_neg (hplace ▸ ha), sign_lex, if_pos rfl, sign_lex, if_pos rfl]
  · rw [if_neg hplace]
    rcases lt_or_gt_of_ne hplace with hlt | hgt
    · rw [sign_of_lt hlt, sign_of_lt (lt_of_componentPlace_lt hlt)]
    · rw [sign_of_gt hgt, sign_of_gt (lt_of_componentPlace_lt hgt)]

/-- The keys of two components with numbers compare by the numbers, then by the remainders. -/
theorem sign_componentKey_of_numeric {pa pb : Text} (ha : componentPlace pa = 1)
    (hb : componentPlace pb = 1) :
    sign (componentKey pa) (componentKey pb) =
      if compareNumeric (pa.takeWhile isDigit) (pb.takeWhile isDigit) = 0 then
        if (pa.dropWhile isDigit).isEmpty = (pb.dropWhile isDigit).isEmpty then
          sign (pa.dropWhile isDigit) (pb.dropWhile isDigit)
        else sign (pa.dropWhile isDigit).isEmpty (pb.dropWhile isDigit).isEmpty
      else compareNumeric (pa.takeWhile isDigit) (pb.takeWhile isDigit) := by
  rw [componentKey, componentKey, sign_lex, if_pos (ha.trans hb.symm), if_pos ha, if_pos hb,
    sign_lex, sign_lex, compareNumeric_eq]
  by_cases hnumber : magnitude (pa.takeWhile isDigit) = magnitude (pb.takeWhile isDigit)
  · rw [if_pos hnumber, if_pos (sign_eq_zero.mpr hnumber)]
  · rw [if_neg hnumber, if_neg (mt sign_eq_zero.mp hnumber)]

/-- One component of each version decides exactly when their keys differ, and then by them. -/
theorem compareComponent_eq (pa pb : Text) :
    compareComponent pa pb =
      if componentKey pa = componentKey pb then none
      else some (sign (componentKey pa) (componentKey pb)) := by
  simp only [← sign_eq_zero (x := componentKey pa)]
  by_cases hnumeric : componentPlace pa = 1 ∧ componentPlace pb = 1
  · obtain ⟨ha, hb⟩ := hnumeric
    rw [sign_componentKey_of_numeric ha hb]
    rw [componentPlace_eq_one] at ha hb
    simp only [compareComponent, ha, hb, Bool.not_false, Bool.and_self, if_true]
    by_cases hnumber : compareNumeric (pa.takeWhile isDigit) (pb.takeWhile isDigit) = 0
    · simp only [hnumber, ne_eq, not_true_eq_false, if_false, if_true]
      by_cases hrest : pa.dropWhile isDigit = pb.dropWhile isDigit
      · simp [hrest, sign_self]
      · rw [if_pos hrest]
        cases ha' : (pa.dropWhile isDigit).isEmpty with
        | true =>
          have hb' : (pb.dropWhile isDigit).isEmpty = false := by
            by_contra h
            rw [List.isEmpty_iff] at ha'
            rw [Bool.not_eq_false, List.isEmpty_iff] at h
            exact hrest (ha'.trans h.symm)
          have hsign : sign true false = 1 := by decide
          simp [hb', hsign]
        | false =>
          cases hb' : (pb.dropWhile isDigit).isEmpty with
          | true =>
            have hsign : sign false true = -1 := by decide
            simp [hsign]
          | false =>
            rw [if_pos rfl, if_neg (mt sign_eq_zero.mp hrest), sign_of_ne hrest]
            simp only [Bool.false_eq_true, if_false]
            split <;> rfl
    · simp [hnumber]
  · rw [sign_componentKey_of_textual hnumeric]
    have hpart : (!(pa.takeWhile isDigit).isEmpty && !(pb.takeWhile isDigit).isEmpty) = false := by
      by_contra h
      rw [componentPlace_eq_one, componentPlace_eq_one] at hnumeric
      simp only [Bool.not_eq_false, Bool.and_eq_true, Bool.not_eq_true'] at h
      exact hnumeric h
    simp only [compareComponent, hpart, Bool.false_eq_true, if_false]
    by_cases hsame : pa = pb
    · simp [hsame, sign_self]
    · rw [if_pos hsame, if_neg (mt sign_eq_zero.mp hsame), sign_of_ne hsame]
      split <;> rfl

/-! ## Versions -/

/-- The components of a version: the part before the first dot, then those of the rest. -/
theorem components_eq (version : Text) :
    components version = version.takeWhile (· != 46) ::
      if version.length ≤ (version.takeWhile (· != 46)).length then []
      else components (version.drop ((version.takeWhile (· != 46)).length + 1)) := by
  unfold components
  induction version with
  | nil => simp
  | cons c rest ih =>
    rw [List.splitOnP_cons_eq_if_modifyHead]
    by_cases hdot : c = 46
    · subst hdot
      simp
    · have hstay : (c != 46) = true := by simpa using hdot
      rw [if_neg (by simpa using hdot), ih, List.takeWhile_cons, if_pos hstay]
      simp

theorem versionOrderKey_eq (version : Text) :
    versionOrderKey version = componentKey (version.takeWhile (· != 46)) ::
      if version.length ≤ (version.takeWhile (· != 46)).length then []
      else versionOrderKey (version.drop ((version.takeWhile (· != 46)).length + 1)) := by
  rw [versionOrderKey, components_eq, List.map_cons]
  split <;> rfl

/-- With a round for each byte of the first version, the comparison is that of the keys. -/
theorem compareVersionsFrom_eq (steps : ℕ) (a b : Text) (hsteps : a.length < steps) :
    compareVersionsFrom steps a b = sign (versionOrderKey a) (versionOrderKey b) := by
  induction steps generalizing a b with
  | zero => omega
  | succ steps ih =>
    rw [compareVersionsFrom]
    by_cases hempty : (a.isEmpty && b.isEmpty) = true
    · rw [if_pos hempty]
      rw [Bool.and_eq_true, List.isEmpty_iff, List.isEmpty_iff] at hempty
      rw [hempty.1, hempty.2, sign_self]
    · rw [if_neg hempty, versionOrderKey_eq a, versionOrderKey_eq b, sign_cons]
      simp only [compareComponent_eq]
      by_cases hfirst : componentKey (a.takeWhile (· != 46)) = componentKey (b.takeWhile (· != 46))
      · -- The first components agree, so what follows them decides.
        simp only [if_pos hfirst, decide_eq_true_eq, Bool.and_eq_true]
        by_cases ha : a.length ≤ (a.takeWhile (· != 46)).length
        · by_cases hb : b.length ≤ (b.takeWhile (· != 46)).length
          · rw [if_pos ⟨ha, hb⟩, if_pos ha, if_pos hb, sign_self]
          · rw [if_neg (fun h => hb h.2), if_pos ha, if_pos ha, if_neg hb, versionOrderKey_eq,
              sign_nil_cons]
        · by_cases hb : b.length ≤ (b.takeWhile (· != 46)).length
          · rw [if_neg (fun h => ha h.1), if_neg ha, if_pos hb, if_neg ha, if_pos hb,
              versionOrderKey_eq, sign_cons_nil]
          · rw [if_neg (fun h => ha h.1), if_neg ha, if_neg hb, if_neg ha, if_neg hb]
            exact ih _ _ (by rw [List.length_drop]; omega)
      · simp only [if_neg hfirst]

/-- Versions compare as their keys do. -/
theorem compareVersions_eq (a b : Text) :
    compareVersions a b = sign (versionOrderKey a) (versionOrderKey b) :=
  compareVersionsFrom_eq (a.length + 1) a b (Nat.lt_succ_self _)

/-- The empty version is below every other one. -/
theorem compareVersions_nil {b : Text} (hb : b ≠ []) : compareVersions [] b = -1 := by
  rw [compareVersions_eq, versionOrderKey_eq [], versionOrderKey_eq b, sign_cons]
  by_cases hfirst : b.takeWhile (· != 46) = []
  · have hmore : ¬ b.length ≤ (b.takeWhile (· != 46)).length := by
      rw [hfirst, List.length_nil]
      exact not_le.mpr (List.length_pos_iff.mpr hb)
    have hdone : ([] : Text).length ≤ (([] : Text).takeWhile (· != 46)).length := Nat.zero_le _
    rw [if_pos (by rw [hfirst]; rfl), if_pos hdone, if_neg hmore, versionOrderKey_eq, sign_nil_cons]
  · have hless : sign (componentKey []) (componentKey (b.takeWhile (· != 46))) = -1 := by
      rw [sign_componentKey_of_textual (fun h => by simp [componentPlace] at h)]
      obtain ⟨c, rest, hcons⟩ := List.exists_cons_of_ne_nil hfirst
      rw [hcons, sign_nil_cons]
    have hne : componentKey [] ≠ componentKey (b.takeWhile (· != 46)) := by
      intro heq
      rw [sign_eq_zero.mpr heq] at hless
      omega
    rw [List.takeWhile_nil, if_neg hne, hless]

end LifecycleFabric
