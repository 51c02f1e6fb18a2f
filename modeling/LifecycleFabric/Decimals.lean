import LifecycleFabric.Lib.Numerals
import LifecycleFabric.Replies

/-!
# Decimal texts

Identities travel as decimal digits. A command line reads them with a parser that refuses what
leaves 64 bits, and a reply reads the values of its fields with an accumulator that does not
look.
-/

namespace LifecycleFabric

/-! ## The readers -/

/-- The digit a character stands for. -/
def digitOf (c : UInt8) : UInt64 := (c - 48).toUInt64

/-- One more character of an identity; none where it is no digit, or leaves 64 bits. -/
def parseDigit (value : UInt64) (c : UInt8) : Option UInt64 :=
  if !isDigit c then none
  else
    let scaled := value * 10
    if scaled / 10 ≠ value then none
    else
      let summed := scaled + digitOf c
      if summed < scaled then none else some summed

/-- Parse a decimal identity. -/
def parseId (tag : IdTag) (t : Text) : Option (Ident tag) :=
  if t.isEmpty ∨ 20 < t.length then none else (t.foldlM parseDigit 0).map Ident.mk

namespace Wire.Reply

/-- The value of a field. -/
def find (reply : Reply) (key : Text) : Option Text :=
  (reply.values.find? fun entry => decide (entry.1 = key)).map Prod.snd

/-- One more character of a field; none where it is no digit. -/
def readDigit (result : UInt64) (c : UInt8) : Option UInt64 :=
  if !isDigit c then none else some (result * 10 + digitOf c)

/-- The value of a field as a number, or a fallback. -/
def u64 (reply : Reply) (key : Text) (fallback : UInt64) : UInt64 :=
  match reply.find key with
  | none => fallback
  | some value => if value.isEmpty then fallback else (value.foldlM readDigit 0).getD fallback

end Wire.Reply

/-! ## What they read -/

/-- The value of a decimal digit. -/
def digitValue (c : UInt8) : Option ℕ := if isDigit c then some (c.toNat - 48) else none

/-- The number a text spells in decimal; an empty one spells none. -/
def decimalValue (t : Text) : Option ℕ :=
  if t.isEmpty then none else Numerals.read digitValue 10 t 0

theorem toNat_digitOf {c : UInt8} (h : isDigit c = true) :
    (digitOf c).toNat = c.toNat - 48 := by
  obtain ⟨hlow, _⟩ := isDigit_iff.mp h
  have hle : (48 : UInt8) ≤ c := UInt8.le_iff_toNat_le.mpr hlow
  rw [digitOf, UInt8.toNat_toUInt64, UInt8.toNat_sub_of_le _ _ hle]
  rfl

/-- Dividing by ten undoes a multiplication by ten exactly where it stayed in 64 bits. -/
theorem mul_ten_div_ten (value : UInt64) :
    value * 10 / 10 = value ↔ value.toNat * 10 < 2 ^ 64 := by
  have hlt := value.toNat_lt
  have hten : (10 : UInt64).toNat = 10 := rfl
  rw [← UInt64.toNat_inj, UInt64.toNat_div, UInt64.toNat_mul, hten]
  omega

/-- A sum is below its first part exactly where it left 64 bits. -/
theorem add_lt_left (scaled d : UInt64) :
    scaled + d < scaled ↔ 2 ^ 64 ≤ scaled.toNat + d.toNat := by
  have hscaled := scaled.toNat_lt
  have hd := d.toNat_lt
  rw [UInt64.lt_iff_toNat_lt, UInt64.toNat_add]
  omega

theorem toNat_mul_ten_add (value d : UInt64) :
    (value * 10 + d).toNat = (value.toNat * 10 + d.toNat) % 2 ^ 64 := by
  rw [UInt64.toNat_add, UInt64.toNat_mul, Nat.mod_add_mod]
  rfl

theorem step_digit {c : UInt8} (h : isDigit c = true) (value : ℕ) :
    Numerals.step digitValue 10 value c = some (value * 10 + (digitOf c).toNat) := by
  rw [Numerals.step, digitValue, if_pos h, toNat_digitOf h]
  rfl

theorem step_nonDigit {c : UInt8} (h : ¬ isDigit c = true) (value : ℕ) :
    Numerals.step digitValue 10 value c = none := by
  rw [Numerals.step, digitValue, if_neg h]
  rfl

/-- The parser takes a digit exactly where the number stays in 64 bits. -/
theorem map_parseDigit (value : UInt64) (c : UInt8) :
    (parseDigit value c).map UInt64.toNat =
      Numerals.checkedStep digitValue 10 (2 ^ 64) value.toNat c := by
  unfold parseDigit Numerals.checkedStep
  by_cases hdigit : isDigit c = true
  · rw [step_digit hdigit, if_neg (by simpa using hdigit)]
    dsimp only
    by_cases hscaled : value * 10 / 10 = value
    · have hproduct : (value * 10).toNat = value.toNat * 10 := by
        rw [UInt64.toNat_mul]
        exact Nat.mod_eq_of_lt ((mul_ten_div_ten value).mp hscaled)
      have hsum := add_lt_left (value * 10) (digitOf c)
      rw [hproduct] at hsum
      rw [if_neg (not_not.mpr hscaled)]
      by_cases hover : value * 10 + digitOf c < value * 10
      · have hlarge := hsum.mp hover
        rw [if_pos hover, Option.filter_some_neg (by simpa using hlarge)]
        rfl
      · have hfits : value.toNat * 10 + (digitOf c).toNat < 2 ^ 64 := not_le.mp (hsum.not.mp hover)
        rw [if_neg hover, Option.filter_some_pos (by simpa using hfits), Option.map_some,
          toNat_mul_ten_add, Nat.mod_eq_of_lt hfits]
    · have hlarge : 2 ^ 64 ≤ value.toNat * 10 := not_lt.mp ((mul_ten_div_ten value).not.mp hscaled)
      have hpast : 2 ^ 64 ≤ value.toNat * 10 + (digitOf c).toNat := by omega
      rw [if_pos hscaled, Option.filter_some_neg (by simpa using hpast)]
      rfl
  · rw [step_nonDigit hdigit, if_pos (by simpa using hdigit)]
    rfl

/-- The reply takes every digit, and wraps. -/
theorem map_readDigit (result : UInt64) (c : UInt8) :
    (Wire.Reply.readDigit result c).map UInt64.toNat =
      Numerals.wrappedStep digitValue 10 (2 ^ 64) result.toNat c := by
  unfold Wire.Reply.readDigit Numerals.wrappedStep
  by_cases hdigit : isDigit c = true
  · rw [step_digit hdigit, if_neg (by simpa using hdigit), Option.map_some, Option.map_some,
      toNat_mul_ten_add]
  · rw [step_nonDigit hdigit, if_pos (by simpa using hdigit)]
    rfl

/-- What the parser reads: the number a text of at most twenty characters spells, below 2^64. -/
theorem parseId_eq (tag : IdTag) (t : Text) :
    (parseId tag t).map (fun id => id.raw.toNat) =
      if t.length ≤ 20 then (decimalValue t).filter fun n => decide (n < 2 ^ 64) else none := by
  unfold parseId decimalValue
  by_cases hempty : t.isEmpty = true
  · simp [hempty]
  · by_cases hlong : 20 < t.length
    · rw [if_pos (Or.inr hlong), if_neg (not_le.mpr hlong)]
      rfl
    · have hread : (t.foldlM parseDigit 0).map UInt64.toNat = _ :=
        Numerals.map_foldlM parseDigit _ UInt64.toNat map_parseDigit t 0
      rw [if_neg (by tauto), if_pos (not_lt.mp hlong), if_neg hempty, Option.map_map]
      exact hread.trans (Numerals.foldlM_checkedStep (by omega) (by decide))

/-- What a reply reads: the number a field spells, modulo 2^64. -/
theorem u64_eq {reply : Wire.Reply} {key t : Text} (h : reply.find key = some t)
    (fallback : UInt64) :
    reply.u64 key fallback = ((decimalValue t).map UInt64.ofNat).getD fallback := by
  rw [Wire.Reply.u64, h, decimalValue]
  by_cases hempty : t.isEmpty = true
  · simp [hempty]
  · have hread : (t.foldlM Wire.Reply.readDigit 0).map UInt64.toNat =
        (Numerals.read digitValue 10 t 0).map (· % 2 ^ 64) :=
      (Numerals.map_foldlM Wire.Reply.readDigit _ UInt64.toNat map_readDigit t 0).trans
        (Numerals.foldlM_wrappedStep t 0)
    have hwords : t.foldlM Wire.Reply.readDigit 0 =
        (Numerals.read digitValue 10 t 0).map UInt64.ofNat := by
      have hmapped := congrArg (Option.map UInt64.ofNat) hread
      rw [Option.map_map, Option.map_map] at hmapped
      have hback : UInt64.ofNat ∘ UInt64.toNat = id := funext fun x => UInt64.ofNat_toNat
      have hwrap : UInt64.ofNat ∘ (· % 2 ^ 64) = UInt64.ofNat :=
        funext fun n => UInt64.ofNat_mod_size
      rwa [hback, hwrap, Option.map_id] at hmapped
    simp only [if_neg hempty, hwords]

end LifecycleFabric
