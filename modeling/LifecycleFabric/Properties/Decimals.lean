import LifecycleFabric.Decimals

/-!
# Where the two decimal readers agree

The parser of identities refuses a text of more than twenty characters and a number that leaves
64 bits. The reader of reply fields takes both, and wraps. So they agree on the texts that are
no numeral and on the short numerals below 2^64, and on no other.
-/

namespace LifecycleFabric

/-- The two readers agree on a text, and neither wraps. -/
structure ReadersAgree (tag : IdTag) (t : Text) : Prop where
  /-- What the parser reads, a reply reads. -/
  reads : ∀ id, parseId tag t = some id → ∀ (reply : Wire.Reply) key fallback,
    reply.find key = some t → reply.u64 key fallback = id.raw
  /-- Where the parser refuses, a reply falls back. -/
  fallsBack : parseId tag t = none → ∀ (reply : Wire.Reply) key fallback,
    reply.find key = some t → reply.u64 key fallback = fallback
  /-- What the parser reads is the number the text spells. -/
  parsesExactly : ∀ id, parseId tag t = some id → decimalValue t = some id.raw.toNat
  /-- What a reply reads is the number the text spells, or its fallback. -/
  readsExactly : ∀ (reply : Wire.Reply) key fallback, reply.find key = some t →
    decimalValue t = some (reply.u64 key fallback).toNat ∨ reply.u64 key fallback = fallback

/-- The number a text spells is short and stays in 64 bits. -/
def FitsWord (t : Text) : Prop := ∀ n, decimalValue t = some n → t.length ≤ 20 ∧ n < 2 ^ 64

variable {tag : IdTag} {t : Text}

theorem parseId_eq_some {id : Ident tag} (h : parseId tag t = some id) :
    decimalValue t = some id.raw.toNat := by
  have hread := parseId_eq tag t
  rw [h, Option.map_some] at hread
  split_ifs at hread
  exact (Option.filter_eq_some_iff.mp hread.symm).1

/-- The parser refuses a text that fits only where it spells no number. -/
theorem decimalValue_eq_none (hfits : FitsWord t) (h : parseId tag t = none) :
    decimalValue t = none := by
  have hread := parseId_eq tag t
  rw [h, Option.map_none] at hread
  cases hvalue : decimalValue t with
  | none => rfl
  | some n =>
    obtain ⟨hshort, hlt⟩ := hfits n hvalue
    rw [if_pos hshort, hvalue, Option.filter_some_pos (by simpa using hlt)] at hread
    cases hread

/-- The parser refuses a numeral that is long or leaves 64 bits. -/
theorem parseId_eq_none {n : ℕ} (hvalue : decimalValue t = some n)
    (h : ¬ (t.length ≤ 20 ∧ n < 2 ^ 64)) : parseId tag t = none := by
  rw [← Option.map_eq_none_iff, parseId_eq, hvalue]
  split_ifs with hshort
  · exact Option.filter_some_neg (by simpa using fun hlt => h ⟨hshort, hlt⟩)
  · rfl

/-- A reply with one field. -/
def singleField (t : Text) : Wire.Reply := { values := [([], t)] }

/-- The two readers agree on a text exactly when it spells no number, or one of at most twenty
digits below 2^64. -/
theorem readersAgree_iff (tag : IdTag) (t : Text) : ReadersAgree tag t ↔ FitsWord t := by
  constructor
  · intro h n hvalue
    by_contra hunfit
    -- a reply reads such a numeral whatever its fallback, so it does not fall back
    have hrefused : parseId tag t = none := parseId_eq_none hvalue hunfit
    have hfound : (singleField t).find [] = some t := rfl
    have hzero := h.fallsBack hrefused (singleField t) [] 0 hfound
    have hone := h.fallsBack hrefused (singleField t) [] 1 hfound
    rw [u64_eq hfound, hvalue] at hzero hone
    exact absurd (hzero.symm.trans hone) (by decide)
  · intro hfits
    constructor
    · intro id hid reply key fallback hfound
      rw [u64_eq hfound, parseId_eq_some hid]
      exact UInt64.ofNat_toNat
    · intro hrefused reply key fallback hfound
      rw [u64_eq hfound, decimalValue_eq_none hfits hrefused]
      rfl
    · intro id hid
      exact parseId_eq_some hid
    · intro reply key fallback hfound
      rw [u64_eq hfound]
      cases hvalue : decimalValue t with
      | none => exact Or.inr rfl
      | some n =>
        have hlt := (hfits n hvalue).2
        refine Or.inl (congrArg some ?_)
        exact (UInt64.toNat_ofNat_of_lt' hlt).symm

/-- The first number past 64 bits is refused by the parser and read as zero by a reply. -/
theorem readers_disagree : ¬ ∀ tag t, ReadersAgree tag t := by
  intro hclaim
  have h := hclaim .modelId (text "18446744073709551616")
  have hrefused : parseId .modelId (text "18446744073709551616") = none := by decide +kernel
  have hone := h.fallsBack hrefused (singleField (text "18446744073709551616")) [] 1 rfl
  have hzero : (singleField (text "18446744073709551616")).u64 [] 1 = 0 := by decide +kernel
  exact absurd (hzero.symm.trans hone) (by decide)

end LifecycleFabric
