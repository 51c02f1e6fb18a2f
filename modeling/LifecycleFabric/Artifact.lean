import LifecycleFabric.Identity

/-!
# Artifact bindings and provenance

Lifecycle authority is bound to an exact artifact generation and digest.
-/

namespace LifecycleFabric

/-- How a fact was established. -/
inductive Provenance
  | unknown | real | synthetic | unsupported
  deriving DecidableEq

namespace Provenance

/-- Every provenance, in order of its number. -/
def all : List Provenance := [.unknown, .real, .synthetic, .unsupported]

/-- The number of a provenance. -/
def code (provenance : Provenance) : ℕ := provenance.ctorIdx

/-- A caller that names no provenance gets the engine's default. -/
def orDefault (provenance fallback : Provenance) : Provenance :=
  if provenance = unknown then fallback else provenance

end Provenance

/-- The artifact set a version is bound to, at a generation and with a digest. -/
structure ArtifactBinding where
  setId : ArtifactSetId := {}
  generation : ArtifactGeneration := {}
  digest : Text := []
  deriving DecidableEq

/-- Whether a byte is a hexadecimal digit of either case. -/
def isHexDigit (c : UInt8) : Bool :=
  (48 ≤ c && c ≤ 57) || (97 ≤ c && c ≤ 102) || (65 ≤ c && c ≤ 70)

/-- The shape of a digest: `sha256:` with 64 hexadecimal digits, or an opaque
bounded token. -/
def validDigest (digest : Text) (maxLength : ℕ) : Bool :=
  if digest.isEmpty ∨ maxLength < digest.length then false
  else if (text "sha256:").isPrefixOf digest then
    decide (digest.length = 7 + 64) && (digest.drop 7).all isHexDigit
  else
    digest.all fun c => isAlphanumeric c || c == 58 || c == 95 || c == 45 || c == 46

end LifecycleFabric
