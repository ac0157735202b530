import Vendoring.Mapping
import Vendoring.Naming

/-!
# Manifests

A manifest overrides settings. Each of its keys may be absent; a key that is present replaces the
setting as a whole.
-/

namespace Vendoring

/-- Every occurrence of a text is replaced by another. -/
structure Substitution where
  pattern : String
  replacement : String
deriving DecidableEq, Inhabited

/-- Overrides of settings. Mappings are not checked before they are applied. -/
structure Manifest where
  checkoutName : Option String := none
  cloneUrl : Option String := none
  sourceSubdir : Option Path := none
  entryPoint : Option Path := none
  stampTarget : Option Path := none
  naming : Option Naming := none
  substitutions : Option (List Substitution) := none
  mappings : Option (List Mapping) := none
deriving DecidableEq

instance : Inhabited Manifest := ⟨{}⟩

/-- The keys of the second manifest where it has them, and those of the first one elsewhere. -/
def Manifest.override (m n : Manifest) : Manifest where
  checkoutName := n.checkoutName.or m.checkoutName
  cloneUrl := n.cloneUrl.or m.cloneUrl
  sourceSubdir := n.sourceSubdir.or m.sourceSubdir
  entryPoint := n.entryPoint.or m.entryPoint
  stampTarget := n.stampTarget.or m.stampTarget
  naming := n.naming.or m.naming
  substitutions := n.substitutions.or m.substitutions
  mappings := n.mappings.or m.mappings

end Vendoring
