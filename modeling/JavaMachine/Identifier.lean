/-!
# Identifiers

Classes, objects and loaders are places in the world's arrays; two of a kind are the same exactly
when their identifiers are.
-/

namespace JavaMachine

/-- The identity of a class. -/
structure ClassId where
  index : Nat
  deriving DecidableEq, Repr, Inhabited

/-- The identity of an object. -/
structure ObjectId where
  index : Nat
  deriving DecidableEq, Repr, Inhabited

/-- The identity of a loader. -/
structure LoaderId where
  index : Nat
  deriving DecidableEq, Repr, Inhabited

/-- The loader at the end of every delegation chain. -/
def LoaderId.bootstrap : LoaderId := ⟨0⟩

end JavaMachine
