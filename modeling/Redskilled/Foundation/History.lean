import Mathlib.Logic.Relation

/-!
# Histories of commits

A history gives each commit the tree of its files and its parents.
-/
namespace Redskilled.Foundation

structure History (κ τ : Type*) where
  tree : κ → τ
  parents : κ → List κ

namespace History
variable {κ τ : Type*} (history : History κ τ)

def Ancestor (a b : κ) : Prop := Relation.ReflTransGen (fun a b => a ∈ history.parents b) a b

end History
end Redskilled.Foundation
