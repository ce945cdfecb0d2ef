/-!
# Numbers for distances and scores

Distances and scores are reckoned over any type with arithmetic and a natural number for each
count. Programs reckon with doubles; over exact numbers the same definitions are open to proof.
-/

namespace Typeahead

/-- The double of a count. -/
instance floatNatCast : NatCast Float :=
  ⟨Float.ofNat⟩

end Typeahead
